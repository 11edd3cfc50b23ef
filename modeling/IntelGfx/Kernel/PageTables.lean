import IntelGfx.Kernel.Os
import IntelGfx.Theory.SharedTrie

/-!
# Page tables

`kernel/PageTables.cpp`: the four-level page tables of a context. The hardware walks the tables by
physical address, so their contents `mem` are kept by the physical page a table lives in; `entries`
of the source is the kernel's address of that page.

The loops of `Map` and `MapPhysical` also return how many pages they completed before they ended.
Cache maintenance is left out.
-/

namespace IntelGfx

/-- `PageTables::Table`. -/
structure Table where
  area : Option Nat
  physical : Nat
  deriving DecidableEq, Repr

/-- `fRoot` is zero until `Init` has succeeded. -/
structure PageTables (α : Type) where
  owner : α
  tables : List Table
  top : Table
  root : Nat
  scratchArea : Option Nat
  scratchPage : Nat
  dirty : Bool
  /-- What the pages that hold the tables contain. -/
  mem : Nat → Fin 512 → Nat

namespace PageTables
variable {α : Type}

def kMaxTables : Nat := 512

/-- `kPageEntryPresent | kPageEntryWritable`. -/
def kPageEntryFlags : Nat := 0x3

def kShift : Nat → Nat
  | 0 => 39
  | 1 => 30
  | 2 => 21
  | _ => 12

/-- `IndexAt`. -/
def indexAt (address level : Nat) : Fin 512 := Fin.ofNat 512 (address >>> kShift level)

/-- `PageTables::PageTables`. -/
def new (owner : α) : PageTables α where
  owner := owner
  tables := []
  top := ⟨none, 0⟩
  root := 0
  scratchArea := none
  scratchPage := 0
  dirty := true
  mem := fun _ _ => 0

def isValid (pt : PageTables α) : Bool := pt.root != 0

/-- `table.entries[index] = entry`. -/
def setEntry (pt : PageTables α) (table : Table) (index : Fin 512) (entry : Nat) : PageTables α :=
  { pt with mem := fun p i => if p = table.physical ∧ i = index then entry else pt.mem p i }

/-- The loops that write every entry of a table. -/
def setEntries (pt : PageTables α) (table : Table) (entries : Fin 512 → Nat) : PageTables α :=
  { pt with mem := fun p i => if p = table.physical then entries i else pt.mem p i }

/-- `_CreateTable`. -/
def createTable (ω : Oracle) (pt : PageTables α) (os : Os α) :
    Except Error Table × PageTables α × Os α :=
  if pt.tables.length = kMaxTables then (.error .noMemory, pt, os) else
  match os.createArea ω pt.owner true 1 with
  | (.error e, os) => (.error e, pt, os)
  | (.ok area, os) =>
    match os.memoryPage ω area 0 with
    | (.error e, os) => (.error e, pt, os.deleteArea area)
    | (.ok physical, os) =>
      if unaddressable physical then (.error .badAddress, pt, os.deleteArea area) else
      let table := ⟨some area, physical⟩
      let pt := pt.setEntries table fun _ => 0
      (.ok table, { pt with tables := pt.tables ++ [table] }, os)

/-- The loop of `Init` over `levels` scratch tables, each filled with the level `below` it, and
then the top level. -/
def initTables (ω : Oracle) (below : Nat) : (levels : Nat) → PageTables α → Os α →
    Except Error Unit × PageTables α × Os α
  | 0, pt, os =>
    match pt.createTable ω os with
    | (.error e, pt, os) => (.error e, pt, os)
    | (.ok top, pt, os) =>
      (.ok (), { pt.setEntries top fun _ => below with top := top, root := top.physical }, os)
  | levels + 1, pt, os =>
    match pt.createTable ω os with
    | (.error e, pt, os) => (.error e, pt, os)
    | (.ok table, pt, os) =>
      initTables ω (table.physical ||| kPageEntryFlags) levels
        (pt.setEntries table fun _ => below) os

/-- `Init`. -/
def init (ω : Oracle) (pt : PageTables α) (os : Os α) : Except Error Unit × PageTables α × Os α :=
  if pt.isValid then (.error .busy, pt, os) else
  match os.createArea ω pt.owner true 1 with
  | (.error e, os) => (.error e, { pt with scratchArea := none }, os)
  | (.ok scratchArea, os) =>
    let pt := { pt with scratchArea := some scratchArea }
    match os.memoryPage ω scratchArea 0 with
    | (.error e, os) => (.error e, pt, os)
    | (.ok physical, os) =>
      initTables ω (physical ||| kPageEntryFlags) 3 { pt with scratchPage := physical } os

/-- `_Descend`. -/
def descend (pt : PageTables α) (table : Table) (index : Fin 512) (create : Bool) :
    Except Error Table :=
  let physical := pt.mem table.physical index &&& addressMask
  match pt.tables.find? (·.physical == physical) with
  | some child => .ok child
  | none => if create then .error .error else .error .entryNotFound

/-- Whether a table is one of the first three, which are the scratch tables. -/
def isScratch (pt : PageTables α) (table : Table) : Bool :=
  (pt.tables.take 3).any (·.physical == table.physical)

/-- The loop of `_Walk` over the given levels, from a table on. -/
def walkFrom (ω : Oracle) (address : Nat) (create : Bool) : List Nat → Table → PageTables α →
    Os α → Except Error Table × PageTables α × Os α
  | [], table, pt, os => (.ok table, pt, os)
  | level :: levels, table, pt, os =>
    let index := indexAt address level
    match pt.descend table index create with
    | .error e => (.error e, pt, os)
    | .ok child =>
      if pt.isScratch child then
        if create then
          match pt.createTable ω os with
          | (.error e, pt, os) => (.error e, pt, os)
          | (.ok replacement, pt, os) =>
            let pt := pt.setEntries replacement (pt.mem child.physical)
            let pt := pt.setEntry table index (replacement.physical ||| kPageEntryFlags)
            walkFrom ω address create levels replacement pt os
        else (.error .entryNotFound, pt, os)
      else walkFrom ω address create levels child pt os

/-- `_Walk`: the last table on the way to an address and the address's index in it. -/
def walk (ω : Oracle) (pt : PageTables α) (os : Os α) (address : Nat) (create : Bool) :
    Except Error (Table × Fin 512) × PageTables α × Os α :=
  match walkFrom ω address create [0, 1, 2] pt.top pt os with
  | (.error e, pt, os) => (.error e, pt, os)
  | (.ok table, pt, os) => (.ok (table, indexAt address 3), pt, os)

/-- The loop of `Map` and `MapPhysical` over `count` pages from page `k` on, where `page k` tells
what the page is. -/
def mapPages (ω : Oracle) (page : Nat → Os α → Except Error Nat × Os α) (address : Nat) :
    (count k : Nat) → PageTables α → Os α → Except Error Unit × Nat × PageTables α × Os α
  | 0, k, pt, os => (.ok (), k, pt, os)
  | count + 1, k, pt, os =>
    match page k os with
    | (.error e, os) => (.error e, k, pt, os)
    | (.ok physical, os) =>
      if unaddressable physical then (.error .badAddress, k, pt, os) else
      match pt.walk ω os (address + k * 4096) true with
      | (.error e, pt, os) => (.error e, k, pt, os)
      | (.ok (table, index), pt, os) =>
        mapPages ω page address count (k + 1)
          (pt.setEntry table index (physical ||| kPageEntryFlags)) os

/-- `Map`. -/
def map (ω : Oracle) (pt : PageTables α) (os : Os α) (area address : Nat) :
    Except Error Unit × Nat × PageTables α × Os α :=
  if !pt.isValid then (.error .noInit, 0, pt, os) else
  if address % 4096 ≠ 0 ∨ 2 ^ 48 ≤ address then (.error .badValue, 0, pt, os) else
  match os.areaSize area with
  | .error e => (.error e, 0, pt, os)
  | .ok areaSize =>
    let size := pageRound areaSize
    if 2 ^ 48 - address < size then (.error .badValue, 0, pt, os) else
    mapPages ω (fun k os => os.memoryPage ω area k) address (size / 4096) 0
      { pt with dirty := true } os

/-- `MapPhysical`. -/
def mapPhysical (ω : Oracle) (pt : PageTables α) (os : Os α) (address physical size : Nat) :
    Except Error Unit × Nat × PageTables α × Os α :=
  if !pt.isValid then (.error .noInit, 0, pt, os) else
  if address % 4096 ≠ 0 ∨ physical % 4096 ≠ 0 ∨ 2 ^ 48 ≤ address ∨ 2 ^ 48 - address < size
      ∨ size % 4096 ≠ 0 then (.error .badValue, 0, pt, os) else
  mapPages ω (fun k os => (.ok ((physical + k * 4096) % 2 ^ 64), os)) address (size / 4096) 0
    { pt with dirty := true } os

/-- The loop of `Unmap`. A walk that may not create tables makes no calls. -/
def unmapPages (ω : Oracle) (os : Os α) (address : Nat) : (count k : Nat) → PageTables α →
    PageTables α
  | 0, _, pt => pt
  | count + 1, k, pt =>
    match pt.walk ω os (address + k * 4096) false with
    | (.error _, pt, _) => unmapPages ω os address count (k + 1) pt
    | (.ok (table, index), pt, _) =>
      unmapPages ω os address count (k + 1)
        (pt.setEntry table index (pt.scratchPage ||| kPageEntryFlags))

/-- `Unmap`. -/
def unmap (ω : Oracle) (pt : PageTables α) (os : Os α) (address size : Nat) :
    Except Error Unit × PageTables α :=
  if !pt.isValid then (.error .noInit, pt) else
  if address % 4096 ≠ 0 ∨ 2 ^ 48 ≤ address then (.error .badValue, pt) else
  if 2 ^ 48 - address < size then (.error .badValue, pt) else
  (.ok (), unmapPages ω os address (pageRound size / 4096) 0 { pt with dirty := true })

/-- `Flush`, which has nothing to write back unless the tables are dirty. -/
def flush (pt : PageTables α) : PageTables α := { pt with dirty := false }

/-- The areas that have been created for the tables. -/
def areas (pt : PageTables α) : List Nat := pt.tables.filterMap (·.area) ++ pt.scratchArea.toList

/-- `PageTables::~PageTables`. -/
def destroy (pt : PageTables α) (os : Os α) : Os α := pt.areas.foldl Os.deleteArea os

/-! ## The hardware's walk -/

/-- The page an entry of a table names. -/
def next (pt : PageTables α) (table : Nat) (index : Fin 512) : Nat :=
  pt.mem table index &&& addressMask

/-- The indices an address is walked through, top first. -/
def path (address : Nat) : List (Fin 512) := [0, 1, 2, 3].map (indexAt address)

/-- The page the hardware's walk from `Root()` ends at. -/
def translate (pt : PageTables α) (address : Nat) : Nat :=
  SharedTrie.follow pt.next pt.root (path address)

end PageTables

end IntelGfx
