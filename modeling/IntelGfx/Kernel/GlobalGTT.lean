import IntelGfx.Kernel.Os
import IntelGfx.Theory.FirstFit

/-!
# The global GTT

`kernel/GlobalGTT.cpp`. The page table of the device is an array of 64 bit entries behind a PCI
BAR; the driver manages the `pageCount` entries from `firstPage` on and records in the bitmap `used`
which of them it has handed out. Page numbers passed to the private functions count from
`firstPage`.

The page attribute and flush registers, which no entry depends on, are left out. `fEntries` is the
mapped BAR, which is never at address zero: `IsValid` holds once `Init` has run to its end.
-/

namespace IntelGfx

structure GlobalGTT where
  /-- The hardware's page table, indexed by entry. -/
  entries : Nat → Nat
  valid : Bool
  entryCount : Nat
  firstPage : Nat
  pageCount : Nat
  base : Nat
  size : Nat
  scratchArea : Option Nat
  scratchPage : Nat
  used : Nat → Bool

namespace GlobalGTT
variable {α : Type}

def kEntryPresent : Nat := 1

def kManagedSize : Nat := 256 * 1024 * 1024

/-- `GlobalGTT::GlobalGTT`, over a page table as the firmware left it. -/
def new (entries : Nat → Nat) : GlobalGTT where
  entries := entries
  valid := false
  entryCount := 0
  firstPage := 0
  pageCount := 0
  base := 0
  size := 0
  scratchArea := none
  scratchPage := 0
  used := fun _ => false

def isValid (g : GlobalGTT) : Bool := g.valid

def isUsed (g : GlobalGTT) (page : Nat) : Bool := g.used page

def setUsed (g : GlobalGTT) (page : Nat) (used : Bool) : GlobalGTT :=
  { g with used := fun p => if p = page then used else g.used p }

def writeEntry (g : GlobalGTT) (page entry : Nat) : GlobalGTT :=
  { g with entries := fun p => if p = page then entry else g.entries p }

def scratchEntry (g : GlobalGTT) : Nat := g.scratchPage ||| kEntryPresent

/-- The loop of `_Fill`, `count` entries long. -/
def fill (g : GlobalGTT) (first entry : Nat) : (count : Nat) → GlobalGTT
  | 0 => g
  | count + 1 => (g.fill first entry count).writeEntry (g.firstPage + first + count) entry

/-- The loops that mark `count` pages used or unused. -/
def setUsedRange (g : GlobalGTT) (first : Nat) (used : Bool) : (count : Nat) → GlobalGTT
  | 0 => g
  | count + 1 => (g.setUsedRange first used count).setUsed (first + count) used

/-- `_Allocate`. -/
def allocate (g : GlobalGTT) (count : Nat) : Except Error Nat × GlobalGTT :=
  match FirstFit.firstFit (fun page => !g.isUsed page) count g.pageCount with
  | none => (.error .noMemory, g)
  | some first => (.ok first, g.setUsedRange first true count)

/-- The pages of one entry of a memory map, `left` of them from `physical` on, while the chunk
has room; `page` is the next page of the chunk. -/
def mapExtent (first chunk : Nat) : (left physical page : Nat) → GlobalGTT →
    Except Error Nat × GlobalGTT
  | 0, _, page, g => (.ok page, g)
  | left + 1, physical, page, g =>
    if page < chunk then
      if unaddressable physical then (.error .badAddress, g)
      else mapExtent first chunk left (physical + 4096) (page + 1)
        (g.writeEntry (g.firstPage + first + page) (physical ||| kEntryPresent))
    else (.ok page, g)

/-- The entries of a memory map, one after the other. -/
def mapTable (first chunk : Nat) : List (Nat × Nat) → (page : Nat) → GlobalGTT →
    Except Error Nat × GlobalGTT
  | [], page, g => (.ok page, g)
  | (address, size) :: table, page, g =>
    if page < chunk then
      match mapExtent first chunk ((size + 4095) / 4096) address page g with
      | (.error e, g) => (.error e, g)
      | (.ok page, g) => mapTable first chunk table page g
    else (.ok page, g)

def kChunkPages : Nat := 32

/-- The chunks of `_MapArea`; every one of them maps a page or more, so `fuel` need not exceed
the number of pages left. -/
def mapArea (ω : Oracle) (area first count : Nat) : (fuel done : Nat) → Os α → GlobalGTT →
    Except Error Unit × Os α × GlobalGTT
  | 0, _, os, g => (.ok (), os, g)
  | fuel + 1, done, os, g =>
    if done < count then
      let chunk := min (count - done) kChunkPages
      match os.memoryMap ω area done chunk with
      | (.error e, os) => (.error e, os, g)
      | (.ok table, os) =>
        match mapTable (first + done) chunk (table.take kChunkPages) 0 g with
        | (.error e, g) => (.error e, os, g)
        | (.ok page, g) =>
          if page ≠ chunk then (.error .badValue, os, g)
          else mapArea ω area first count fuel (done + chunk) os g
    else (.ok (), os, g)

/-- `Init`: `registers` is the mapped BAR of `barSize` bytes, `tableSize` the configured size of
the page table and `reserved` the leading part of the address space left to `agp_gart`. -/
def init (ω : Oracle) (os : Os α) (owner : α) (g : GlobalGTT)
    (registers barSize generation tableSize reserved : Nat) : Except Error Unit × Os α
    × GlobalGTT :=
  if g.valid then (.error .busy, os, g) else
  if generation < 8 then (.error .notSupported, os, g) else
  if registers = 0 ∨ tableSize = 0 ∨ barSize / 2 < tableSize then (.error .badValue, os, g) else
  let entryCount := tableSize / 8
  let addressSpace := entryCount * 4096 % 2 ^ 64
  let reserved := pageRound reserved
  if addressSpace ≤ reserved then (.error .noMemory, os, g) else
  let size := min (addressSpace - reserved) kManagedSize
  let pages := size / 4096
  match os.createArea ω owner false 1 with
  | (.error e, os) => (.error e, os, g)
  | (.ok scratchArea, os) =>
    match os.memoryPage ω scratchArea 0 with
    | (.error e, os) => (.error e, os.deleteArea scratchArea, g)
    | (.ok physical, os) =>
      if unaddressable physical then (.error .badAddress, os.deleteArea scratchArea, g) else
      -- the bitmap is the kernel heap's, which may be exhausted as well
      match ω.fails os.calls with
      | some _ => (.error .noMemory, os.refused.deleteArea scratchArea, g)
      | none =>
        let g := { g with
          valid := true, entryCount := entryCount, firstPage := reserved / 4096,
          pageCount := pages, base := reserved, size := size,
          scratchArea := some scratchArea, scratchPage := physical, used := fun _ => false }
        (.ok (), os.called, g.fill 0 g.scratchEntry g.pageCount)

/-- `GlobalGTT::~GlobalGTT`. -/
def destroy (os : Os α) (g : GlobalGTT) : Os α × GlobalGTT :=
  let g' := if g.valid then { g.fill 0 0 g.pageCount with valid := false } else g
  match g.scratchArea with
  | none => (os, g')
  | some area => (os.deleteArea area, { g' with scratchArea := none })

/-- `Lookup`: the physical page a global address resolves to. -/
def lookup (g : GlobalGTT) (address : Nat) : Except Error Nat :=
  if !g.isValid then .error .notSupported else
  if address % 4096 ≠ 0 then .error .badValue else
  let page := address / 4096
  if g.entryCount ≤ page then .error .badValue else
  let entry := g.entries page
  if entry &&& kEntryPresent = 0 then .error .entryNotFound
  else .ok (entry &&& addressMask)

/-- `Bind`. -/
def bind (ω : Oracle) (os : Os α) (g : GlobalGTT) (area : Nat) :
    Except Error Nat × Os α × GlobalGTT :=
  if !g.isValid then (.error .notSupported, os, g) else
  match os.areaSize area with
  | .error e => (.error e, os, g)
  | .ok areaSize =>
    let size := pageRound areaSize
    if size = 0 ∨ g.size < size then (.error .badValue, os, g) else
    let count := size / 4096
    match g.allocate count with
    | (.error e, g) => (.error e, os, g)
    | (.ok first, g) =>
      match mapArea ω area first count count 0 os g with
      | (.error e, os, g) =>
        (.error e, os, (g.fill first g.scratchEntry count).setUsedRange first false count)
      | (.ok (), os, g) => (.ok (g.base + first * 4096), os, g)

/-- `Unbind`. -/
def unbind (g : GlobalGTT) (address size : Nat) : Except Error Unit × GlobalGTT :=
  if !g.isValid then (.error .notSupported, g) else
  let size := pageRound size
  if address % 4096 ≠ 0 ∨ address < g.base ∨ size = 0 ∨ g.size ≤ address - g.base
      ∨ g.size - (address - g.base) < size then (.error .badValue, g) else
  let first := (address - g.base) / 4096
  let count := size / 4096
  if (List.range count).all fun i => g.isUsed (first + i) then
    (.ok (), (g.fill first g.scratchEntry count).setUsedRange first false count)
  else (.error .badValue, g)

end GlobalGTT

end IntelGfx
