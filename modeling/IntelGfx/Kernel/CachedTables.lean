import IntelGfx.Kernel.PageTables
import IntelGfx.Theory.Run

/-!
# Page tables behind the processor's cache

`PageTables::Flush` with the cache it writes back: `tables` is what the processor reads, `memory`
is what the hardware walks. A cache line reaches memory when it is flushed, or when the processor
evicts it, which it may do at any moment.

The page tables belong to a client. `Map`, `MapPhysical` and `Unmap` are called with the lock of
the client held, and so is `RenderEngine::Submit`, which flushes them before it writes the submit
port. With `shortcut` false, `Flush` does without `fDirty`.
-/

namespace IntelGfx

structure CachedTables (α : Type) where
  tables : PageTables α
  /-- What memory holds, page by page. -/
  memory : Nat → Fin 512 → Nat
  /-- The thread that holds the lock of the client. -/
  holder : Option Nat
  /-- It has called `Submit`, which has flushed the page tables and not yet written the port. -/
  flushed : Bool

namespace CachedTables
variable {α : Type}

/-- The entries that share a cache line of 64 bytes. -/
def line (index : Fin 512) : Nat := index / 8

/-- A cache line of a page is written back. -/
def writeBack (view : Nat → Fin 512 → Nat) (page l : Nat) (memory : Nat → Fin 512 → Nat) :
    Nat → Fin 512 → Nat :=
  fun p i => if p = page ∧ line i = l then view p i else memory p i

/-- `FlushCpuCache`, from the first byte of a page on. -/
def flushCpuCache (view : Nat → Fin 512 → Nat) (page size : Nat)
    (memory : Nat → Fin 512 → Nat) : Nat → Fin 512 → Nat :=
  (List.range ((size + 63) / 64)).foldl (fun memory l => writeBack view page l memory) memory

/-- `PageTables::Flush` -/
def flush (shortcut : Bool) (s : CachedTables α) : CachedTables α :=
  if shortcut && !s.tables.dirty then s else
  { s with
    memory := s.tables.tables.foldl
      (fun memory table => flushCpuCache s.tables.mem table.physical 4096 memory) s.memory
    tables := s.tables.flush }

/-- What a mapping operation leaves in memory. While it runs the cache may write back whatever the
entries hold on the way, so `evicted` is any value; an operation that ends before it touches the
tables leaves them as they were. -/
def mapped (s : CachedTables α) (tables : PageTables α) (evicted : Nat → Fin 512 → Option Nat) :
    CachedTables α :=
  { s with
    tables := tables
    memory := if tables.dirty then fun p i => (evicted p i).getD (s.memory p i) else s.memory }

inductive Action (α : Type) where
  | acquire (thread : Nat)
  | release (thread : Nat)
  | map (thread : Nat) (ω : Oracle) (os : Os α) (area address : Nat)
    (evicted : Nat → Fin 512 → Option Nat)
  | mapPhysical (thread : Nat) (ω : Oracle) (os : Os α) (address physical size : Nat)
    (evicted : Nat → Fin 512 → Option Nat)
  | unmap (thread : Nat) (ω : Oracle) (os : Os α) (address size : Nat)
    (evicted : Nat → Fin 512 → Option Nat)
  /-- `Submit` flushes the page tables. -/
  | flush (thread : Nat)
  /-- `Submit` writes the submit port. -/
  | submitPort (thread : Nat)
  /-- The processor evicts a cache line. -/
  | evict (page line : Nat)
  /-- Whoever owns a page that holds none of the tables writes it. -/
  | other (page : Nat) (view memory : Fin 512 → Nat)

/-- The thread holds the client's lock and is not between the flush and the port of a `Submit`. -/
def May (s : CachedTables α) (thread : Nat) : Prop := s.holder = some thread ∧ s.flushed = false

/-- The thread is at the write of the submit port. -/
def AtPort (s : CachedTables α) (thread : Nat) : Prop := s.holder = some thread ∧ s.flushed = true

instance (s : CachedTables α) (thread : Nat) : Decidable (s.May thread) := instDecidableAnd
instance (s : CachedTables α) (thread : Nat) : Decidable (s.AtPort thread) := instDecidableAnd

def step (shortcut : Bool) : Action α → CachedTables α → CachedTables α
  | .acquire thread, s => if s.holder = none then { s with holder := some thread } else s
  | .release thread, s => if s.May thread then { s with holder := none } else s
  | .map thread ω os area address evicted, s =>
    if s.May thread then s.mapped (s.tables.map ω os area address).2.2.1 evicted else s
  | .mapPhysical thread ω os address physical size evicted, s =>
    if s.May thread then s.mapped (s.tables.mapPhysical ω os address physical size).2.2.1 evicted
    else s
  | .unmap thread ω os address size evicted, s =>
    if s.May thread then s.mapped (s.tables.unmap ω os address size).2 evicted else s
  | .flush thread, s => if s.May thread then { s.flush shortcut with flushed := true } else s
  | .submitPort thread, s => if s.AtPort thread then { s with flushed := false } else s
  | .evict page line, s => { s with memory := writeBack s.tables.mem page line s.memory }
  | .other page view memory, s =>
    if page ∈ s.tables.tables.map (·.physical) then s else
    { s with
      tables := { s.tables with mem := fun p i => if p = page then view i else s.tables.mem p i }
      memory := fun p i => if p = page then memory i else s.memory p i }

/-- The page tables that a client has just made, over any memory. -/
def start (ω : Oracle) (owner : α) (os : Os α) (memory : Nat → Fin 512 → Nat) : CachedTables α where
  tables := ((PageTables.new owner).init ω os).2.1
  memory := memory
  holder := none
  flushed := false

end CachedTables

end IntelGfx
