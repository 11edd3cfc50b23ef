import IntelGfx.Kernel.BufferObject
import IntelGfx.Kernel.PageTables

/-!
# The objects of the driver

Buffer objects and page tables are heap objects of the driver. A `Memory` names each of them by
what it was made for, its `Owner`, and keeps them beside the system's areas and the global GTT,
which all of them share.
-/

namespace IntelGfx

/-- The two engines there is an `EngineDescriptor` for. -/
inductive EngineId where
  | blitter | render
  deriving DecidableEq, Repr

/-- What a `RenderEngine` is there for: to be an engine's own context and the scheduler of all the
others on it, to be the context a client was given at open, or to be one it has created. -/
inductive ContextId where
  | master (engine : EngineId)
  | legacy (client : Nat) (engine : EngineId)
  | native (client context : Nat)
  deriving DecidableEq, Repr

/-- The buffer objects of a `RenderEngine`. -/
inductive Part where
  | statusPage | fencePage | context | ring
  deriving DecidableEq, Repr

/-- Whatever areas are created for. -/
inductive Owner where
  | gtt
  | part (x : ContextId) (p : Part)
  | ownTables (x : ContextId)
  | vm (client : Nat)
  | buffer (client handle : Nat)
  deriving DecidableEq, Repr

structure Memory where
  machine : Machine Owner
  objects : Owner → Option (BufferObject Owner)
  tables : Owner → Option (PageTables Owner)

namespace Memory

def os (m : Memory) : Os Owner := m.machine.os

def gtt (m : Memory) : GlobalGTT := m.machine.gtt

def setOs (m : Memory) (os : Os Owner) : Memory := { m with machine := { m.machine with os := os } }

def setObject (m : Memory) (o : Owner) (bo : Option (BufferObject Owner)) : Memory :=
  { m with objects := Function.update m.objects o bo }

def setTables (m : Memory) (o : Owner) (pt : Option (PageTables Owner)) : Memory :=
  { m with tables := Function.update m.tables o pt }

/-! ## Buffer objects -/

/-- A buffer object is made and initialized, and deleted again if that fails. -/
def newObject (ω : Oracle) (m : Memory) (o : Owner) (size : Nat) : Except Error Unit × Memory :=
  match (BufferObject.new o).init ω m.os size with
  | (.error e, bo, os) => (.error e, { m with machine := bo.destroy ⟨os, m.gtt⟩ })
  | (.ok (), bo, os) => (.ok (), (m.setOs os).setObject o (some bo))

/-- `BufferObject::Bind`. -/
def bindObject (ω : Oracle) (m : Memory) (o : Owner) : Except Error Unit × Memory :=
  match m.objects o with
  | none => (.error .noInit, m)
  | some bo =>
    let (status, bo, machine) := bo.bind ω m.machine
    (status, { m with machine := machine }.setObject o (some bo))

/-- `BufferObject::Unbind`. -/
def unbindObject (m : Memory) (o : Owner) : Except Error Unit × Memory :=
  match m.objects o with
  | none => (.error .noInit, m)
  | some bo =>
    let (status, bo, machine) := bo.unbind m.machine
    (status, { m with machine := machine }.setObject o (some bo))

/-- A buffer object is deleted. -/
def deleteObject (m : Memory) (o : Owner) : Memory :=
  match m.objects o with
  | none => m
  | some bo => { m with machine := bo.destroy m.machine }.setObject o none

def size (m : Memory) (o : Owner) : Nat :=
  match m.objects o with
  | none => 0
  | some bo => bo.size

def area (m : Memory) (o : Owner) : Option Nat := (m.objects o).bind (·.area)

def isBound (m : Memory) (o : Owner) : Bool := (m.objects o).any (·.isBound)

def graphicsAddress (m : Memory) (o : Owner) : Nat :=
  match m.objects o with
  | none => 0
  | some bo => bo.graphicsAddress

/-! ## Page tables -/

/-- Page tables are made and initialized, and deleted again if that fails. -/
def newTables (ω : Oracle) (m : Memory) (o : Owner) : Except Error Unit × Memory :=
  match (PageTables.new o).init ω m.os with
  | (.error e, pt, os) => (.error e, m.setOs (pt.destroy os))
  | (.ok (), pt, os) => (.ok (), (m.setOs os).setTables o (some pt))

/-- `PageTables::Map`, and how many pages it mapped. -/
def map (ω : Oracle) (m : Memory) (o : Owner) (area : Option Nat) (address : Nat) :
    Except Error Unit × Nat × Memory :=
  match m.tables o, area with
  | some pt, some area =>
    let (status, done, pt, os) := pt.map ω m.os area address
    (status, done, (m.setOs os).setTables o (some pt))
  | _, _ => (.error .noInit, 0, m)

/-- `PageTables::MapPhysical`. -/
def mapPhysical (ω : Oracle) (m : Memory) (o : Owner) (address physical size : Nat) :
    Except Error Unit × Memory :=
  match m.tables o with
  | none => (.error .noInit, m)
  | some pt =>
    let (status, _, pt, os) := pt.mapPhysical ω m.os address physical size
    (status, (m.setOs os).setTables o (some pt))

/-- `PageTables::Unmap`. -/
def unmap (ω : Oracle) (m : Memory) (o : Owner) (address size : Nat) :
    Except Error Unit × Memory :=
  match m.tables o with
  | none => (.error .noInit, m)
  | some pt =>
    let (status, pt) := pt.unmap ω m.os address size
    (status, m.setTables o (some pt))

/-- `PageTables::Flush`. -/
def flush (m : Memory) (o : Owner) : Memory :=
  match m.tables o with
  | none => m
  | some pt => m.setTables o (some pt.flush)

/-- Page tables are deleted. -/
def deleteTables (m : Memory) (o : Owner) : Memory :=
  match m.tables o with
  | none => m
  | some pt => (m.setOs (pt.destroy m.os)).setTables o none

/-! ## Calls -/

/-- The driver starts on the next operation. -/
def enter (m : Memory) : Memory := m.setOs m.os.enter

/-- `user_memcpy`. -/
def userMemcpy (ω : Oracle) (m : Memory) : Except Error Unit × Memory :=
  let (status, os) := m.os.userMemcpy ω
  (status, m.setOs os)

/-- The hardware is polled. -/
def poll (ω : Oracle) (m : Memory) : Bool × Memory :=
  let (answered, os) := m.os.poll ω
  (answered, m.setOs os)

/-- `new(std::nothrow)`, which the kernel heap may refuse. -/
def allocate (ω : Oracle) (m : Memory) : Except Error Unit × Memory :=
  match ω.fails m.os.calls with
  | some _ => (.error .noMemory, m.setOs m.os.refused)
  | none => (.ok (), m.setOs m.os.called)

end Memory

end IntelGfx
