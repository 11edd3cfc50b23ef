import IntelGfx.Kernel.GlobalGTT
import Mathlib.Logic.Function.Basic

/-!
# Buffer objects

`kernel/BufferObject.cpp`: an area and its binding in the global GTT. An `Aperture` is one GTT
with the buffer objects that use it; its steps are the calls the objects take.
-/

namespace IntelGfx

/-- `BufferObject`: `owner` is the object its area is created for, and `bound` tells whether
`fGTT` is set. -/
structure BufferObject (α : Type) where
  owner : α
  area : Option Nat
  size : Nat
  bound : Bool
  graphicsAddress : Nat

/-- The memory of the system and the global GTT, which the buffer objects of a device share. -/
structure Machine (α : Type) where
  os : Os α
  gtt : GlobalGTT

namespace BufferObject
variable {α : Type}

/-- `BufferObject::BufferObject`. -/
def new (owner : α) : BufferObject α where
  owner := owner
  area := none
  size := 0
  bound := false
  graphicsAddress := 0

/-- `Init`. `create_area` takes sizes in whole pages. -/
def init (ω : Oracle) (bo : BufferObject α) (os : Os α) (size : Nat) :
    Except Error Unit × BufferObject α × Os α :=
  match os.createArea ω bo.owner false (size / 4096) with
  | (.error e, os) => (.error e, bo, os)
  | (.ok area, os) => (.ok (), { bo with area := some area, size := size }, os)

def isBound (bo : BufferObject α) : Bool := bo.bound

/-- `Bind`. -/
def bind (ω : Oracle) (bo : BufferObject α) (m : Machine α) :
    Except Error Unit × BufferObject α × Machine α :=
  match bo.area with
  | none => (.error .noInit, bo, m)
  | some area =>
    if bo.bound then (.error .busy, bo, m) else
    match m.gtt.bind ω m.os area with
    | (.error e, os, gtt) => (.error e, bo, ⟨os, gtt⟩)
    | (.ok address, os, gtt) =>
      (.ok (), { bo with bound := true, graphicsAddress := address }, ⟨os, gtt⟩)

/-- `Unbind`. -/
def unbind (bo : BufferObject α) (m : Machine α) : Except Error Unit × BufferObject α × Machine α :=
  if !bo.bound then (.error .badValue, bo, m) else
  let (status, gtt) := m.gtt.unbind bo.graphicsAddress bo.size
  -- the mapping is gone either way as far as this buffer is concerned
  (status, { bo with bound := false, graphicsAddress := 0 }, { m with gtt := gtt })

/-- `BufferObject::~BufferObject`. -/
def destroy (bo : BufferObject α) (m : Machine α) : Machine α :=
  let (_, _, m) := bo.unbind m
  match bo.area with
  | none => m
  | some area => { m with os := m.os.deleteArea area }

end BufferObject

/-! ## Buffer objects sharing a GTT -/

/-- The buffer objects that use one global GTT, whoever holds them. -/
structure Aperture (α : Type) where
  machine : Machine α
  objects : α → Option (BufferObject α)

/-- What is done to a buffer object. A new one is of `pages` pages. -/
inductive Aperture.Call (α : Type) where
  | create (o : α) (pages : Nat)
  | bind (o : α)
  | unbind (o : α)
  | destroy (o : α)

namespace Aperture
variable {α : Type} [DecidableEq α]

/-- One call on one of the objects. -/
def step (call : Call α × Oracle) (s : Aperture α) : Aperture α :=
  let os := s.machine.os.enter
  match call with
  | (.create o pages, ω) =>
    match s.objects o with
    | some _ => s
    | none =>
      match (BufferObject.new o).init ω os (pages * 4096) with
      | (.error _, bo, os) =>
        { s with machine := bo.destroy { s.machine with os := os } }
      | (.ok (), bo, os) =>
        ⟨{ s.machine with os := os }, Function.update s.objects o (some bo)⟩
  | (.bind o, ω) =>
    match s.objects o with
    | none => s
    | some bo =>
      let (_, bo, m) := bo.bind ω { s.machine with os := os }
      ⟨m, Function.update s.objects o (some bo)⟩
  | (.unbind o, _) =>
    match s.objects o with
    | none => s
    | some bo =>
      let (_, bo, m) := bo.unbind s.machine
      ⟨m, Function.update s.objects o (some bo)⟩
  | (.destroy o, _) =>
    match s.objects o with
    | none => s
    | some bo => ⟨bo.destroy s.machine, Function.update s.objects o none⟩

end Aperture

end IntelGfx
