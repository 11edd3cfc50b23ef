import Mathlib.Tactic.Common
import Mathlib.Algebra.Group.Nat.Defs
import Mathlib.Algebra.Group.Int.Defs
import IntelGfx.Theory.Run

/-!
# The GL display shared by the GalliumContext objects of a process

`GalliumContext.cpp`: the first object creates the screen and the display, `fDisplayRefCount`
counts the users, and the last destructor takes both down. A call is atomic, as `sDisplayLock`
makes it; whether the screen, the display and a state tracker context can be made is an input.
-/

namespace IntelGfx

namespace Gallium

/-- What the process is built and run with. -/
structure Env where
  /-- `INTEL_GFX_KEEP_SCREEN` is set. -/
  keepScreen : Bool
  /-- `CONTEXT_MAX` -/
  contextMax : Nat

/-- `hgl_display`, with the screen of its manager. -/
structure Display where
  id : Nat
  screen : Nat
  deriving DecidableEq

/-- A live object of the class. `DestroyContext` is called by the destructor only, so the slots
of `fContext` fill in order; of each `hgl_context` the display it was made with is kept. -/
structure Context where
  /-- What `CreateDisplay` returned to the constructor, which drops it. -/
  created : Bool
  fContext : List Nat
  deriving DecidableEq

structure State where
  fDisplayRefCount : Int
  fDisplay : Option Display
  /-- The objects in the order of construction; `none` once deleted. -/
  objects : List (Option Context)
  /-- The screens that exist. -/
  screens : List Nat
  /-- The displays that exist. -/
  displays : List Nat
  /-- The name of the next screen or display. -/
  next : Nat
  deriving DecidableEq

def start : State := ⟨0, none, [], [], [], 0⟩

/-- The value `atomic_add` leaves in an `int32`. -/
def atomicAdd (value delta : Int) : Int := (value + delta).bmod (2 ^ 32)

/-- The live objects whose `CreateDisplay` succeeded. -/
def users (objects : List (Option Context)) : Nat := objects.countP fun o => o.any (·.created)

namespace State

/-- `intel_haiku_screen_create` -/
def newScreen (s : State) : State :=
  { s with screens := s.next :: s.screens, next := s.next + 1 }

/-- `hgl_create_display` -/
def newDisplay (screen : Nat) (s : State) : State :=
  { s with fDisplay := some ⟨s.next, screen⟩, displays := s.next :: s.displays, next := s.next + 1 }

/-- `GalliumContext::CreateDisplay`: `screen` and `display` say whether the two can be made. -/
def createDisplay (screen display : Bool) (s : State) : Bool × State :=
  if s.fDisplayRefCount > 0 then
    (true, { s with fDisplayRefCount := atomicAdd s.fDisplayRefCount 1 })
  else
    let s := { s with fDisplayRefCount := atomicAdd s.fDisplayRefCount 1 }
    if screen then
      let name := s.next
      let s := s.newScreen
      if display then
        (true, s.newDisplay name)
      else
        (false, { s with
          fDisplay := none
          screens := s.screens.erase name
          fDisplayRefCount := atomicAdd s.fDisplayRefCount (-1) })
    else
      (false, { s with fDisplayRefCount := atomicAdd s.fDisplayRefCount (-1) })

/-- `GalliumContext::DestroyDisplay` -/
def destroyDisplay (env : Env) (s : State) : State :=
  let count := s.fDisplayRefCount
  let s := { s with fDisplayRefCount := atomicAdd count (-1) }
  if count > 1 then s
  else
    match s.fDisplay with
    | none => s
    | some display =>
      if env.keepScreen then s
      else { s with
        fDisplay := none
        displays := s.displays.erase display.id
        screens := s.screens.erase display.screen }

/-- `GalliumContext::GalliumContext` -/
def construct (screen display : Bool) (s : State) : State :=
  let (created, s) := s.createDisplay screen display
  { s with objects := s.objects ++ [some ⟨created, []⟩] }

/-- `GalliumContext::~GalliumContext` -/
def destruct (env : Env) (object : Nat) (s : State) : State :=
  destroyDisplay env { s with objects := s.objects.set object none }

/-- `GalliumContext::CreateContext`: `made` says whether the framebuffer and the state tracker
context can be made. -/
def createContext (env : Env) (object : Nat) (context : Context) (made : Bool) (s : State) :
    State :=
  match s.fDisplay with
  | none => s
  | some display =>
    if made && decide (context.fContext.length < env.contextMax) then
      let context := { context with fContext := context.fContext ++ [display.id] }
      { s with objects := s.objects.set object (some context) }
    else s

/-- The object of that number, while it is live. -/
def object (s : State) (n : Nat) : Option Context := s.objects[n]?.join

end State

inductive Call where
  | construct (screen display : Bool)
  | destruct (object : Nat)
  | createContext (object : Nat) (made : Bool)

/-- One call; a call on an object that is not live does nothing. -/
def step (env : Env) (call : Call) (s : State) : State :=
  match call with
  | .construct screen display => s.construct screen display
  | .destruct n =>
    match s.object n with
    | none => s
    | some _ => s.destruct env n
  | .createContext n made =>
    match s.object n with
    | none => s
    | some context => s.createContext env n context made

end Gallium

end IntelGfx
