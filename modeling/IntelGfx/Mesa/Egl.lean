import Mathlib.Algebra.BigOperators.Group.Finset.Basic
import Mathlib.Algebra.GroupWithZero.Nat
import Mathlib.Data.Fintype.BigOperators
import IntelGfx.Theory.Run

/-!
# References of the EGL driver

`egl_haiku.cpp`: the surfaces and contexts of one display, the binding of each thread, and the
calls that take and drop references. `_eglBindContext`, `_eglPutSurface` and `_eglPutContext` are
Mesa's, and do what Mesa documents. Whether Mesa accepts a binding, whether the state tracker does
and whether an object can be made are inputs of the calls.
-/

namespace IntelGfx

namespace Egl

/-- What is counted. -/
inductive Resource where
  | context (id : Nat)
  | surface (id : Nat)
  deriving DecidableEq

namespace Resource

def id : Resource → Nat
  | context id => id
  | surface id => id

end Resource

/-- What a thread has current. -/
structure Binding where
  ctx : Option Nat
  draw : Option Nat
  read : Option Nat
  deriving DecidableEq

namespace Binding

def none : Binding := ⟨.none, .none, .none⟩

/-- How many of the three slots name the resource. -/
def slots (b : Binding) (x : Resource) : Nat :=
  (if b.ctx.map .context = some x then 1 else 0) +
    (if b.draw.map .surface = some x then 1 else 0) +
    if b.read.map .surface = some x then 1 else 0

end Binding

structure State (τ : Type*) where
  /-- `RefCount` of Mesa's `_EGLResource` -/
  refCount : Resource → Int
  created : Resource → Bool
  /-- Not yet destroyed by the application that created it. -/
  owned : Resource → Bool
  freed : Resource → Bool
  /-- The current binding of each thread. -/
  current : τ → Binding
  /-- `wl_window` of a surface -/
  wlWindow : Nat → Option Nat
  /-- `driver_private` of a wl_egl_window; its two callbacks are set and cleared with it. -/
  driverPrivate : Nat → Option Nat
  /-- The next surface or context. -/
  next : Nat

/-- No thread has anything current. -/
def start {τ : Type*} : State τ :=
  ⟨fun _ => 0, fun _ => false, fun _ => false, fun _ => false, fun _ => .none, fun _ => none,
    fun _ => none, 0⟩

variable {τ : Type*} [DecidableEq τ]

namespace State

/-- `_eglInitSurface` and `_eglInitContext` -/
def init (s : State τ) (x : Resource) : State τ :=
  { s with
    refCount := Function.update s.refCount x 1
    created := Function.update s.created x true
    owned := Function.update s.owned x true
    next := s.next + 1 }

/-- `haiku_create_context` -/
def createContext (s : State τ) : State τ := s.init (.context s.next)

/-- `haiku_create_window_surface` on a wl_egl_window, and the other ways to make a surface. -/
def createSurface (s : State τ) : Option Nat → State τ
  | none => s.init (.surface s.next)
  | some window =>
    if s.driverPrivate window ≠ none then s
    else
      { s.init (.surface s.next) with
        wlWindow := Function.update s.wlWindow s.next (some window)
        driverPrivate := Function.update s.driverPrivate window (some s.next) }

/-- `wayland_window_destroyed`, called by the window that goes. -/
def windowDestroyed (s : State τ) (window : Nat) : State τ :=
  match s.driverPrivate window with
  | none => s
  | some surface =>
    { s with
      wlWindow := Function.update s.wlWindow surface none
      driverPrivate := Function.update s.driverPrivate window none }

/-- `_eglBindContext`, once it has accepted the binding: a reference for each of the three, those
of the previous binding pass to the caller. -/
def bindContext (s : State τ) (t : τ) (new : Binding) : State τ :=
  { s with
    refCount := fun x => s.refCount x + new.slots x
    current := Function.update s.current t new }

/-- `_eglPutSurface` and `_eglPutContext`: the resource has one reference less. -/
def put (s : State τ) (x : Resource) : State τ :=
  { s with refCount := Function.update s.refCount x (s.refCount x - 1) }

/-- The wl_egl_window of the surface may be used for another one. -/
def releaseWindow (s : State τ) (surface : Nat) : State τ :=
  match s.wlWindow surface with
  | none => s
  | some window =>
    if s.driverPrivate window = some surface then
      { s with driverPrivate := Function.update s.driverPrivate window none }
    else s

def free (s : State τ) (x : Resource) : State τ :=
  { s with freed := Function.update s.freed x true }

/-- `haiku_destroy_context` -/
def destroyContext (s : State τ) (id : Nat) : State τ :=
  let s := s.put (.context id)
  if s.refCount (.context id) = 0 then s.free (.context id) else s

/-- `haiku_destroy_surface` -/
def destroySurface (s : State τ) (id : Nat) : State τ :=
  let s := s.put (.surface id)
  if s.refCount (.surface id) = 0 then (s.releaseWindow id).free (.surface id) else s

/-- `destroy` of what is not null. -/
def unlessNull (destroy : State τ → Nat → State τ) (s : State τ) : Option Nat → State τ
  | none => s
  | some id => destroy s id

/-- `haiku_make_current`: `bound` is what `_eglBindContext` returns, `ok` what the state tracker
does, and `undone` what the `_eglBindContext` returns that puts the previous binding back. -/
def makeCurrent (s : State τ) (t : τ) (new : Binding) (bound ok undone : Bool) : State τ :=
  if !bound then s
  else
    let old := s.current t
    let s := s.bindContext t new
    if !ok then
      if undone then s.bindContext t old else s
    else
      let s := s.unlessNull destroyContext old.ctx
      let s := s.unlessNull destroySurface old.draw
      if old.read ≠ old.draw then s.unlessNull destroySurface old.read else s

/-- The application gives its own reference up. -/
def disown (s : State τ) (x : Resource) : State τ :=
  { s with owned := Function.update s.owned x false }

/-- The handles that an application may pass: null, and what it has not destroyed. -/
def admits (s : State τ) (b : Binding) : Bool :=
  b.ctx.all (fun id => s.owned (.context id)) && b.draw.all (fun id => s.owned (.surface id)) &&
    b.read.all fun id => s.owned (.surface id)

/-- The draw slots, read slots and context slots of all bindings that name the resource. -/
def named [Fintype τ] (s : State τ) (x : Resource) : Nat := ∑ t, (s.current t).slots x

end State

inductive Call (τ : Type*) where
  | createContext
  | createSurface (window : Option Nat)
  | windowDestroyed (window : Nat)
  | destroyContext (id : Nat)
  | destroySurface (id : Nat)
  | makeCurrent (t : τ) (new : Binding) (bound ok undone : Bool)

/-- One call, under the lock of the display; a call with a handle that the application may not
pass does nothing. -/
def step (call : Call τ) (s : State τ) : State τ :=
  match call with
  | .createContext => s.createContext
  | .createSurface window => s.createSurface window
  | .windowDestroyed window => s.windowDestroyed window
  | .destroyContext id =>
    if s.owned (.context id) then (s.disown (.context id)).destroyContext id else s
  | .destroySurface id =>
    if s.owned (.surface id) then (s.disown (.surface id)).destroySurface id else s
  | .makeCurrent t new bound ok undone =>
    if s.admits new then s.makeCurrent t new bound ok undone else s

end Egl

end IntelGfx
