import Mathlib.Tactic.Common
import Mathlib.Algebra.Group.Nat.Defs
import IntelGfx.Theory.Run

/-!
# Sync objects of the winsys

The `syncs` map of `IntelWinsys.cpp`. A call of `intel_haiku_ioctl` holds the lock from its entry
to its return but for `wait_syncs`, which gives it up while it blocks; so a step is a call up to
its return or to the first wait that blocks, or a wake of a thread that waits. What the map has
nothing to do with is an input: whether the time has run out, whether the buffers of an
execbuffer are in order and whether the driver takes the submission.
-/

namespace IntelGfx

namespace SyncObjects

structure Sync where
  fd : Int
  signaled : Bool
  deriving DecidableEq

/-- `Sync()`, the value `operator[]` puts in for a key that is not there. -/
def Sync.zero : Sync := ⟨0, false⟩

inductive Errno where
  | EINVAL
  | ENOMEM
  | ETIME
  /-- Left by the call of the driver that failed. -/
  | driver
  deriving DecidableEq

inductive Result where
  | ok
  /-- `drm_syncobj_create::handle` -/
  | handle (handle : Nat)
  /-- `drm_syncobj_wait::first_signaled` -/
  | first (index : Nat)
  | fail (error : Errno)
  /-- The thread waits for `changed`. -/
  | blocked
  deriving DecidableEq

/-- `drm_i915_gem_exec_fence`, with the two bits of its flags. -/
structure Fence where
  handle : Nat
  wait : Bool
  signal : Bool
  deriving DecidableEq

/-- Where a thread is. -/
inductive Place where
  | outside
  /-- In `wait_syncs`, called by `DRM_IOCTL_SYNCOBJ_WAIT`. -/
  | waiting (fd : Int) (handles : List Nat) (waitAll : Bool)
  /-- In `wait_syncs`, called for the fence `index` of an execbuffer. -/
  | executing (fd : Int) (fences : List Fence) (index : Nat)
  deriving DecidableEq

structure State (τ : Type*) where
  syncs : Nat → Option Sync
  nextSync : Nat
  place : τ → Place

def start {τ : Type*} : State τ := ⟨fun _ => none, 1, fun _ => .outside⟩

/-- What the loop over the fence array comes to. -/
inductive Checked where
  | passed
  | failed (error : Errno)
  | blockedAt (index : Nat)
  deriving DecidableEq

/-- What follows a wait for the fence `index`, if it is over. -/
def Checked.afterWait (result : Result) (index : Nat) (rest : Checked) : Checked :=
  match result with
  | .fail error => .failed error
  | .blocked => .blockedAt index
  | _ => rest

variable {τ : Type*} [DecidableEq τ]

namespace State

/-- `syncs.find`, with the test of the descriptor that follows it everywhere. -/
def find (s : State τ) (fd : Int) (handle : Nat) : Option Sync :=
  (s.syncs handle).filter (·.fd = fd)

/-- `syncs[handle].signaled = signaled` -/
def setSignaled (signaled : Bool) (s : State τ) (handle : Nat) : State τ :=
  let sync := (s.syncs handle).getD .zero
  { s with syncs := Function.update s.syncs handle (some { sync with signaled }) }

def move (s : State τ) (t : τ) (place : Place) : State τ :=
  { s with place := Function.update s.place t place }

/-- The inner loop of `wait_syncs` from `index` on; `all` as so far. -/
def scan (s : State τ) (fd : Int) (waitAll expired : Bool) : List Nat → Nat → Bool → Result
  | [], _, all => if all then .ok else if expired then .fail .ETIME else .blocked
  | handle :: handles, index, all =>
    match s.find fd handle with
    | none => .fail .EINVAL
    | some sync =>
      if sync.signaled && !waitAll then .first index
      else s.scan fd waitAll expired handles (index + 1) (all && sync.signaled)

/-- `wait_syncs`, up to its return or to the wait for `changed`. -/
def waitSyncs (s : State τ) (fd : Int) (handles : List Nat) (waitAll expired : Bool) : Result :=
  if handles = [] then .fail .EINVAL else s.scan fd waitAll expired handles 0 true

/-- The loop over the fence array from `index` on. -/
def checkFences (s : State τ) (fd : Int) (expired : Bool) : List Fence → Nat → Checked
  | [], _ => .passed
  | fence :: fences, index =>
    match s.find fd fence.handle with
    | none => .failed .EINVAL
    | some _ =>
      let rest := s.checkFences fd expired fences (index + 1)
      if fence.wait then
        Checked.afterWait (s.waitSyncs fd [fence.handle] false expired) index rest
      else rest

/-- The end of an execbuffer: the buffers, the submission, and the signals. -/
def submit (s : State τ) (t : τ) (fences : List Fence) (buffers : Except Errno Unit) :
    Result × State τ :=
  match buffers with
  | .error error => (.fail error, s.move t .outside)
  | .ok () =>
    (.ok, (((fences.filter (·.signal)).map (·.handle)).foldl (setSignaled true) s).move t .outside)

/-- What an execbuffer does with what came of its fences. -/
def afterFences (s : State τ) (t : τ) (fd : Int) (fences : List Fence)
    (buffers : Except Errno Unit) : Checked → Result × State τ
  | .passed => s.submit t fences buffers
  | .failed error => (.fail error, s.move t .outside)
  | .blockedAt index => (.blocked, s.move t (.executing fd fences index))

/-- What a wait does with what came of it. -/
def afterWait (s : State τ) (t : τ) (place : Place) (result : Result) : Result × State τ :=
  (result, s.move t (if result = .blocked then place else .outside))

/-- `DRM_IOCTL_SYNCOBJ_CREATE` -/
def create (s : State τ) (fd : Int) (signaled : Bool) : Result × State τ :=
  if s.nextSync = 0 then (.fail .ENOMEM, s)
  else (.handle s.nextSync, { s with
    syncs := Function.update s.syncs s.nextSync (some ⟨fd, signaled⟩)
    nextSync := (s.nextSync + 1) % 2 ^ 32 })

/-- `DRM_IOCTL_SYNCOBJ_DESTROY` -/
def destroy (s : State τ) (fd : Int) (handle : Nat) : Result × State τ :=
  match s.find fd handle with
  | none => (.fail .EINVAL, s)
  | some _ => (.ok, { s with syncs := Function.update s.syncs handle none })

/-- `DRM_IOCTL_SYNCOBJ_SIGNAL` and `DRM_IOCTL_SYNCOBJ_RESET` -/
def signal (s : State τ) (fd : Int) (handles : List Nat) (signaled : Bool) : Result × State τ :=
  if handles = [] then (.fail .EINVAL, s)
  else if handles.any fun handle => (s.find fd handle).isNone then (.fail .EINVAL, s)
  else (.ok, handles.foldl (setSignaled signaled) s)

/-- `DRM_IOCTL_I915_GEM_EXECBUFFER2`: `valid` is the test of the count, the ring and the pointers,
and without a fence array there are no fences. -/
def execbuffer (s : State τ) (t : τ) (fd : Int) (valid : Bool) (fences : List Fence)
    (expired : Bool) (buffers : Except Errno Unit) : Result × State τ :=
  if !valid then (.fail .EINVAL, s)
  else s.afterFences t fd fences buffers (s.checkFences fd expired fences 0)

/-- The thread has the lock again, after a notification, in time or out of it, or for nothing. -/
def wake (s : State τ) (t : τ) (expired : Bool) (buffers : Except Errno Unit) :
    Result × State τ :=
  match s.place t with
  | .outside => (.ok, s)
  | .waiting fd handles waitAll =>
    s.afterWait t (.waiting fd handles waitAll) (s.waitSyncs fd handles waitAll expired)
  | .executing fd fences index =>
    s.afterFences t fd fences buffers
      (Checked.afterWait
        (s.waitSyncs fd ((fences[index]?).map (·.handle)).toList false expired) index
        (s.checkFences fd expired (fences.drop (index + 1)) (index + 1)))

end State

inductive Event (τ : Type*) where
  | create (fd : Int) (signaled : Bool)
  | destroy (fd : Int) (handle : Nat)
  | signal (fd : Int) (handles : List Nat) (signaled : Bool)
  | wait (t : τ) (fd : Int) (handles : List Nat) (waitAll expired : Bool)
  | execbuffer (t : τ) (fd : Int) (valid : Bool) (fences : List Fence) (expired : Bool)
      (buffers : Except Errno Unit)
  | wake (t : τ) (expired : Bool) (buffers : Except Errno Unit)

/-- One step. A thread that waits makes no other call. -/
def State.step (s : State τ) : Event τ → Result × State τ
  | .create fd signaled => s.create fd signaled
  | .destroy fd handle => s.destroy fd handle
  | .signal fd handles signaled => s.signal fd handles signaled
  | .wait t fd handles waitAll expired =>
    if s.place t ≠ .outside then (.ok, s)
    else s.afterWait t (.waiting fd handles waitAll) (s.waitSyncs fd handles waitAll expired)
  | .execbuffer t fd valid fences expired buffers =>
    if s.place t ≠ .outside then (.ok, s) else s.execbuffer t fd valid fences expired buffers
  | .wake t expired buffers => s.wake t expired buffers

/-- The handles that create has returned and destroy has not yet taken, with the descriptor of the
create: what the callers may count on. -/
abbrev Ledger := Nat → Option Int

/-- What a call and its result tell the callers. -/
def Ledger.after (ledger : Ledger) : Event τ → Result → Ledger
  | .create fd _, .handle handle => Function.update ledger handle (some fd)
  | .destroy _ handle, .ok => Function.update ledger handle none
  | _, _ => ledger

/-- The winsys next to what its callers know of it. -/
structure System (τ : Type*) where
  state : State τ
  ledger : Ledger

namespace System

def start {τ : Type*} : System τ := ⟨SyncObjects.start, fun _ => none⟩

def step (event : Event τ) (s : System τ) : System τ :=
  ⟨(s.state.step event).2, s.ledger.after event (s.state.step event).1⟩

end System

end SyncObjects

end IntelGfx
