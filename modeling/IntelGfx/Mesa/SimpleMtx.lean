import Mathlib.Tactic.Common
import IntelGfx.Theory.Run

/-!
# The Haiku simple_mtx

The lock that the Mesa patch puts in `util/simple_mtx.h`: a compare and exchange on the word, and
`_kern_mutex_lock` when it fails. Each atomic access of a thread is a step of its own. The kernel
is what its contract says: a thread it has taken in it either gives the mutex to, when the mutex is
free, or sends back with an error, and it sets and clears the waiting bit as it likes.
-/

namespace IntelGfx

namespace SimpleMtx

def B_USER_MUTEX_LOCKED : BitVec 32 := 0x01
def B_USER_MUTEX_WAITING : BitVec 32 := 0x02

/-- Where a thread is. -/
inductive Place where
  /-- Not in the code of the lock. -/
  | outside
  /-- In `_kern_mutex_lock`. -/
  | locking
  /-- Between a returned `simple_mtx_lock` and its `simple_mtx_unlock`. -/
  | inside
  /-- In `_kern_mutex_unblock`. -/
  | unblocking
  deriving DecidableEq

structure State (τ : Type*) where
  val : BitVec 32
  place : τ → Place

/-- A mutex that has only been zeroed. -/
def start {τ : Type*} : State τ := ⟨0, fun _ => .outside⟩

inductive Event (τ : Type*) where
  /-- The compare and exchange of `simple_mtx_lock`. -/
  | lock (t : τ)
  /-- `_kern_mutex_lock` acquires the mutex for `t` and returns `B_OK`. -/
  | acquire (t : τ)
  /-- `_kern_mutex_lock` returns an error, such as `B_INTERRUPTED`. -/
  | interrupt (t : τ)
  /-- The kernel sets or clears the waiting bit. -/
  | mark (waiting : Bool)
  /-- The fetch and and of `simple_mtx_unlock`. -/
  | unlock (t : τ)
  /-- `_kern_mutex_unblock` returns. -/
  | unblocked (t : τ)

variable {τ : Type*} [DecidableEq τ]

namespace State

def move (s : State τ) (t : τ) (place : Place) : State τ :=
  { s with place := Function.update s.place t place }

def isLocked (s : State τ) : Prop := s.val &&& B_USER_MUTEX_LOCKED ≠ 0

instance (s : State τ) : Decidable s.isLocked := inferInstanceAs (Decidable (_ ≠ _))

/-- `simple_mtx_lock`, up to the call of the kernel. -/
def lock (s : State τ) (t : τ) : State τ :=
  if s.val = 0 then { s with val := B_USER_MUTEX_LOCKED }.move t .inside
  else s.move t .locking

/-- The kernel gives the free mutex to a thread that is in `_kern_mutex_lock`. -/
def acquire (s : State τ) (t : τ) : State τ :=
  if s.isLocked then s else { s with val := s.val ||| B_USER_MUTEX_LOCKED }.move t .inside

/-- `simple_mtx_lock` drops what `_kern_mutex_lock` returns. -/
def interrupt (s : State τ) (t : τ) : State τ := s.move t .inside

def mark (s : State τ) (waiting : Bool) : State τ :=
  if waiting then { s with val := s.val ||| B_USER_MUTEX_WAITING }
  else { s with val := s.val &&& ~~~B_USER_MUTEX_WAITING }

/-- `simple_mtx_unlock`, up to the call of the kernel. -/
def unlock (s : State τ) (t : τ) : State τ :=
  { s with val := s.val &&& ~~~B_USER_MUTEX_LOCKED }.move t
    (if s.val &&& B_USER_MUTEX_WAITING ≠ 0 then .unblocking else .outside)

end State

/-- One atomic step; an event of a thread that is elsewhere does nothing. -/
def step (e : Event τ) (s : State τ) : State τ :=
  match e with
  | .lock t => if s.place t = .outside then s.lock t else s
  | .acquire t => if s.place t = .locking then s.acquire t else s
  | .interrupt t => if s.place t = .locking then s.interrupt t else s
  | .mark waiting => s.mark waiting
  | .unlock t => if s.place t = .inside then s.unlock t else s
  | .unblocked t => if s.place t = .unblocking then s.move t .outside else s

/-- At most one thread is between a returned `simple_mtx_lock` and its `simple_mtx_unlock`. -/
def Exclusive (s : State τ) : Prop :=
  ∀ t u, s.place t = .inside → s.place u = .inside → t = u

end SimpleMtx

end IntelGfx
