import Mathlib.Logic.Function.Basic
import IntelGfx.Kernel.Forcewake
import IntelGfx.Theory.Run

/-!
# Forcewake next to other threads

The clients of a device call `Submit` and `Status` on their contexts under the lock of the
scheduler, and have new contexts made by `InitClient`, from `kCreateContext` and `device_open`,
under none of these locks. Any number of threads take turns, and a turn is one write to a register.
What a call reads depends on the hardware and on the others, so it comes with a `Gpu` of its own.
The masters are initialised before there is a client.
-/

namespace IntelGfx

namespace Awake

inductive Call where
  | submit (batchAddress batchLength : Nat)
  | status
  | initClient (supported : Bool) (made : Except Error Unit) (scheduler : EngineState)

/-- A call on a context, and what it is going to find in the registers. -/
structure Job where
  call : Call
  context : EngineState
  gpu : Gpu

namespace Job

def isInit (job : Job) : Bool :=
  match job.call with
  | .initClient .. => true
  | _ => false

/-- The engine of the scheduler. -/
def engine (job : Job) : EngineId :=
  match job.call with
  | .initClient _ _ scheduler => scheduler.engine
  | _ => job.context.engine

/-- The call gets as far as `fScheduler->fLock`. -/
def locks (job : Job) : Bool :=
  match job.call with
  | .submit batchAddress batchLength =>
    job.context.ready && !(batchLength == 0 || batchAddress % 4 != 0)
  | .status => job.context.ready
  | .initClient .. => false

/-- What the call writes, the first first. -/
def writes (job : Job) : List (Nat × DWord) :=
  let bus : Bus := ⟨[], 0, 0⟩
  let bus := match job.call with
    | .submit batchAddress batchLength =>
      (job.context.submit job.gpu batchAddress batchLength bus).2.2
    | .status => (job.context.status job.gpu bus).2
    | .initClient supported made scheduler =>
      (job.context.initClient job.gpu supported made scheduler bus).2.2
  bus.writes.reverse

/-- The first `_Forcewake(true)` of the call succeeds. -/
def wakes (job : Job) : Bool := (job.context.forcewake job.gpu true ⟨[], 0, 0⟩).1.isOk

end Job

/-- Where a thread is. -/
inductive Place where
  | outside
  /-- It waits for the lock of the scheduler. -/
  | entering (job : Job)
  /-- It has the lock if the call takes it, and `rest` to write; `asked` tells whether it has made
  its first write, the one of `_Forcewake(true)`. -/
  | inside (job : Job) (asked : Bool) (rest : List (Nat × DWord))

structure State (τ : Type*) where
  place : τ → Place
  /-- `fLock` of the masters. -/
  holder : EngineId → Option τ
  bus : Bus

def start {τ : Type*} (bus : Bus) : State τ := ⟨fun _ => .outside, fun _ => none, bus⟩

inductive Event (τ : Type*) where
  | call (t : τ) (job : Job)
  | go (t : τ)

variable {τ : Type*} [DecidableEq τ]

namespace State

def move (s : State τ) (t : τ) (place : Place) : State τ :=
  { s with place := Function.update s.place t place }

def setHolder (s : State τ) (e : EngineId) (t : Option τ) : State τ :=
  { s with holder := Function.update s.holder e t }

def call (s : State τ) (t : τ) (job : Job) : State τ :=
  match s.place t with
  | .outside => s.move t (if job.locks then .entering job else .inside job false job.writes)
  | _ => s

/-- A thread takes the lock, makes its next write, or returns. -/
def go (s : State τ) (t : τ) : State τ :=
  match s.place t with
  | .outside => s
  | .entering job =>
    if s.holder job.engine = none then
      (s.setHolder job.engine (some t)).move t (.inside job false job.writes)
    else s
  | .inside job _ (w :: rest) =>
    { s with bus := s.bus.write w.1 w.2 }.move t (.inside job true rest)
  | .inside job _ [] => (if job.locks then s.setHolder job.engine none else s).move t .outside

end State

def step (event : Event τ) (s : State τ) : State τ :=
  match event with
  | .call t job => s.call t job
  | .go t => s.go t

end Awake

end IntelGfx
