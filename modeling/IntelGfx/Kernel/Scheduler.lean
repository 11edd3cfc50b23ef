import Mathlib.Logic.Function.Basic
import Mathlib.Tactic.Common
import IntelGfx.Theory.Run

/-!
# Submissions to one engine

`RenderEngine::Submit` as any number of threads run it, on any contexts of one engine, step by
step and next to the hardware. The hardware does what its documentation says: a descriptor that
the submit port has taken makes it run the ring of the context, in which the fence is written
once, and save the context, which it reports once, as an event in the status page that the
engine is pointed at. It may report other things about a context that it runs.
-/

namespace IntelGfx

namespace Scheduler

/-- An entry of the status buffer. -/
structure Entry where
  status : BitVec 32
  id : BitVec 32
  deriving DecidableEq

/-- ACTIVE_IDLE and COMPLETE. -/
def Entry.isSaved (e : Entry) : Prop := e.status &&& (1 <<< 3 ||| 1 <<< 4) = 1 <<< 3 ||| 1 <<< 4

instance (e : Entry) : Decidable e.isSaved := inferInstanceAs (Decidable (_ = _))

/-- What the port has taken, and what the hardware has done about it. -/
structure Submission (τ : Type*) where
  /-- The thread that has made it. -/
  thread : τ
  context : Nat
  seqno : Nat
  /-- The fence is written. -/
  fenced : Bool
  /-- The context is saved, and the context in whose status page the event is. -/
  saved : Option Nat
  deriving DecidableEq

/-- Where a thread is in `Submit`. -/
inductive Place where
  | outside
  /-- It waits for the lock of the scheduler. -/
  | entering (context : Nat)
  /-- It has the lock. -/
  | entered (context : Nat)
  /-- In the wait for the submission before. -/
  | idling (context : Nat)
  /-- At `_Forcewake`. -/
  | waking (context : Nat)
  /-- At the ring. -/
  | filling (context : Nat)
  /-- It clears the status page next. -/
  | clearing (context seqno : Nat)
  /-- It points the engine at the status page next. -/
  | pointing (context seqno : Nat)
  /-- It has made `count` of the four writes to the port. -/
  | porting (context seqno count : Nat)
  /-- In the wait for the fence; the submission is the `n`-th. -/
  | executing (n context seqno : Nat)
  /-- In the wait for the context to be saved. -/
  | saving (n context seqno : Nat)
  /-- The submission has timed out. -/
  | failing (n context : Nat)
  deriving DecidableEq

/-- What `Submit` returns; `B_OK` comes with the sequence number. -/
inductive Status where
  | ok (fence : Nat)
  | devNotReady
  | noMemory
  | timedOut
  deriving DecidableEq

/-- The engine and its contexts, by numbers. -/
structure Engine (τ : Type*) where
  /-- `fScheduler->fFaulted` -/
  schedulerFaulted : Bool
  /-- `fFaulted` -/
  faulted : Nat → Bool
  fNextSeqno : Nat → Nat
  /-- The fence page of a context. -/
  fence : Nat → Nat
  /-- The status buffer of a context. -/
  status : Nat → Fin 6 → Entry
  /-- The context whose status page the engine is pointed at. -/
  hardwareStatusPage : Option Nat
  submissions : List (Submission τ)
  /-- A submission has timed out after its writes to the port. -/
  expired : Bool

structure State (τ : Type*) where
  place : τ → Place
  /-- `fScheduler->fLock` -/
  holder : Option τ
  engine : Engine τ

def Engine.start {τ : Type*} : Engine τ where
  schedulerFaulted := false
  faulted _ := false
  fNextSeqno _ := 1
  fence _ := 0
  status _ _ := ⟨0, 0⟩
  hardwareStatusPage := none
  submissions := []
  expired := false

def start {τ : Type*} : State τ := ⟨fun _ => .outside, none, .start⟩

/-- What the hardware may do about a submission. -/
inductive Hardware where
  /-- The fence is written. -/
  | writeFence (n : Nat)
  /-- The context is saved, and the event says so. -/
  | save (n : Nat) (index : Fin 6) (status : BitVec 32)
  /-- Another event of a context that runs. -/
  | report (n : Nat) (index : Fin 6) (status : BitVec 32)

/-- What a step of a thread depends on besides the state. -/
structure Input where
  /-- The context of a new call. -/
  context : Nat
  /-- The deadline of the wait is over. -/
  late : Bool
  /-- The entry of the status buffer that is looked at. -/
  index : Fin 6

inductive Event (τ : Type*) where
  | software (t : τ) (input : Input)
  | hardware (h : Hardware)

namespace Engine
variable {τ : Type*}

/-- `fNextSeqno++` -/
def number (e : Engine τ) (context : Nat) : Engine τ :=
  { e with fNextSeqno := Function.update e.fNextSeqno context (e.fNextSeqno context + 1) }

/-- `memset` of the status page. -/
def clearStatus (e : Engine τ) (context : Nat) : Engine τ :=
  { e with status := Function.update e.status context (fun _ => (⟨0, 0⟩ : Entry)) }

/-- The write to the register that holds the address of the status page. -/
def point (e : Engine τ) (context : Nat) : Engine τ := { e with hardwareStatusPage := some context }

/-- The port has taken a descriptor. -/
def submit (e : Engine τ) (t : τ) (context seqno : Nat) : Engine τ :=
  let submission : Submission τ := ⟨t, context, seqno, false, none⟩
  { e with submissions := e.submissions ++ [submission] }

/-- A wait is over without what it waits for. -/
def expire (e : Engine τ) : Engine τ := { e with expired := true }

/-- `fFaulted = true` and `fScheduler->fFaulted = true` -/
def fault (e : Engine τ) (context : Nat) : Engine τ :=
  { e with faulted := Function.update e.faulted context true, schedulerFaulted := true }

def writeFence (e : Engine τ) (n : Nat) (submission : Submission τ) : Engine τ :=
  { e with
    fence := Function.update e.fence submission.context submission.seqno
    submissions := e.submissions.set n { submission with fenced := true } }

/-- An event goes to the page that the engine is pointed at. -/
def writeEntry (e : Engine τ) (index : Fin 6) (entry : Entry) : Engine τ :=
  match e.hardwareStatusPage with
  | none => e
  | some page =>
    let entries := Function.update (e.status page) index entry
    { e with status := Function.update e.status page entries }

def save (e : Engine τ) (n : Nat) (submission : Submission τ) (index : Fin 6) (entry : Entry) :
    Engine τ :=
  { e.writeEntry index entry with
    submissions := e.submissions.set n { submission with saved := e.hardwareStatusPage } }

/-- What the hardware does next; `id` is its name of a context, by the address of its image. -/
def hardware (id : Nat → BitVec 32) (e : Engine τ) : Hardware → Engine τ
  | .writeFence n =>
    match e.submissions[n]? with
    | none => e
    | some submission => if submission.fenced then e else e.writeFence n submission
  | .save n index status =>
    match e.submissions[n]? with
    | none => e
    | some submission =>
      let entry : Entry := ⟨status, id submission.context⟩
      if submission.saved = none ∧ entry.isSaved then e.save n submission index entry else e
  | .report n index status =>
    match e.submissions[n]? with
    | none => e
    | some submission =>
      let entry : Entry := ⟨status, id submission.context⟩
      if submission.saved = none ∧ ¬ entry.isSaved then e.writeEntry index entry else e

end Engine

variable {τ : Type*} [DecidableEq τ]

namespace State

def move (s : State τ) (t : τ) (place : Place) : State τ :=
  { s with place := Function.update s.place t place }

/-- The return of `Submit`, which gives the lock back. -/
def leave (s : State τ) (t : τ) : State τ := { s.move t .outside with holder := none }

/-- A descriptor is complete with the fourth write. -/
def port (s : State τ) (t : τ) (context seqno count : Nat) : State τ :=
  if count < 3 then s.move t (.porting context seqno (count + 1))
  else { s with engine := s.engine.submit t context seqno }.move t
    (.executing s.engine.submissions.length context seqno)

/-- One step of the thread in `Submit`, from where it is, and what `Submit` returns if it does. -/
def run (id : Nat → BitVec 32) (s : State τ) (t : τ) (input : Input) :
    Place → Option Status × State τ
  | .outside => (none, s.move t (.entering input.context))
  | .entering context =>
    if s.holder = none then (none, { s.move t (.entered context) with holder := some t })
    else (none, s)
  | .entered context =>
    if s.engine.schedulerFaulted || s.engine.faulted context then (some .devNotReady, s.leave t)
    else if 0x7fffffff ≤ s.engine.fNextSeqno context then (some .noMemory, s.leave t)
    else if 1 < s.engine.fNextSeqno context then (none, s.move t (.idling context))
    else (none, s.move t (.waking context))
  | .idling context =>
    if s.engine.fNextSeqno context - 1 ≤ s.engine.fence context then
      (none, s.move t (.waking context))
    else if input.late then (some .timedOut, s.leave t)
    else (none, s)
  | .waking context =>
    if input.late then (some .timedOut, s.leave t) else (none, s.move t (.filling context))
  | .filling context =>
    (none, { s with engine := s.engine.number context }.move t
      (.clearing context (s.engine.fNextSeqno context)))
  | .clearing context seqno =>
    (none, { s with engine := s.engine.clearStatus context }.move t (.pointing context seqno))
  | .pointing context seqno =>
    (none, { s with engine := s.engine.point context }.move t (.porting context seqno 0))
  | .porting context seqno count => (none, s.port t context seqno count)
  | .executing n context seqno =>
    if seqno ≤ s.engine.fence context then (none, s.move t (.saving n context seqno))
    else if input.late then
      (none, { s with engine := s.engine.expire }.move t (.failing n context))
    else (none, s)
  | .saving n context seqno =>
    let entry := s.engine.status context input.index
    if entry.isSaved ∧ entry.id = id context then (some (.ok seqno), s.leave t)
    else if input.late then
      (none, { s with engine := s.engine.expire }.move t (.failing n context))
    else (none, s)
  | .failing _ context => (some .timedOut, { s with engine := s.engine.fault context }.leave t)

/-- One step, and what a call of `Submit` returns if it does. -/
def next (id : Nat → BitVec 32) (s : State τ) : Event τ → Option Status × State τ
  | .software t input => s.run id t input (s.place t)
  | .hardware h => (none, { s with engine := s.engine.hardware id h })

end State

def step (id : Nat → BitVec 32) (event : Event τ) (s : State τ) : State τ := (s.next id event).2

end Scheduler

end IntelGfx
