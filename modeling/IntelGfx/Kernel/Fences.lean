import IntelGfx.Kernel.Memory
import IntelGfx.Kernel.Scheduler

/-!
# The fences of a client

`kSubmit`, `kSubmitObjects` and `kWaitFence` of one client, next to everything that the other
clients do on the two engines. A submission goes through `Submit` step by step and holds the lock
of the client until it returns; `kWaitFence` takes the lock, too.
-/

namespace IntelGfx

namespace Fences

/-- The contexts of a client, by their numbers on the engines. -/
structure Client where
  /-- `fEngines` -/
  fEngines : EngineId → Option Nat
  /-- Of the render engine: `fNative->contexts`, those to come and those that are gone, too. -/
  contexts : Nat → Bool
  apart : ∀ context, fEngines .render = some context → contexts context = false

/-- A context that no other client submits to. -/
def Client.has (c : Client) (engine : EngineId) (context : Nat) : Prop :=
  c.fEngines engine = some context ∨ engine = .render ∧ c.contexts context

instance (c : Client) (engine : EngineId) (context : Nat) : Decidable (c.has engine context) :=
  inferInstanceAs (Decidable (_ ∨ _))

structure State (τ : Type*) where
  engine : EngineId → Scheduler.State τ
  /-- Who holds the lock of the client in a submission, and to which context. -/
  fLock : Option (τ × EngineId × Nat)
  /-- `fNative->faulted` -/
  faulted : Bool
  /-- What `Submit` has returned for the client's context of an engine. -/
  issued : EngineId → List Nat

def start {τ : Type*} : State τ := ⟨fun _ => Scheduler.start, none, false, fun _ => []⟩

inductive Event (τ : Type*) where
  /-- A thread calls `Submit` in `kSubmit`. -/
  | submit (t : τ) (engine : EngineId)
  /-- A thread calls `Submit` in `kSubmitObjects`. -/
  | submitObjects (t : τ) (context : Nat)
  /-- A thread of the client or of others takes a step. -/
  | software (engine : EngineId) (t : τ) (input : Scheduler.Input)
  | hardware (engine : EngineId) (h : Scheduler.Hardware)

/-- What `kWaitFence` does about a fence. -/
inductive Wait where
  | ok
  /-- It waits for the hardware. -/
  | waits
  | badValue
  | notSupported
  | devNotReady
  deriving DecidableEq

/-- `IsReady`, of a context that is initialised. -/
def isReady {τ : Type*} (e : Scheduler.Engine τ) (context : Nat) : Bool :=
  !e.faulted context && !e.schedulerFaulted

/-- `RenderEngine::Wait`. -/
def wait {τ : Type*} (e : Scheduler.Engine τ) (context fence timeout : Nat) : Wait :=
  if fence = 0 ∨ e.fNextSeqno context ≤ fence ∨ 10000000 < timeout then .badValue
  else if fence ≤ e.fence context then .ok
  else .waits

/-- The engine that the flags, or the upper half of a fence, select. -/
def selected (flags : Nat) : EngineId := if flags % 2 = 1 then .render else .blitter

/-- The flag that selects the engine: `kUseRenderEngine` or not. -/
def flag : EngineId → Nat
  | .blitter => 0
  | .render => 1

/-- `fence | ((uint64)(request.flags & kUseRenderEngine) << 32)` -/
def compose (engine : EngineId) (fence : Nat) : Nat := fence ||| flag engine <<< 32

namespace State
variable {τ : Type*}

/-- `_Engine`. -/
def find (c : Client) (s : State τ) (engine : EngineId) : Option Nat :=
  (c.fEngines engine).filter (isReady (s.engine engine).engine)

/-- `kWaitFence`, after the request has been read. -/
def waitFence (c : Client) (s : State τ) (fence timeout : Nat) : Wait :=
  if s.faulted then .devNotReady else
  if 1 < fence / 2 ^ 32 then .badValue else
  match s.find c (selected (fence / 2 ^ 32)) with
  | none => .notSupported
  | some context =>
    if 10000000 < timeout then .badValue else
    wait (s.engine (selected (fence / 2 ^ 32))).engine context (fence % 2 ^ 32) timeout

variable [DecidableEq τ]

def setEngine (s : State τ) (engine : EngineId) (e : Scheduler.State τ) : State τ :=
  { s with engine := Function.update s.engine engine e }

/-- A thread that has nothing else to do takes the lock of the client and calls `Submit`. -/
def call (s : State τ) (t : τ) (engine : EngineId) (context : Nat) : State τ :=
  if s.fLock = none ∧ (s.engine .blitter).place t = .outside ∧
      (s.engine .render).place t = .outside then
    { s.setEngine engine ((s.engine engine).move t (.entering context)) with
      fLock := some (t, engine, context) }
  else s

/-- `Submit` returns to `kSubmit` or to `kSubmitObjects`. -/
def returned (c : Client) (s : State τ) (engine : EngineId) (context : Nat) :
    Scheduler.Status → State τ
  | .ok fence =>
    if c.fEngines engine = some context then
      { s with
        fLock := none
        issued := Function.update s.issued engine (s.issued engine ++ [fence]) }
    else { s with fLock := none }
  | _ =>
    if c.fEngines engine = some context then { s with fLock := none }
    else { s with fLock := none, faulted := (s.engine engine).engine.faulted context }

/-- A step of the thread that holds the lock of the client. -/
def own (c : Client) (id : Nat → BitVec 32) (s : State τ) (t : τ) (engine : EngineId)
    (context : Nat) (input : Scheduler.Input) : State τ :=
  match (s.engine engine).next id (.software t input) with
  | (none, e) => s.setEngine engine e
  | (some status, e) => (s.setEngine engine e).returned c engine context status

/-- A step of any other thread. -/
def foreign (c : Client) (id : Nat → BitVec 32) (s : State τ) (t : τ) (engine : EngineId)
    (input : Scheduler.Input) : State τ :=
  if (s.engine engine).place t = .outside ∧ c.has engine input.context then s
  else s.setEngine engine ((s.engine engine).next id (.software t input)).2

end State

def step {τ : Type*} [DecidableEq τ] (c : Client) (id : Nat → BitVec 32) (event : Event τ)
    (s : State τ) : State τ :=
  match event with
  | .submit t engine =>
    if s.faulted then s else
    match s.find c engine with
    | none => s
    | some context => s.call t engine context
  | .submitObjects t context =>
    if s.faulted || !c.contexts context then s else s.call t .render context
  | .software engine t input =>
    match s.fLock with
    | none => s.foreign c id t engine input
    | some (u, engine', context) =>
      if t ≠ u then s.foreign c id t engine input
      else if engine = engine' then s.own c id t engine context input
      else s
  | .hardware engine h =>
    s.setEngine engine ((s.engine engine).next id (.hardware h)).2

end Fences

end IntelGfx
