import Mathlib.Algebra.BigOperators.Group.Finset.Basic
import IntelGfx.Kernel.RenderClient
import IntelGfx.Theory.Run

/-!
# The activity report

`RenderClient::_GpuActivity` and what it reads: the counters of the contexts, the clients of all
devices and the table `sClients` that they register in. Whether a request gets as far as the
counters is an input, and so is how long the hardware runs a submission. The counters have 64 bits
and a timestamp 32.

`trace` tells, latest first, what the hardware has run for a client and which contexts the client
has destroyed.
-/

namespace IntelGfx

namespace Activity

def kMaxActivityClients : Nat := 16
def kGpuTimestampHz : Nat := 12000000

/-- The counters of a `RenderEngine`; `timestamp` is the one in its context image. -/
structure Counters where
  gpuTicks : Nat
  lastTimestamp : Nat
  timestamp : Nat
  deriving DecidableEq

def Counters.zero : Counters := ⟨0, 0, 0⟩

/-- The end of a `RenderEngine::Submit` that has succeeded, the hardware having run the context for
`duration`: the counters, and what is added to the scheduler's total. -/
def Counters.submit (x : Counters) (duration : Nat) : Counters × Nat :=
  let timestamp := (x.timestamp + duration) % 2 ^ 32
  let elapsed := (timestamp + 2 ^ 32 - x.lastTimestamp) % 2 ^ 32
  (⟨(x.gpuTicks + elapsed) % 2 ^ 64, timestamp, timestamp⟩, elapsed)

/-- The part of `NativeState` that is reported, with what finds it. -/
structure Native where
  contexts : Nat → Option Counters
  ids : Nat → Nat
  nextContext : Nat

def Native.new : Native := ⟨fun _ => none, fun _ => 0, 1⟩

structure Client where
  device : Nat
  team : Int
  native : Option Native
  engines : EngineId → Option Counters
  reportedTicks : Nat
  reportedContexts : Nat

namespace Client

/-- The counters of the contexts of a client. -/
def sum (x : Client) : Nat :=
  (x.native.elim 0 fun n =>
    ∑ i ∈ Finset.range kMaxContexts, (n.contexts i).elim 0 (·.gpuTicks)) +
    ((x.engines .blitter).elim 0 (·.gpuTicks) + (x.engines .render).elim 0 (·.gpuTicks))

/-- `_GpuTicks` -/
def gpuTicks (x : Client) : Nat := x.sum % 2 ^ 64

/-- The native contexts there are. -/
def contexts (x : Client) : Nat :=
  x.native.elim 0 fun n => (List.range kMaxContexts).countP fun i => (n.contexts i).isSome

/-- What a report does with a client whose lock it has. -/
def update (x : Client) : Client :=
  { x with reportedTicks := x.gpuTicks, reportedContexts := x.contexts }

end Client

inductive Event where
  /-- A submission of the client has succeeded, and run for this long. -/
  | ran (client duration : Nat)
  /-- The client has destroyed a context with these ticks. -/
  | destroyed (client ticks : Nat)
  deriving DecidableEq

structure State where
  clients : Nat → Option Client
  nextClient : Nat
  sClients : Nat → Option Nat
  /-- `fTotalGpuTicks` of the schedulers of a device -/
  totalGpuTicks : Nat → EngineId → Nat
  trace : List Event

def start : State := ⟨fun _ => none, 0, fun _ => none, fun _ _ => 0, []⟩

/-- `ActivityClient` -/
structure Entry where
  team : Int
  contexts : Nat
  ticks : Nat
  deriving DecidableEq, Repr

/-- `GpuActivity`; `count` is the length of the list. -/
structure Report where
  timestampHz : Nat
  totalTicks : Nat
  clients : List Entry
  deriving DecidableEq, Repr

namespace State

def setClient (s : State) (c : Nat) (x : Client) : State :=
  { s with clients := Function.update s.clients c (some x) }

/-- The counters of the scheduler of an engine, and the trace, after a submission. -/
def ran (s : State) (c device : Nat) (e : EngineId) (duration elapsed : Nat) : State :=
  { s with
    totalGpuTicks := Function.update s.totalGpuTicks device
      (Function.update (s.totalGpuTicks device) e ((s.totalGpuTicks device e + elapsed) % 2 ^ 64))
    trace := .ran c duration :: s.trace }

/-- The first free place of `sClients`. -/
def freePlace (s : State) : Option Nat :=
  (List.range kMaxActivityClients).find? fun i => (s.sClients i).isNone

/-- `RenderClient::RenderClient`, with the engines it was given. -/
def openClient (device : Nat) (team : Int) (engines : EngineId → Bool) (s : State) : State :=
  let x : Client :=
    ⟨device, team, none, fun e => if engines e then some .zero else none, 0, 0⟩
  { s with
    clients := Function.update s.clients s.nextClient (some x)
    nextClient := s.nextClient + 1
    sClients := match s.freePlace with
      | none => s.sClients
      | some i => Function.update s.sClients i (some s.nextClient) }

/-- Whether some client has the device open. -/
def isOpen (s : State) (device : Nat) : Bool :=
  (List.range s.nextClient).any fun c => (s.clients c).any (·.device = device)

/-- `RenderClient::~RenderClient`; the schedulers of a device go with its last client. -/
def closeClient (c : Nat) (s : State) : State :=
  match s.clients c with
  | none => s
  | some x =>
    let s := { s with
      sClients := fun i => if s.sClients i = some c then none else s.sClients i
      clients := Function.update s.clients c none }
    if s.isOpen x.device then s else
    { s with totalGpuTicks := Function.update s.totalGpuTicks x.device fun _ => 0 }

/-- `kCreateContext`, if there is a native state or `vm` tells that it can be made, if `made` tells
that the context can be, and if `copied` tells that its id reaches the client. -/
def createContext (c : Nat) (vm made copied : Bool) (s : State) : State :=
  match s.clients c with
  | none => s
  | some x =>
    if x.native.isNone && !vm then s else
    let n := x.native.getD .new
    let s := s.setClient c { x with native := some n }
    match (List.range kMaxContexts).find? fun i => (n.contexts i).isNone with
    | none => s
    | some slot =>
      if n.nextContext = 0 ∨ !made then s else
      let id := n.nextContext
      let n := { n with nextContext := (n.nextContext + 1) % 2 ^ 32 }
      if !copied then s.setClient c { x with native := some n } else
      s.setClient c { x with native := some { n with
        contexts := Function.update n.contexts slot (some .zero)
        ids := Function.update n.ids slot id } }

/-- `kDestroyContext` -/
def destroyContext (c context : Nat) (s : State) : State :=
  match s.clients c with
  | none => s
  | some x =>
    match x.native with
    | none => s
    | some n =>
      if context = 0 then s else
      match (List.range kMaxContexts).find? fun i => n.ids i = context with
      | none => s
      | some slot =>
        { s.setClient c { x with native := some { n with
            contexts := Function.update n.contexts slot none
            ids := Function.update n.ids slot 0 } } with
          trace := .destroyed c ((n.contexts slot).elim 0 (·.gpuTicks)) :: s.trace }

/-- `kSubmit` that succeeds. -/
def submit (c : Nat) (e : EngineId) (duration : Nat) (s : State) : State :=
  match s.clients c with
  | none => s
  | some x =>
    match x.engines e with
    | none => s
    | some context =>
      let (context, elapsed) := context.submit duration
      (s.setClient c { x with
        engines := Function.update x.engines e (some context) }).ran c x.device e duration elapsed

/-- `kSubmitObjects` that succeeds. -/
def submitObjects (c context : Nat) (duration : Nat) (s : State) : State :=
  match s.clients c with
  | none => s
  | some x =>
    match x.native with
    | none => s
    | some n =>
      if context = 0 then s else
      match (List.range kMaxContexts).reverse.find? fun i => n.ids i = context with
      | none => s
      | some slot =>
        match n.contexts slot with
        | none => s
        | some y =>
          let (y, elapsed) := y.submit duration
          (s.setClient c { x with native := some { n with
            contexts := Function.update n.contexts slot (some y) } }).ran c x.device .render
              duration elapsed

end State

/-! ## `_GpuActivity` -/

/-- What a client adds to an entry. There are too few contexts for a sum of them to wrap. -/
def Entry.add (e : Entry) (x : Client) : Entry :=
  ⟨e.team, e.contexts + x.reportedContexts, (e.ticks + x.reportedTicks) % 2 ^ 64⟩

/-- A client is added to the entry of its team, or gets one. -/
def accumulate (x : Client) : List Entry → List Entry
  | [] => [Entry.add ⟨x.team, 0, 0⟩ x]
  | e :: entries => if e.team = x.team then e.add x :: entries else e :: accumulate x entries

/-- The loop over the places of `sClients`; `locked` tells which clients can be locked in time. -/
def reportPlaces (locked : Nat → Bool) : List Nat → State → List Entry → List Entry × State
  | [], s, entries => (entries, s)
  | i :: is, s, entries =>
    match s.sClients i with
    | none => reportPlaces locked is s entries
    | some c =>
      match s.clients c with
      | none => reportPlaces locked is s entries
      | some x =>
        let x := if locked c then x.update else x
        reportPlaces locked is (s.setClient c x) (accumulate x entries)

/-- What a report depends on besides the counters: the copies of the request, which engines are
ready, and which clients can be locked. -/
structure Answers where
  read : Bool
  ready : EngineId → Bool
  locked : Nat → Bool
  copied : Bool

/-- `_GpuActivity` -/
def gpuActivity (c : Nat) (answers : Answers) (s : State) : Except Error Report × State :=
  match s.clients c with
  | none => (.error .badValue, s)
  | some x =>
    if !answers.read then (.error .badAddress, s) else
    let engines := [EngineId.blitter, .render].filter fun e =>
      (x.engines e).isSome && answers.ready e
    if engines.isEmpty then (.error .notSupported, s) else
    let totalTicks := (engines.map (s.totalGpuTicks x.device)).sum % 2 ^ 64
    let (entries, s) := reportPlaces answers.locked (List.range kMaxActivityClients) s []
    if !answers.copied then (.error .badAddress, s) else
    (.ok ⟨kGpuTimestampHz, totalTicks, entries⟩, s)

/-! ## Runs -/

/-- What the clients do. The hardware runs a submission for fewer than `2 ^ 32` ticks. -/
inductive Step where
  | open (device : Nat) (team : Int) (engines : EngineId → Bool)
  | close (client : Nat)
  | createContext (client : Nat) (vm made copied : Bool)
  | destroyContext (client context : Nat)
  | submit (client : Nat) (engine : EngineId) (duration : Fin (2 ^ 32))
  | submitObjects (client context : Nat) (duration : Fin (2 ^ 32))
  | report (client : Nat) (answers : Answers)

def step : Step → State → State
  | .open device team engines, s => s.openClient device team engines
  | .close c, s => s.closeClient c
  | .createContext c vm made copied, s => s.createContext c vm made copied
  | .destroyContext c context, s => s.destroyContext c context
  | .submit c e duration, s => s.submit c e duration
  | .submitObjects c context duration, s => s.submitObjects c context duration
  | .report c answers, s => (gpuActivity c answers s).2

end Activity

end IntelGfx
