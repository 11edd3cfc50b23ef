import IntelGfx.Kernel.Memory

/-!
# Engines and contexts

`kernel/RenderEngine.cpp`: a logical ring context, with its buffer objects and its page tables,
and the scheduler it shares with the other contexts of its engine. What a context writes into its
ring and into the registers is left out; the hardware is there as the polls that wait for it, any
of which may run out of time, and as what `Status` finds in the registers and in memory.
-/

namespace IntelGfx

def kRingSize : Nat := 16 * 1024

namespace Hardware

def kRingTail : Nat := 0x30
def kRingHead : Nat := 0x34
def kRingStart : Nat := 0x38
def kRingControl : Nat := 0x3c
def kRingHardwareStatusPage : Nat := 0x80
def kRingActiveHead : Nat := 0x74
def kRingInstructionHeader : Nat := 0x68
def kRingErrorIdentity : Nat := 0xb0
def kRingMiMode : Nat := 0x9c
def kRingExeclistStatus : Nat := 0x234
def kRingMode : Nat := 0x29c
def kRingContextStatusPointer : Nat := 0x3a0

def kGtInterruptStatus0 : Nat := 0x44300

def kStatusBufferIndex : Nat := 0x10

end Hardware

namespace StateLayout

def kStateContextControl : Nat := 0x02 + 1
def kStateRingHead : Nat := 0x04 + 1
def kStateRingTail : Nat := 0x06 + 1
def kStateRingStart : Nat := 0x08 + 1
def kStateRingControl : Nat := 0x0a + 1

end StateLayout

open Hardware StateLayout

namespace EngineId

/-- `EngineDescriptor::base`. -/
def base : EngineId → Nat
  | blitter => 0x22000
  | render => 0x02000

/-- The registers that `Status` reads, in its order. -/
def statusRegisters (engine : EngineId) : List Nat :=
  [kRingHead, kRingTail, kRingStart, kRingControl, kRingActiveHead, kRingInstructionHeader,
    kRingErrorIdentity, kRingMiMode, kRingMode, kRingExeclistStatus, kRingExeclistStatus + 4,
    kRingContextStatusPointer].map (engine.base + ·) ++
  [kGtInterruptStatus0, engine.base + kRingHardwareStatusPage]

/-- `EngineDescriptor::contextSize`. -/
def contextSize : EngineId → Nat
  | blitter => 4 * 4096
  | render => 24 * 4096

/-- `EngineDescriptor::usesPipeControl`. -/
def usesPipeControl : EngineId → Bool
  | blitter => false
  | render => true

end EngineId

/-- A context; `addressSpace` names the page tables it runs against. -/
structure RenderEngine where
  id : ContextId
  engine : EngineId
  addressSpace : Owner
  ready : Bool
  faulted : Bool
  nextSeqno : Nat
  deriving DecidableEq, Repr

/-- What `Status` reports, in its order. What it finds when it compares the register image with the
copy from before the last submission is left out. -/
structure EngineStatus where
  registers : List Nat
  image : List Nat
  ringFirstDword : Nat
  fence : Nat
  submitted : Nat
  statusBuffer : List Nat
  deriving DecidableEq, Repr

/-- The contexts that are the schedulers of the two engines, as far as these came up. -/
abbrev Masters := EngineId → Option RenderEngine

namespace RenderEngine

/-- `RenderEngine::RenderEngine`. -/
def new (id : ContextId) (engine : EngineId) (addressSpace : Owner) : RenderEngine where
  id := id
  engine := engine
  addressSpace := addressSpace
  ready := false
  faulted := false
  nextSeqno := 1

def isFaulted (e : RenderEngine) : Bool := e.faulted

/-- `fScheduler->fFaulted`. A scheduler outlives the contexts that use it. -/
def schedulerFaulted (e : RenderEngine) (masters : Masters) : Bool :=
  (masters e.engine).any (·.faulted)

def isReady (e : RenderEngine) (masters : Masters) : Bool :=
  e.ready && !e.faulted && !e.schedulerFaulted masters

/-- The table `objects` of `Init`. -/
def objects (engine : EngineId) : List (Part × Nat) :=
  [(.statusPage, 4096), (.fencePage, 4096), (.context, engine.contextSize), (.ring, kRingSize)]

/-- The loop of `Init` over the buffer objects. -/
def initObjects (ω : Oracle) (id : ContextId) : List (Part × Nat) → Memory →
    Except Error Unit × Memory
  | [], m => (.ok (), m)
  | (part, size) :: objects, m =>
    match m.newObject ω (.part id part) size with
    | (.error e, m) => (.error e, m)
    | (.ok (), m) =>
      match m.bindObject ω (.part id part) with
      | (.error e, m) => (.error e, m)
      | (.ok (), m) =>
        if 0xffffffff < m.graphicsAddress (.part id part) then (.error .noMemory, m)
        else initObjects ω id objects m

/-- `_Forcewake(true)`, and `_Forcewake(false)` after it if the engine does not wake up. -/
def wake (ω : Oracle) (m : Memory) : Except Error Unit × Memory :=
  match m.poll ω with
  | (true, m) => (.ok (), m)
  | (false, m) => (.error .timedOut, (m.poll ω).2)

/-- `_ReadTopology` and `_RequestMaximumFrequency`, which take the other domain and carry on
without it. -/
def bringUp (ω : Oracle) (m : Memory) : Memory :=
  let once (m : Memory) : Memory := ((m.poll ω).2.poll ω).2
  once (once m)

/-- The page tables the context is to run against: its own, which are made now, or a native state's,
which are there. -/
def initAddressSpace (ω : Oracle) (e : RenderEngine) (m : Memory) : Except Error Unit × Memory :=
  if (m.tables e.addressSpace).any (·.isValid) then (.ok (), m) else m.newTables ω e.addressSpace

/-- The context image of an engine with pipe control is made while it is awake. -/
def initContext (ω : Oracle) (e : RenderEngine) (m : Memory) : Except Error Unit × Memory :=
  if e.engine.usesPipeControl then
    match wake ω m with
    | (.error s, m) => (.error s, m)
    | (.ok (), m) => (.ok (), (m.poll ω).2)
  else (.ok (), m)

/-- `Init`. A master has no scheduler but itself, and every context but a native one has page tables
of its own. -/
def init (ω : Oracle) (e : RenderEngine) (m : Memory) : Except Error Unit × RenderEngine × Memory :=
  if e.ready then (.error .busy, e, m) else
  if !m.gtt.isValid then (.error .notSupported, e, m) else
  match initObjects ω e.id (objects e.engine) m with
  | (.error s, m) => (.error s, e, m)
  | (.ok (), m) =>
    match e.initAddressSpace ω m with
    | (.error s, m) => (.error s, e, m)
    | (.ok (), m) =>
      match e.initContext ω m with
      | (.error s, m) => (.error s, e, m)
      | (.ok (), m) =>
        if e.id ≠ .master e.engine then (.ok (), { e with ready := true }, m) else
        match wake ω m with
        | (.error s, m) => (.error s, e, m)
        | (.ok (), m) => (.ok (), { e with ready := true }, ((bringUp ω m).poll ω).2)

/-- `RenderEngine::~RenderEngine`. The members go in the reverse order of their declaration. -/
def destroy (e : RenderEngine) (m : Memory) : Memory :=
  let m := m.deleteTables (.ownTables e.id)
  let m := m.deleteObject (.part e.id .ring)
  let m := m.deleteObject (.part e.id .context)
  let m := m.deleteObject (.part e.id .fencePage)
  m.deleteObject (.part e.id .statusPage)

/-- `MapBuffer`, and how many pages it mapped. -/
def mapBuffer (ω : Oracle) (e : RenderEngine) (m : Memory) (area : Option Nat) (address : Nat) :
    Except Error Unit × Nat × Memory :=
  if !e.ready then (.error .noInit, 0, m) else m.map ω e.addressSpace area address

/-- The loop of `MapGlobalRange`, `count` pages from `page` on. -/
def mapGlobalPages (ω : Oracle) (e : RenderEngine) : (count page : Nat) → Memory →
    Except Error Unit × Memory
  | 0, _, m => (.ok (), m)
  | count + 1, page, m =>
    match m.gtt.lookup page with
    | .error s => (.error s, m)
    | .ok physical =>
      match m.mapPhysical ω e.addressSpace page physical 4096 with
      | (.error s, m) => (.error s, m)
      | (.ok (), m) => mapGlobalPages ω e count (page + 4096) m

/-- `MapGlobalRange`. -/
def mapGlobalRange (ω : Oracle) (e : RenderEngine) (m : Memory) (address size : Nat) :
    Except Error Unit × Memory :=
  if !e.ready then (.error .noInit, m) else
  let first := address / 4096 * 4096
  let last := (address + size + 4095) % 2 ^ 64 / 4096 * 4096
  mapGlobalPages ω e ((last - first) / 4096) first m

/-- `UnmapBuffer`. -/
def unmapBuffer (ω : Oracle) (e : RenderEngine) (m : Memory) (address size : Nat) :
    Except Error Unit × Memory :=
  if !e.ready then (.error .noInit, m) else m.unmap ω e.addressSpace address size

/-- `_WaitSeqno` and `_WaitContextSaved`. -/
def waitFor (ω : Oracle) (m : Memory) : Except Error Unit × Memory :=
  match m.poll ω with
  | (true, m) => (.ok (), m)
  | (false, m) => (.error .timedOut, m)

/-- The end of a submission: its fence, and the context saved after it. -/
def waitDone (ω : Oracle) (m : Memory) : Except Error Unit × Memory :=
  match waitFor ω m with
  | (.error s, m) => (.error s, m)
  | (.ok (), m) => waitFor ω m

/-- The submission before this one has left the ring. -/
def waitIdle (ω : Oracle) (e : RenderEngine) (m : Memory) : Except Error Unit × Memory :=
  if 1 < e.nextSeqno then waitFor ω m else (.ok (), m)

/-- `fFaulted = true`. -/
def fault (e : RenderEngine) : RenderEngine := { e with faulted := true }

/-- `Submit`. -/
def submit (ω : Oracle) (e : RenderEngine) (masters : Masters) (m : Memory)
    (batchAddress batchLength : Nat) : Except Error Nat × RenderEngine × Masters × Memory :=
  if !e.ready then (.error .noInit, e, masters, m) else
  if batchLength = 0 ∨ batchAddress % 4 ≠ 0 then (.error .badValue, e, masters, m) else
  if e.schedulerFaulted masters || e.faulted then (.error .devNotReady, e, masters, m) else
  if 0x7fffffff ≤ e.nextSeqno then (.error .noMemory, e, masters, m) else
  match e.waitIdle ω m with
  | (.error s, m) => (.error s, e, masters, m)
  | (.ok (), m) =>
    match wake ω m with
    | (.error s, m) => (.error s, e, masters, m)
    | (.ok (), m) =>
      let seqno := e.nextSeqno
      let e := { e with nextSeqno := seqno + 1 }
      -- the ring is written and the context handed to the submit port
      match waitDone ω (m.flush e.addressSpace) with
      | (.error s, m) =>
        (.error s, e.fault, Function.update masters e.engine ((masters e.engine).map fault),
          (m.poll ω).2)
      | (.ok (), m) => (.ok seqno, e, masters, (m.poll ω).2)

/-- `Wait`. -/
def wait (ω : Oracle) (e : RenderEngine) (m : Memory) (fence timeout : Nat) :
    Except Error Unit × Memory :=
  if !e.ready then (.error .noInit, m) else
  if fence = 0 ∨ e.nextSeqno ≤ fence ∨ 10000000 < timeout then (.error .badValue, m) else
  waitFor ω m

/-- The `i`-th dword of a buffer object of the context, as it is in memory. -/
def dword (ω : Oracle) (e : RenderEngine) (m : Memory) (part : Part) (i : Nat) : Nat :=
  (m.area (.part e.id part)).elim 0 (ω.dword · i)

/-- What `Status` finds. The register image follows the first page of the context. -/
def report (ω : Oracle) (e : RenderEngine) (m : Memory) : EngineStatus where
  registers := e.engine.statusRegisters.map ω.register
  image := [kStateRingHead, kStateRingTail, kStateRingStart, kStateRingControl,
    kStateContextControl].map fun i => e.dword ω m .context (4096 / 4 + i)
  ringFirstDword := e.dword ω m .ring 0
  fence := e.dword ω m .fencePage (0x100 / 4)
  submitted := e.nextSeqno - 1
  statusBuffer := (List.range 12).map fun i => e.dword ω m .statusPage (kStatusBufferIndex + i)

/-- `Status`. -/
def status (ω : Oracle) (e : RenderEngine) (m : Memory) : Except Error EngineStatus × Memory :=
  if !e.ready then (.error .noInit, m) else
  match m.poll ω with
  | (false, m) => (.error .timedOut, m)
  | (true, m) => (.ok (e.report ω m), (m.poll ω).2)

end RenderEngine

end IntelGfx
