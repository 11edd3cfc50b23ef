import IntelGfx.Kernel.Ring

/-!
# Forcewake and the registers

The operations of `RenderEngine` as the registers see them: every write is on the `Bus`, and the
`Gpu` says what the reads find and which of the loops that wait come to their end in time. What the
same operations do in memory is in `RenderEngine`; here it is the outcome `made` of the part of
`Init` that makes the buffer objects and the page tables.
-/

namespace IntelGfx

namespace Hardware

def kRingHardwareStatusMask : Nat := 0x98
def kRingExeclistSubmitPort : Nat := 0x230

def kStopRing : DWord := 1 <<< 8
def kExeclistEnable : DWord := 1 <<< 15

/-- `Masked` -/
def masked (bits : DWord) (set : Bool) : DWord := bits <<< 16 ||| if set then bits else 0

def kForcewakeRender : Nat := 0xa278
def kForcewakeBlitter : Nat := 0xa188
def kForcewakeMedia : Nat := 0xa270
def kForcewakeKernel : DWord := 1 <<< 0

def kFrequencyCap : Nat := 0x145998
def kFrequencyRequest : Nat := 0xa008
def kFrequencyRequestShift : Nat := 23
def kFrequencyScaler : DWord := 3

def kFuse2 : Nat := 0x9120
def kFuse2SliceEnableShift : Nat := 25
def kFuse2SubsliceDisableShift : Nat := 20
def kEuDisable (slice : Nat) : Nat := 0x9134 + slice * 4

def kGtInterruptMask0 : Nat := 0x44304
def kGtInterruptEnable0 : Nat := 0x4430c

end Hardware

open Hardware

namespace EngineId

/-- `EngineDescriptor::forcewake` -/
def forcewake : EngineId → Nat
  | blitter => kForcewakeBlitter
  | render => kForcewakeRender

end EngineId

/-- What the reads find, and how long the waits are. -/
structure Gpu where
  /-- The registers that acknowledge nothing. -/
  content : Nat → DWord
  /-- How often the loops of `_Forcewake` and `_ForcewakeGt` look before their deadline, in the
  order in which they run, and what each look at the acknowledge register finds. -/
  looks : Nat → Nat
  acks : Nat → Nat → DWord
  /-- Whether the engine gets where `Submit` waits for it to get, in the order of these waits. -/
  ends : Nat → Bool

/-- The writes to registers, the latest first, and how many waits there have been. -/
structure Bus where
  writes : List (Nat × DWord)
  waits : Nat
  ends : Nat

namespace Bus

def write (offset : Nat) (value : DWord) (b : Bus) : Bus :=
  { b with writes := (offset, value) :: b.writes }

def writeAll (writes : List (Nat × DWord)) (b : Bus) : Bus :=
  { b with writes := writes.reverse ++ b.writes }

/-- The value last written to a register. -/
def lastWrite (b : Bus) (offset : Nat) : Option DWord :=
  (b.writes.find? (·.1 = offset)).map (·.2)

end Bus

/-- The topology the driver decodes. -/
structure Topology where
  maxSlices : DWord
  maxSubslices : DWord
  maxEusPerSubslice : DWord
  sliceMask : DWord
  subsliceMask : Nat → DWord
  euMask : Nat → DWord

/-- What the operations here use of a context; `master` tells whether it is its own scheduler. -/
structure EngineState where
  engine : EngineId
  master : Bool
  ready : Bool
  faulted : Bool
  schedulerFaulted : Bool
  nextSeqno : Nat
  device : BitVec 16
  revision : BitVec 8
  /-- `fStatusPage.GraphicsAddress()` -/
  statusPage : DWord
  /-- `fContext.GraphicsAddress()` -/
  context : BitVec 64
  topology : Topology

namespace EngineState
variable (gpu : Gpu)

/-! ## Forcewake -/

/-- The loop of `_Forcewake` and `_ForcewakeGt`. -/
def look (take : Bool) (acks : Nat → DWord) : (looks n : Nat) → Except Error Unit
  | 0, _ => .error .timedOut
  | looks + 1, n =>
    if (acks n &&& kForcewakeKernel != 0) = take then .ok () else look take acks looks (n + 1)

/-- A domain is requested or released. -/
def request (domain : Nat) (take : Bool) (b : Bus) : Except Error Unit × Bus :=
  let b := b.write domain (masked kForcewakeKernel take)
  (look take (gpu.acks b.waits) (gpu.looks b.waits) 0, { b with waits := b.waits + 1 })

/-- `_Forcewake` -/
def forcewake (e : EngineState) (take : Bool) (b : Bus) : Except Error Unit × Bus :=
  request gpu e.engine.forcewake take b

/-- `_ForcewakeGt` -/
def forcewakeGt (e : EngineState) (take : Bool) (b : Bus) : Except Error Unit × Bus :=
  if e.engine.forcewake = kForcewakeBlitter then (.ok (), b) else
  request gpu kForcewakeBlitter take b

/-! ## What is read while the device is brought up -/

/-- `_RequestMaximumFrequency` -/
def requestMaximumFrequency (e : EngineState) (b : Bus) : Bus :=
  match e.forcewakeGt gpu true b with
  | (.error _, b) => (e.forcewakeGt gpu false b).2
  | (.ok (), b) =>
    let maximum := (gpu.content kFrequencyCap &&& 0xff) * kFrequencyScaler
    let b :=
      if maximum ≠ 0 then b.write kFrequencyRequest (maximum <<< kFrequencyRequestShift) else b
    (e.forcewakeGt gpu false b).2

/-- The loop of `_ReadTopology` over the subslices. -/
def euMask (subslices disable : DWord) : DWord :=
  (List.range 4).foldl (fun mask subslice =>
    if subslices &&& 1 <<< subslice = 0 then mask
    else mask ||| (~~~(disable >>> (subslice * 8)) &&& 0xff) <<< (subslice * 8)) 0

/-- What `_ReadTopology` decodes. -/
def decodeTopology : Topology :=
  let fuse := gpu.content kFuse2
  let sliceMask := fuse >>> kFuse2SliceEnableShift &&& 0x7
  let subslices := ~~~(fuse >>> kFuse2SubsliceDisableShift) &&& 0xf
  let enabled (slice : Nat) : Bool := slice < 3 && sliceMask &&& 1 <<< slice != 0
  { maxSlices := 3
    maxSubslices := 4
    maxEusPerSubslice := 8
    sliceMask := sliceMask
    subsliceMask := fun slice => if enabled slice then subslices else 0
    euMask := fun slice =>
      if enabled slice then euMask subslices (gpu.content (kEuDisable slice)) else 0 }

/-- `_ReadTopology` -/
def readTopology (e : EngineState) (b : Bus) : EngineState × Bus :=
  match e.forcewakeGt gpu true b with
  | (.error _, b) => (e, (e.forcewakeGt gpu false b).2)
  | (.ok (), b) => ({ e with topology := decodeTopology gpu }, (e.forcewakeGt gpu false b).2)

/-- `_InitRenderWorkarounds`, on an engine with pipe control. -/
def renderWorkarounds (e : EngineState) : List (Nat × DWord) :=
  let kabyLake := e.device &&& 0xff00 = 0x5900
  let skyLakeH0 := e.device &&& 0xff00 = 0x1900 ∧ 7 ≤ e.revision
  let kNonPrivileged : List DWord := [0x2248, 0x2580, 0x7304, 0x7014, 0xb118]
  let set (offset : Nat) (bits : DWord) : Nat × DWord := (offset, gpu.content offset ||| bits)
  [set 0x4090 (1 <<< 25 ||| 1 <<< 8), set 0x4ddc (1 <<< 31 ||| 1 <<< 27), set 0x940c (1 <<< 14)] ++
  (if kabyLake ∨ skyLakeH0 then [set 0x4ab0 (1 <<< 18)] else []) ++
  (if kabyLake ∧ e.revision ≤ 1 then [set 0x4ab8 (1 <<< 28)] else []) ++
  [(0x20e0, (1 <<< 30 ||| 1 <<< 14 : DWord)), set 0xb004 (1 <<< 7),
    (0x20d4, (1 <<< 18 ||| 1 <<< 2 : DWord)), set 0xb11c (1 <<< 2), set 0xb118 (1 <<< 21)] ++
  (List.range 12).map fun i =>
    (e.engine.base + 0x4d0 + i * 4, kNonPrivileged.getD i (BitVec.ofNat 32 (e.engine.base + 0x94)))

/-! ## The operations -/

/-- The part of `Init` in which an engine with pipe control is awake for the first time. -/
def initPower (e : EngineState) (b : Bus) : Except Error Unit × Bus :=
  if e.engine.usesPipeControl then
    match e.forcewake gpu true b with
    | (.error s, b) => (.error s, (e.forcewake gpu false b).2)
    | (.ok (), b) =>
      let b := if e.master then b.writeAll (e.renderWorkarounds gpu) else b
      (.ok (), (e.forcewake gpu false b).2)
  else (.ok (), b)

/-- What `Init` writes into the registers of an engine that is awake to be a master. -/
def masterWrites (e : EngineState) : List (Nat × DWord) :=
  [(kGtInterruptEnable0, 0), (kGtInterruptMask0, ~~~0),
    (e.engine.base + kRingHardwareStatusMask, ~~~0),
    (e.engine.base + kRingMode, masked kExeclistEnable true),
    (e.engine.base + kRingMiMode, masked kStopRing false),
    (e.engine.base + kRingHardwareStatusPage, e.statusPage)]

/-- `Init` -/
def init (supported : Bool) (made : Except Error Unit) (e : EngineState) (b : Bus) :
    Except Error Unit × EngineState × Bus :=
  if e.ready then (.error .busy, e, b) else
  if !supported then (.error .notSupported, e, b) else
  match made with
  | .error s => (.error s, e, b)
  | .ok () =>
    match e.initPower gpu b with
    | (.error s, b) => (.error s, e, b)
    | (.ok (), b) =>
      if !e.master then (.ok (), { e with ready := true }, b) else
      match e.forcewake gpu true b with
      | (.error s, b) => (.error s, e, (e.forcewake gpu false b).2)
      | (.ok (), b) =>
        let (e, b) := e.readTopology gpu (b.writeAll e.masterWrites)
        let b := e.requestMaximumFrequency gpu b
        (.ok (), { e with ready := true }, (e.forcewake gpu false b).2)

/-- `InitClient` -/
def initClient (supported : Bool) (made : Except Error Unit) (e scheduler : EngineState) (b : Bus) :
    Except Error Unit × EngineState × Bus :=
  if e.ready then (.error .busy, e, b) else
  init gpu supported made { e with
    engine := scheduler.engine
    master := false
    device := scheduler.device
    revision := scheduler.revision } b

/-- `_WaitSeqno` and `_WaitContextSaved` -/
def waitEnd (b : Bus) : Except Error Unit × Bus :=
  (if gpu.ends b.ends then .ok () else .error .timedOut, { b with ends := b.ends + 1 })

/-- The descriptor of the context, for the submit port. -/
def descriptor (e : EngineState) : BitVec 64 :=
  let flags : BitVec 64 := 3 <<< 3 ||| 1 <<< 0 ||| 1 <<< 8 ||| 1 <<< 2
  e.context ||| flags ||| (e.context >>> 12) <<< 32

/-- The fence of a submission, and the context saved after it. -/
def waitDone (b : Bus) : Except Error Unit × Bus :=
  match waitEnd gpu b with
  | (.error s, b) => (.error s, b)
  | (.ok (), b) => waitEnd gpu b

/-- What `Submit` writes into the registers: the status page of the context and the port. -/
def submitWrites (e : EngineState) : List (Nat × DWord) :=
  let port := e.engine.base + kRingExeclistSubmitPort
  [(e.engine.base + kRingHardwareStatusPage, e.statusPage), (port, 0), (port, 0),
    (port, (e.descriptor >>> 32).setWidth 32), (port, e.descriptor.setWidth 32)]

/-- `Submit` -/
def submit (batchAddress batchLength : Nat) (e : EngineState) (b : Bus) :
    Except Error Nat × EngineState × Bus :=
  if !e.ready then (.error .noInit, e, b) else
  if batchLength = 0 ∨ batchAddress % 4 ≠ 0 then (.error .badValue, e, b) else
  if e.schedulerFaulted || e.faulted then (.error .devNotReady, e, b) else
  if 0x7fffffff ≤ e.nextSeqno then (.error .noMemory, e, b) else
  match if 1 < e.nextSeqno then waitEnd gpu b else (.ok (), b) with
  | (.error s, b) => (.error s, e, b)
  | (.ok (), b) =>
    match e.forcewake gpu true b with
    | (.error s, b) => (.error s, e, (e.forcewake gpu false b).2)
    | (.ok (), b) =>
      let seqno := e.nextSeqno
      let e := { e with nextSeqno := seqno + 1 }
      match waitDone gpu (b.writeAll e.submitWrites) with
      | (.error s, b) =>
        (.error s, { e with faulted := true, schedulerFaulted := true },
          (e.forcewake gpu false b).2)
      | (.ok (), b) => (.ok seqno, e, (e.forcewake gpu false b).2)

/-- `Status`, as far as it reads registers. -/
def status (e : EngineState) (b : Bus) : Except Error (List DWord) × Bus :=
  if !e.ready then (.error .noInit, b) else
  match e.forcewake gpu true b with
  | (.error s, b) => (.error s, b)
  | (.ok (), b) =>
    (.ok (e.engine.statusRegisters.map gpu.content), (e.forcewake gpu false b).2)

end EngineState

end IntelGfx
