import IntelGfx.Kernel.RenderEngine

/-!
# What a submission writes into the ring

The part of `RenderEngine::Submit` that fills the ring, with the commands of `GpuHardware.h`. The
ring is memory, of which the words of a block are replaced.
-/

namespace IntelGfx

abbrev DWord := BitVec 32

namespace Hardware

def miInstruction (opcode : DWord) : DWord := opcode <<< 23

def kMiNoop : DWord := 0
def kMiBatchBufferStart : DWord := miInstruction 0x31 ||| 1
def kMiBatchBufferPerProcess : DWord := 1 <<< 8
def kMiLoadRegisterImmediate : DWord := miInstruction 0x22
def kMiFlushDword : DWord := miInstruction 0x26 ||| 2
def kMiFlushStoreDword : DWord := 1 <<< 14
def kMiFlushUseGlobalGtt : DWord := 1 <<< 2

def kPipeControl (length : DWord) : DWord := 3 <<< 29 ||| 3 <<< 27 ||| 2 <<< 24 ||| (length - 2)

def kPipeControlGlobalGtt : DWord := 1 <<< 24
def kPipeControlTlbInvalidate : DWord := 1 <<< 18
def kPipeControlStall : DWord := 1 <<< 20
def kPipeControlQwordWrite : DWord := 1 <<< 14
def kPipeControlRenderTargetFlush : DWord := 1 <<< 12
def kPipeControlFlush : DWord := 1 <<< 7
def kPipeControlDataCacheFlush : DWord := 1 <<< 5
def kPipeControlDepthFlush : DWord := 1 <<< 0

end Hardware

open Hardware

/-- `kFenceOffset` -/
def kFenceOffset : DWord := 0x100

/-- The dwords of a block: `kCommandDwords`. -/
def EngineId.commandDwords (engine : EngineId) : Nat := if engine.usesPipeControl then 64 else 32

/-- What of a context goes into the commands. -/
structure RingContext where
  engine : EngineId
  device : BitVec 16
  revision : BitVec 8
  /-- `fFencePage.GraphicsAddress()` -/
  fencePage : BitVec 64

namespace RingContext
variable (c : RingContext)

def isKabyLake : Bool := c.device &&& 0xff00 == 0x5900

/-- `AppendMaskedRegister` -/
def appendMaskedRegister (ring : List DWord) (reg mask value : DWord) : List DWord :=
  ring ++ [kMiLoadRegisterImmediate ||| 1, reg, mask <<< 16 ||| value]

/-- `_AppendRenderWorkarounds` -/
def appendRenderWorkarounds (ring : List DWord) : List DWord :=
  let commonSlice : DWord := 1 <<< 13
  let commonSlice := if c.isKabyLake && 2 ≤ c.revision then commonSlice ||| 1 <<< 8 else commonSlice
  let ring := appendMaskedRegister ring 0x7014 commonSlice commonSlice
  let ring := appendMaskedRegister ring 0xe194 (1 <<< 8 ||| 1 <<< 4 ||| 1 <<< 2)
    (1 <<< 8 ||| 1 <<< 4 ||| 1 <<< 2)
  let ring := appendMaskedRegister ring 0xe4f0 (1 <<< 15 ||| 1 <<< 8) (1 <<< 15 ||| 1 <<< 8)
  let ring := appendMaskedRegister ring 0x7004 (1 <<< 6 ||| 1 <<< 1) (1 <<< 6 ||| 1 <<< 1)
  let ring := appendMaskedRegister ring 0xe188 (1 <<< 3) 0
  let ring := appendMaskedRegister ring 0x7300 (1 <<< 15 ||| 1 <<< 5 ||| 1 <<< 4)
    (1 <<< 15 ||| 1 <<< 5 ||| 1 <<< 4)
  let ring := appendMaskedRegister ring 0xe184 (1 <<< 1) (1 <<< 1)
  let ring := appendMaskedRegister ring 0xe180 (1 <<< 13) (1 <<< 13)
  let ring := appendMaskedRegister ring 0x2580 7 4
  if c.isKabyLake then appendMaskedRegister ring 0xe100 (1 <<< 4) (1 <<< 4) else ring

def fenceAddress : DWord := c.fencePage.setWidth 32 + kFenceOffset

/-- What comes before the batch: the workarounds, a null pipe control, and one that invalidates. -/
def beforeBatch : List DWord :=
  if c.engine.usesPipeControl then
    c.appendRenderWorkarounds [] ++ [kPipeControl 6, 0, 0, 0, 0, 0] ++ [kPipeControl 6,
      kPipeControlStall ||| kPipeControlTlbInvalidate ||| kPipeControlQwordWrite |||
        kPipeControlGlobalGtt ||| 1 <<< 11 ||| 1 <<< 10 ||| 1 <<< 4 ||| 1 <<< 3 ||| 1 <<< 2,
      c.fenceAddress + 8, 0, 0, 0]
  else []

/-- The batch. -/
def startBatch (batchAddress : BitVec 64) : List DWord :=
  [kMiBatchBufferStart ||| kMiBatchBufferPerProcess, batchAddress.setWidth 32,
    (batchAddress >>> 32).setWidth 32]

/-- What comes after it: a flush, and the sequence number. -/
def afterBatch (seqno : DWord) : List DWord :=
  if c.engine.usesPipeControl then
    [kPipeControl 6,
      kPipeControlStall ||| kPipeControlTlbInvalidate ||| kPipeControlRenderTargetFlush |||
        kPipeControlDepthFlush ||| kPipeControlDataCacheFlush,
      0, 0, 0, 0] ++
    [kPipeControl 6,
      kPipeControlQwordWrite ||| kPipeControlGlobalGtt ||| kPipeControlFlush ||| kPipeControlStall,
      c.fenceAddress, 0, seqno, 0]
  else
    [kMiFlushDword ||| kMiFlushStoreDword, c.fenceAddress ||| kMiFlushUseGlobalGtt, 0, seqno]

/-- The commands of a block, up to the padding. -/
def commands (batchAddress : BitVec 64) (seqno : DWord) : List DWord :=
  c.beforeBatch ++ startBatch batchAddress ++ c.afterBatch seqno

end RingContext

/-- The ring of a context, in dwords, and what `Submit` keeps about it. -/
structure RingState where
  ring : Nat → DWord
  fRingTail : Nat
  fNextSeqno : Nat

namespace RingState

/-- The constructor of the context; the ring is whatever memory it got. -/
def start (ring : Nat → DWord) : RingState := ⟨ring, 0, 1⟩

/-- Words written at an offset in bytes. -/
def write (ring : Nat → DWord) (offset : Nat) (words : List DWord) : Nat → DWord := fun i =>
  if offset / 4 ≤ i ∧ i < offset / 4 + words.length then words.getD (i - offset / 4) 0 else ring i

/-- Words that lie at an offset in bytes. -/
def read (ring : Nat → DWord) (offset count : Nat) : List DWord :=
  (List.range count).map fun i => ring (offset / 4 + i)

/-- A block that does not fit is put at the start, and the rest of the ring is padded. -/
def wrap (engine : EngineId) (s : RingState) : RingState :=
  if s.fRingTail + engine.commandDwords * 4 > kRingSize then
    { s with
      ring := write s.ring s.fRingTail
        (List.replicate ((kRingSize - s.fRingTail) / 4) kMiNoop)
      fRingTail := 0 }
  else s

/-- `writeStart`: where the block goes. -/
def writeStart (engine : EngineId) (s : RingState) : Nat := (s.wrap engine).fRingTail

/-- The block is written, and the tail and the sequence number go on. -/
def fill (c : RingContext) (batchAddress : BitVec 64) (s : RingState) : RingState :=
  let s := s.wrap c.engine
  let commands := c.commands batchAddress (BitVec.ofNat 32 s.fNextSeqno)
  let block := commands ++ List.replicate (c.engine.commandDwords - commands.length) kMiNoop
  { ring := write s.ring s.fRingTail block
    fRingTail := (s.fRingTail + c.engine.commandDwords * 4) % kRingSize
    fNextSeqno := s.fNextSeqno + 1 }

/-- A submission, as far as the ring goes: `reached` says whether the engine is idle, awake and not
faulted. -/
def submit (c : RingContext) (batch : BitVec 64 × Bool) (s : RingState) : RingState :=
  if batch.1 &&& 3 ≠ 0 ∨ 0x7fffffff ≤ s.fNextSeqno ∨ !batch.2 then s else s.fill c batch.1

end RingState

end IntelGfx
