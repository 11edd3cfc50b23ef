import IntelGfx.Theory.Run
import IntelGfx.Theory.CommandStream
import IntelGfx.Kernel.Ring

/-!
# The ring blocks are well-formed command streams

`Command` is what the command streamer makes of a block that it cuts up by the length fields.
A block is the code of the commands it should hold, and the streamer reads back what was coded.
-/

namespace IntelGfx

open Hardware

/-- A command, as the command streamer reads it. -/
inductive Command where
  | noop
  | loadRegister (reg value : DWord)
  | batchBufferStart (perProcess : Bool) (address : BitVec 64)
  | flush (store globalGtt : Bool) (address : BitVec 64) (data : DWord)
  | pipeControl (flags : DWord) (address data : BitVec 64)
  | unknown
  deriving DecidableEq

namespace Command

/-- The dwords of a command, by its first: a memory interface command below 0x10 has one, every
other command has its length field plus two. -/
def size (header : DWord) : Nat :=
  if header >>> 29 = 0 ∧ header >>> 23 < 0x10 then 1 else (header &&& 0xff).toNat + 2

/-- Two dwords, low half first. -/
def qword (low high : DWord) : BitVec 64 := high ++ low

/-- What the dwords of a command mean. An address has 48 bits; the low bits that its alignment
leaves free are not part of it. -/
def decode : List DWord → Command
  | [header] => if header >>> 23 = 0 then noop else unknown
  | [header, reg, value] =>
    if header >>> 23 = 0x22 then loadRegister reg value
    else if header >>> 23 = 0x31 then
      batchBufferStart (header &&& 1 <<< 8 ≠ 0) (qword (reg &&& ~~~3) (value &&& 0xffff))
    else unknown
  | [header, low, high, data] =>
    if header >>> 23 = 0x26 then
      flush (header &&& 1 <<< 14 ≠ 0) (low &&& 1 <<< 2 ≠ 0) (qword (low &&& ~~~7) (high &&& 0xffff))
        data
    else unknown
  | [header, flags, low, high, data, data'] =>
    if header >>> 16 = 0x7a00 then
      pipeControl flags (qword (low &&& ~~~3) (high &&& 0xffff)) (qword data data')
    else unknown
  | _ => unknown

/-- What a command writes, and where, once it is through: a pipe control when its post-sync
operation is the write of its data, a flush when it stores. -/
def write : Command → Option (BitVec 64 × BitVec 64)
  | pipeControl flags address data =>
    if flags &&& 3 <<< 14 = 1 <<< 14 then some (address, data) else none
  | flush true _ address data => some (address, data.setWidth 64)
  | _ => none

/-- What the command streamer makes of words. -/
def parse (words : List DWord) : Option (List Command) :=
  (CommandStream.split size words).map (·.map decode)

end Command

namespace Command

theorem parse_flatten {blocks : List (List DWord)}
    (h : ∀ block ∈ blocks, CommandStream.IsCommand size block) :
    parse blocks.flatten = some (blocks.map decode) := by
  rw [parse, CommandStream.split_flatten h]
  rfl

end Command

section bits
variable {x : DWord} {y : BitVec 64}

theorem getLsbD_of_aligned {k i : Nat} (h : x.toNat % 2 ^ k = 0) (hi : i < k) :
    x.getLsbD i = false := by
  rw [BitVec.getLsbD, ← Nat.div_add_mod x.toNat (2 ^ k), h, Nat.add_zero, Nat.mul_comm,
    Nat.testBit_mul_two_pow]
  simp [Nat.not_le.2 hi]

/-- The bits below an alignment are clear already. -/
theorem and_not_of_aligned {k : Nat} (h : x.toNat % 2 ^ k = 0) :
    x &&& ~~~(BitVec.ofNat 32 (2 ^ k - 1)) = x := by
  refine BitVec.eq_of_getLsbD_eq fun i hi => ?_
  rw [BitVec.getLsbD_and, BitVec.getLsbD_not, BitVec.getLsbD_ofNat, Nat.testBit_two_pow_sub_one]
  by_cases hk : i < k
  · rw [getLsbD_of_aligned h hk, Bool.false_and]
  · simp [hk, hi]

theorem or_and_not_of_aligned (h : x.toNat % 2 ^ 3 = 0) : (x ||| 4) &&& ~~~7 = x := by
  have hmask : (4 : DWord) &&& ~~~7 = 0 := by decide
  rw [BitVec.and_comm, BitVec.and_or_distrib_left, BitVec.and_comm, BitVec.and_comm (~~~7), hmask]
  exact (BitVec.or_zero).trans (and_not_of_aligned h)

theorem or_and_ne_zero (x : DWord) : (x ||| 4) &&& 1 <<< 2 ≠ 0 := by
  intro h
  have hbit := congrArg (·.getLsbD 2) h
  simp at hbit

/-- The 48 bits of an address are all of it. -/
theorem and_of_lt (h : x.toNat < 2 ^ 16) : x &&& 0xffff = x := by
  apply BitVec.eq_of_toNat_eq
  rw [BitVec.toNat_and]
  exact Nat.and_two_pow_sub_one_of_lt_two_pow h

theorem qword_setWidth (y : BitVec 64) :
    Command.qword (y.setWidth 32) ((y >>> 32).setWidth 32) = y := by
  apply BitVec.eq_of_toNat_eq
  rw [Command.qword, BitVec.toNat_append, BitVec.toNat_setWidth, BitVec.toNat_setWidth,
    BitVec.toNat_ushiftRight, ← Nat.shiftLeft_add_eq_or_of_lt (Nat.mod_lt _ (by decide)),
    Nat.shiftLeft_eq, Nat.shiftRight_eq_div_pow]
  have := y.isLt
  omega

theorem toNat_setWidth_mod {k : Nat} (hk : k ≤ 32) :
    (y.setWidth 32).toNat % 2 ^ k = y.toNat % 2 ^ k := by
  rw [BitVec.toNat_setWidth, Nat.mod_mod_of_dvd _ (Nat.pow_dvd_pow 2 hk)]

end bits

namespace Command

theorem qword_zero (low : DWord) : qword low 0 = low.setWidth 64 := by
  apply BitVec.eq_of_toNat_eq
  rw [qword, BitVec.toNat_append, BitVec.toNat_setWidth]
  change 0 <<< 32 ||| _ = _
  rw [Nat.zero_shiftLeft, Nat.zero_or]
  have := low.isLt
  omega

theorem decode_noop : decode [kMiNoop] = noop := by decide

theorem decode_loadRegister (reg value : DWord) :
    decode [kMiLoadRegisterImmediate ||| 1, reg, value] = loadRegister reg value := by
  rw [decode, if_pos (by decide)]

theorem decode_pipeControl (flags data data' : DWord) {low : DWord} (h : low.toNat % 8 = 0) :
    decode [kPipeControl 6, flags, low, 0, data, data'] =
      pipeControl flags (qword low 0) (qword data data') := by
  rw [decode, if_pos (by decide)]
  congr 2
  have h4 : low.toNat % 2 ^ 2 = 0 := by omega
  exact and_not_of_aligned h4

theorem decode_flush (data : DWord) {low : DWord} (h : low.toNat % 8 = 0) :
    decode [kMiFlushDword ||| kMiFlushStoreDword, low ||| kMiFlushUseGlobalGtt, 0, data] =
      flush true true (qword low 0) data := by
  rw [decode, if_pos (by decide)]
  congr 2
  · exact decide_eq_true (or_and_ne_zero low)
  · exact or_and_not_of_aligned h

/-- The batch starts at the whole of its address, in the per-process space. -/
theorem decode_startBatch {address : BitVec 64} (h : address.toNat % 4 = 0)
    (h' : address.toNat < 2 ^ 48) :
    decode (RingContext.startBatch address) = batchBufferStart true address := by
  rw [RingContext.startBatch, decode, if_neg (by decide), if_pos (by decide)]
  congr 1
  have hlow : (address.setWidth 32).toNat % 2 ^ 2 = 0 := (toNat_setWidth_mod (by decide)).trans h
  have hhigh : ((address >>> 32).setWidth 32).toNat < 2 ^ 16 := by
    rw [BitVec.toNat_setWidth, BitVec.toNat_ushiftRight, Nat.shiftRight_eq_div_pow]
    omega
  rw [and_of_lt hhigh]
  exact (congrArg (qword · _) (and_not_of_aligned hlow)).trans (qword_setWidth address)

end Command

namespace RingContext
variable (c : RingContext) (batch : BitVec 64) (seqno : DWord)

/-- The fence page is where `Init` accepts it. -/
structure Placed : Prop where
  aligned : c.fencePage.toNat % 4096 = 0
  low : c.fencePage.toNat ≤ 0xffffffff

/-- The registers that the workarounds load, each with the mask and the value of its write. -/
def maskedRegisters : List (DWord × DWord × DWord) :=
  let commonSlice : DWord :=
    if c.isKabyLake && 2 ≤ c.revision then 1 <<< 13 ||| 1 <<< 8 else 1 <<< 13
  [(0x7014, commonSlice, commonSlice), (0xe194, 0x114, 0x114), (0xe4f0, 0x8100, 0x8100),
    (0x7004, 0x42, 0x42), (0xe188, 0x8, 0), (0x7300, 0x8030, 0x8030), (0xe184, 0x2, 0x2),
    (0xe180, 0x2000, 0x2000), (0x2580, 7, 4)] ++ if c.isKabyLake then [(0xe100, 0x10, 0x10)] else []

/-- The flags of the pipe control that invalidates, of the one that flushes the caches and of the
one that writes the fence. -/
def invalidateFlags : DWord := 0x01144c1c
def flushFlags : DWord := 0x00141021
def fenceFlags : DWord := 0x01104080

/-- The fence of the context. -/
def fence : BitVec 64 := c.fencePage + 0x100

/-- What a submission is to make the engine do. -/
def program : List Command :=
  (if c.engine.usesPipeControl then
    c.maskedRegisters.map (fun (reg, mask, value) => .loadRegister reg (mask <<< 16 ||| value)) ++
      [.pipeControl 0 0 0, .pipeControl invalidateFlags (c.fence + 8) 0]
  else []) ++
  .batchBufferStart true batch ::
  (if c.engine.usesPipeControl then
    [.pipeControl flushFlags 0 0, .pipeControl fenceFlags c.fence (seqno.setWidth 64)]
  else [.flush true true c.fence seqno])

/-- The commands of a block, one by one. -/
def blocks : List (List DWord) :=
  (if c.engine.usesPipeControl then
    c.maskedRegisters.map (fun (reg, mask, value) =>
      [kMiLoadRegisterImmediate ||| 1, reg, mask <<< 16 ||| value]) ++
      [[kPipeControl 6, 0, 0, 0, 0, 0],
        [kPipeControl 6, invalidateFlags, c.fenceAddress + 8, 0, 0, 0]]
  else []) ++
  startBatch batch ::
  (if c.engine.usesPipeControl then
    [[kPipeControl 6, flushFlags, 0, 0, 0, 0],
      [kPipeControl 6, fenceFlags, c.fenceAddress, 0, seqno, 0]]
  else [[kMiFlushDword ||| kMiFlushStoreDword, c.fenceAddress ||| kMiFlushUseGlobalGtt, 0, seqno]])

theorem commands_eq : c.commands batch seqno = (c.blocks batch seqno).flatten := by
  rw [commands, blocks, beforeBatch, afterBatch]
  cases c.engine.usesPipeControl with
  | false => rfl
  | true =>
    rw [appendRenderWorkarounds, maskedRegisters]
    cases c.isKabyLake <;> rfl

theorem length_commands_le : (c.commands batch seqno).length ≤ c.engine.commandDwords := by
  rw [commands, beforeBatch, afterBatch, EngineId.commandDwords]
  cases c.engine.usesPipeControl with
  | false => exact Nat.le_of_ble_eq_true rfl
  | true =>
    rw [appendRenderWorkarounds]
    cases c.isKabyLake <;> exact Nat.le_of_ble_eq_true rfl

theorem isCommand_blocks : ∀ block ∈ c.blocks batch seqno,
    CommandStream.IsCommand Command.size block := by
  have hload : Command.size (kMiLoadRegisterImmediate ||| 1) = 3 := by decide
  have hstart : Command.size (kMiBatchBufferStart ||| kMiBatchBufferPerProcess) = 3 := by decide
  have hflush : Command.size (kMiFlushDword ||| kMiFlushStoreDword) = 4 := by decide
  have hpipe : Command.size (kPipeControl 6) = 6 := by decide
  rw [blocks]
  cases c.engine.usesPipeControl with
  | false =>
    simp only [Bool.false_eq_true, if_false, List.nil_append, List.mem_cons, List.not_mem_nil,
      or_false]
    rintro block (rfl | rfl)
    · exact hstart
    · exact hflush
  | true =>
    simp only [if_true, List.mem_append, List.mem_map, List.mem_cons, List.not_mem_nil, or_false]
    rintro block ((⟨register, -, rfl⟩ | rfl | rfl) | rfl | rfl | rfl)
    · exact hload
    · exact hpipe
    · exact hpipe
    · exact hstart
    · exact hpipe
    · exact hpipe

variable {c} in
theorem Placed.toNat_fenceAddress (H : c.Placed) :
    c.fenceAddress.toNat = c.fencePage.toNat + 0x100 := by
  have h := H.aligned
  have h' := H.low
  rw [fenceAddress, BitVec.toNat_add, BitVec.toNat_setWidth, kFenceOffset]
  change (c.fencePage.toNat % 2 ^ 32 + 256) % 2 ^ 32 = c.fencePage.toNat + 256
  omega

variable {c} in
/-- The fence, or a word shortly after it, as an address of 64 bits. -/
theorem Placed.qword_fenceAddress (H : c.Placed) {k : Nat} (hk : k < 256) :
    (c.fenceAddress + BitVec.ofNat 32 k).toNat % 8 = k % 8 ∧
    Command.qword (c.fenceAddress + BitVec.ofNat 32 k) 0 = c.fence + BitVec.ofNat 64 k := by
  have h := H.aligned
  have h' := H.low
  have hsum : (c.fenceAddress + BitVec.ofNat 32 k).toNat = c.fencePage.toNat + 256 + k := by
    rw [BitVec.toNat_add, H.toNat_fenceAddress, BitVec.toNat_ofNat]
    omega
  refine ⟨by omega, BitVec.eq_of_toNat_eq ?_⟩
  rw [Command.qword, BitVec.toNat_append, hsum, fence, BitVec.toNat_add, BitVec.toNat_add,
    BitVec.toNat_ofNat]
  change 0 <<< 32 ||| _ = ((c.fencePage.toNat + 256) % 2 ^ 64 + k % 2 ^ 64) % 2 ^ 64
  rw [Nat.zero_shiftLeft, Nat.zero_or]
  omega

variable {c batch} in
theorem decode_blocks (H : c.Placed) (h : batch.toNat % 4 = 0) (h' : batch.toNat < 2 ^ 48) :
    (c.blocks batch seqno).map Command.decode = c.program batch seqno := by
  obtain ⟨hfence, hqword⟩ := H.qword_fenceAddress (k := 0) (by decide)
  obtain ⟨hscratch, hqword8⟩ : (c.fenceAddress + 8).toNat % 8 = 0 ∧
      Command.qword (c.fenceAddress + 8) 0 = c.fence + 8 := H.qword_fenceAddress (by decide)
  rw [BitVec.add_zero] at hfence hqword
  rw [BitVec.add_zero] at hqword
  rw [blocks, program]
  cases c.engine.usesPipeControl with
  | false =>
    simp only [Bool.false_eq_true, if_false, List.nil_append, List.map_cons, List.map_nil]
    rw [Command.decode_startBatch h h', Command.decode_flush seqno hfence, hqword]
  | true =>
    simp only [if_true, List.map_append, List.map_cons, List.map_nil, List.map_map]
    rw [Command.decode_startBatch h h', Command.decode_pipeControl _ _ _ hfence,
      Command.decode_pipeControl _ _ _ hscratch, Command.decode_pipeControl _ _ _ rfl,
      Command.decode_pipeControl _ _ _ rfl, hqword, hqword8]
    simp only [Command.qword_zero]
    have hload : Command.decode ∘ (fun register : DWord × DWord × DWord =>
        [kMiLoadRegisterImmediate ||| 1, register.1, register.2.1 <<< 16 ||| register.2.2]) =
        fun register => .loadRegister register.1 (register.2.1 <<< 16 ||| register.2.2) :=
      funext fun register => Command.decode_loadRegister ..
    rw [hload]
    rfl

theorem writes_program : (c.program batch seqno).filterMap Command.write =
    (if c.engine.usesPipeControl then [(c.fence + 8, 0)] else []) ++
      [(c.fence, seqno.setWidth 64)] := by
  rw [program, maskedRegisters]
  cases c.engine.usesPipeControl with
  | false => rfl
  | true =>
    cases c.isKabyLake <;> rfl

end RingContext

namespace RingState
variable {c : RingContext} {s : RingState} {ring : Nat → DWord}

@[simp] theorem read_write (offset : Nat) (words : List DWord) :
    read (write ring offset words) offset words.length = words := by
  apply List.ext_getElem
  · simp [read]
  · intro i h h'
    simp [read, write, h']

/-- The tail is at the start of a block, inside the ring. -/
structure Inv (c : RingContext) (s : RingState) : Prop where
  block : s.fRingTail % (c.engine.commandDwords * 4) = 0
  tail : s.fRingTail < kRingSize

/-- The ring is a whole number of blocks, more than one. -/
theorem kRingSize_eq (engine : EngineId) : ∃ n, 1 < n ∧
    kRingSize = engine.commandDwords * 4 * n ∧ 0 < engine.commandDwords * 4 := by
  cases engine with
  | blitter => exact ⟨128, by decide⟩
  | render => exact ⟨64, by decide⟩

namespace Inv

/-- The block at the tail ends where the ring does, at the latest. -/
theorem fits (H : Inv c s) : s.fRingTail + c.engine.commandDwords * 4 ≤ kRingSize := by
  obtain ⟨n, -, hsize, hpos⟩ := kRingSize_eq c.engine
  obtain ⟨k, hk⟩ := Nat.dvd_of_mod_eq_zero H.block
  have htail := H.tail
  rw [hk, hsize] at htail ⊢
  exact Nat.mul_succ .. ▸ Nat.mul_le_mul_left _ (Nat.lt_of_mul_lt_mul_left htail)

/-- So the ring is never padded. -/
theorem wrap_eq (H : Inv c s) : s.wrap c.engine = s := if_neg (Nat.not_lt.2 H.fits)

theorem fill (H : Inv c s) (batch : BitVec 64) :
    Inv c (s.fill c batch) ∧ (s.fill c batch).fRingTail ≠ s.fRingTail := by
  obtain ⟨n, hn, hsize, hpos⟩ := kRingSize_eq c.engine
  have hfits := H.fits
  have htail : (s.fill c batch).fRingTail =
      (s.fRingTail + c.engine.commandDwords * 4) % kRingSize := by rw [RingState.fill, H.wrap_eq]
  have hblock := H.block
  refine ⟨⟨?_, ?_⟩, ?_⟩
  · rw [htail, hsize, Nat.mod_mul_right_mod, Nat.add_mod_right, hblock]
  · rw [htail]
    exact Nat.mod_lt _ (by omega)
  · rw [htail]
    rcases Nat.lt_or_eq_of_le hfits with hlt | heq
    · rw [Nat.mod_eq_of_lt hlt]
      omega
    · -- the last block of the ring, which is not the first
      rw [heq, Nat.mod_self]
      have := Nat.mul_le_mul_left (c.engine.commandDwords * 4) hn
      omega

theorem submit (H : Inv c s) (batch : BitVec 64 × Bool) : Inv c (s.submit c batch) := by
  rw [RingState.submit]
  split
  · exact H
  · exact (H.fill batch.1).1

end Inv

/-- What a submission leaves in the ring, at the tail it found. -/
theorem parse_fill (H : Inv c s) (hc : c.Placed) {batch : BitVec 64} (h : batch.toNat % 4 = 0)
    (h' : batch.toNat < 2 ^ 48) :
    Command.parse (read (s.fill c batch).ring s.fRingTail c.engine.commandDwords) =
      some (c.program batch (BitVec.ofNat 32 s.fNextSeqno) ++
        List.replicate (c.engine.commandDwords -
          (c.commands batch (BitVec.ofNat 32 s.fNextSeqno)).length) .noop) := by
  have hlength := c.length_commands_le batch (BitVec.ofNat 32 s.fNextSeqno)
  rw [fill, H.wrap_eq]
  generalize BitVec.ofNat 32 s.fNextSeqno = seqno at *
  generalize hpad : c.engine.commandDwords - (c.commands batch seqno).length = pad
  have hread (ring : Nat →
      DWord) (block : List DWord) (hl : block.length = c.engine.commandDwords) :
      read (write ring s.fRingTail block) s.fRingTail c.engine.commandDwords = block := by
    rw [← hl, read_write]
  have hblocks : c.commands batch seqno ++ List.replicate pad kMiNoop =
      (c.blocks batch seqno ++ List.replicate pad [kMiNoop]).flatten := by
    rw [c.commands_eq, List.flatten_append, List.flatten_replicate_singleton]
  rw [hread, hblocks, Command.parse_flatten, List.map_append, c.decode_blocks seqno hc h h',
    List.map_replicate, Command.decode_noop]
  · intro block hb
    rcases List.mem_append.1 hb with hb | hb
    · exact c.isCommand_blocks batch seqno block hb
    · rw [List.eq_of_mem_replicate hb]
      exact (by decide : Command.size kMiNoop = 1)
  · rw [List.length_append, List.length_replicate]
    omega

end RingState

/-- Every submission of every run of a context writes a block at the tail it finds, inside the
ring and with room for its commands; the tail goes on to the next block; and the command streamer
reads the block as the program of the submission and no-ops after it. Of these only one writes at
the fence. -/
theorem RingState.run_wellFormed (c : RingContext) (hc : c.Placed) (ring : Nat → DWord)
    (batches : List (BitVec 64 × Bool)) (batch : BitVec 64) (h : batch &&& 3 = 0)
    (h' : batch.toNat < 2 ^ 48) :
    let s := Run.exec (RingState.submit c) (RingState.start ring) batches
    let seqno := BitVec.ofNat 32 s.fNextSeqno
    s.fNextSeqno < 0x7fffffff →
      s.writeStart c.engine = s.fRingTail ∧
      s.fRingTail + c.engine.commandDwords * 4 ≤ kRingSize ∧
      (c.commands batch seqno).length ≤ c.engine.commandDwords ∧
      (s.submit c (batch, true)).fRingTail ≠ s.fRingTail ∧
      (s.submit c (batch, true)).fRingTail % (c.engine.commandDwords * 4) = 0 ∧
      (s.submit c (batch, true)).fRingTail < kRingSize ∧
      Command.parse (RingState.read (s.submit c (batch, true)).ring s.fRingTail
        c.engine.commandDwords) = some (c.program batch seqno ++
          List.replicate (c.engine.commandDwords - (c.commands batch seqno).length) .noop) ∧
      (c.program batch seqno).filterMap Command.write =
        (if c.engine.usesPipeControl then [(c.fence + 8, 0)] else []) ++
          [(c.fence, seqno.setWidth 64)] := by
  intro s seqno hseqno
  have H : Inv c s := Run.invariant_of_step (fun _ batch H => H.submit batch) batches
    ⟨Nat.zero_mod _, (by decide : 0 < kRingSize)⟩
  have hbatch : batch.toNat % 4 = 0 := by
    have := congrArg BitVec.toNat h
    rwa [BitVec.toNat_and, show (3 : BitVec 64).toNat = 2 ^ 2 - 1 from rfl,
      Nat.and_two_pow_sub_one_eq_mod] at this
  have hsubmit : s.submit c (batch, true) = s.fill c batch :=
    if_neg (by simpa [Nat.not_le.2 hseqno] using h)
  rw [hsubmit]
  obtain ⟨hnext, hne⟩ := H.fill batch
  exact ⟨congrArg fRingTail H.wrap_eq, H.fits, c.length_commands_le batch seqno, hne, hnext.block,
    hnext.tail, parse_fill H hc hbatch h', c.writes_program batch seqno⟩

/-- The second submission of a render context of a Kaby Lake. -/
theorem RingState.run_wellFormed_kabyLake :
    let c : RingContext := ⟨.render, 0x5912, 4, 0x103000⟩
    let s := Run.exec (RingState.submit c) (RingState.start fun _ => 0) [(0x3ffe1000, true)]
    let seqno := BitVec.ofNat 32 s.fNextSeqno
    Command.parse (RingState.read (s.submit c (0x7fff12345678, true)).ring s.fRingTail
      c.engine.commandDwords) = some (c.program 0x7fff12345678 seqno ++
        List.replicate (c.engine.commandDwords - (c.commands 0x7fff12345678 seqno).length)
          .noop) := by
  intro c s seqno
  have h := RingState.run_wellFormed c ⟨by decide, by decide⟩ (fun _ => 0) [(0x3ffe1000, true)]
    0x7fff12345678 (by decide) (by decide) (by decide)
  exact h.2.2.2.2.2.2.1

end IntelGfx
