import IntelGfx.Kernel.Ring

/-!
# The register image of a context

The two layouts of `RenderEngine.cpp` and `WriteStateLayout`, which carries one out. The image is
memory, in dwords; a layout is read byte by byte.
-/

namespace IntelGfx

abbrev Byte := BitVec 8

namespace Hardware

def kMiLoadRegisterPosted : DWord := 1 <<< 12

end Hardware

open Hardware

namespace StateLayout

/-! ## The encoding -/

/-- `NOP` -/
def nop (count : Nat) : Byte := BitVec.ofNat 8 (0x80 ||| count)

/-- `LRI` -/
def lri (count : Nat) (posted : Bool) : Byte := BitVec.ofNat 8 (posted.toNat <<< 6 ||| count)

/-- `REG` -/
def reg (offset : Nat) : List Byte := [BitVec.ofNat 8 (offset >>> 2)]

/-- `REG16` -/
def reg16 (offset : Nat) : List Byte :=
  [BitVec.ofNat 8 (offset >>> 9 ||| 0x80), BitVec.ofNat 8 (offset >>> 2 &&& 0x7f)]

/-! ## `WriteStateLayout` -/

/-- The image of a context. -/
abbrev Image := Nat → DWord

/-- The loop over the bytes of a register's offset. The bytes that are left come with it. -/
def readOffset (offset : DWord) : List Byte → Option (DWord × List Byte)
  | [] => none
  | byte :: data =>
    let offset := offset <<< 7 ||| (byte &&& ~~~0x80).setWidth 32
    if byte &&& 0x80 ≠ 0 then readOffset offset data else some (offset, data)

/-- The loop over the registers of a load, and where it leaves `registers`. -/
def writeRegisters (base : DWord) : (count registers : Nat) → Image → List Byte →
    Option (Nat × Image × List Byte)
  | 0, registers, state, data => some (registers, state, data)
  | count + 1, registers, state, data =>
    match readOffset 0 data with
    | none => none
    | some (offset, data) =>
      writeRegisters base count (registers + 2)
        (Function.update state registers (base + offset <<< 2)) data

/-- The first dword of a load. -/
def header (count : DWord) (posted : Bool) : DWord :=
  let header := kMiLoadRegisterImmediate ||| (2 * count - 1)
  if posted then header ||| kMiLoadRegisterPosted else header

/-- The loop of `WriteStateLayout`, with the data it stops at; `none` if it runs out of data. -/
def writeLoop (base : DWord) : (fuel registers : Nat) → Image → List Byte →
    Option (Image × List Byte)
  | 0, _, _, _ => none
  | _ + 1, _, _, [] => none
  | fuel + 1, registers, state, byte :: data =>
    if byte = 0 then some (state, byte :: data)
    else if byte &&& 0x80 ≠ 0 then
      writeLoop base fuel (registers + (byte &&& ~~~0x80).toNat) state data
    else
      let count := byte &&& 0x3f
      let posted := byte >>> 6 != 0
      let state := Function.update state registers (header (count.setWidth 32) posted)
      match writeRegisters base count.toNat (registers + 1) state data with
      | none => none
      | some (registers, state, data) => writeLoop base fuel registers state data

/-- `WriteStateLayout` -/
def writeStateLayout (state : Image) (base : DWord) (data : List Byte) : Option
    (Image × List Byte) :=
  writeLoop base data.length 0 state data

/-! ## The layouts -/

/-- The two blocks that both layouts begin with. -/
def firstBlocks : List Byte :=
  [nop 1, lri 14 true] ++
  reg16 0x244 ++ reg 0x034 ++ reg 0x030 ++ reg 0x038 ++ reg 0x03c ++
  reg 0x168 ++ reg 0x140 ++ reg 0x110 ++ reg 0x11c ++ reg 0x114 ++
  reg 0x118 ++ reg 0x1c0 ++ reg 0x1c4 ++ reg 0x1c8 ++
  [nop 3, lri 9 true] ++
  reg16 0x3a8 ++ reg16 0x28c ++ reg16 0x288 ++ reg16 0x284 ++ reg16 0x280 ++
  reg16 0x27c ++ reg16 0x278 ++ reg16 0x274 ++ reg16 0x270

/-- The block that both end with. -/
def lastBlock : List Byte :=
  [nop 13, lri 44 true] ++
  reg 0x028 ++ reg 0x09c ++ reg 0x0c0 ++ reg 0x178 ++ reg 0x17c ++
  reg16 0x358 ++ reg 0x170 ++ reg 0x150 ++ reg 0x154 ++ reg 0x158 ++
  reg16 0x41c ++ reg16 0x600 ++ reg16 0x604 ++ reg16 0x608 ++ reg16 0x60c ++
  reg16 0x610 ++ reg16 0x614 ++ reg16 0x618 ++ reg16 0x61c ++ reg16 0x620 ++
  reg16 0x624 ++ reg16 0x628 ++ reg16 0x62c ++ reg16 0x630 ++ reg16 0x634 ++
  reg16 0x638 ++ reg16 0x63c ++ reg16 0x640 ++ reg16 0x644 ++ reg16 0x648 ++
  reg16 0x64c ++ reg16 0x650 ++ reg16 0x654 ++ reg16 0x658 ++ reg16 0x65c ++
  reg16 0x660 ++ reg16 0x664 ++ reg16 0x668 ++ reg16 0x66c ++ reg16 0x670 ++
  reg16 0x674 ++ reg16 0x678 ++ reg16 0x67c ++ reg 0x068 ++
  [0]

def kEngineStateLayout : List Byte :=
  firstBlocks ++ [nop 13, lri 1 true] ++ reg16 0x200 ++ lastBlock

def kRenderStateLayout : List Byte :=
  firstBlocks ++ [nop 13, lri 1 false] ++ reg 0x0c8 ++ lastBlock

def kStateBatchBufferState : Nat := 0x10 + 1
def kStateTimestamp : Nat := 0x22 + 1
def kStatePageDirectory0Upper : Nat := 0x30 + 1
def kStatePageDirectory0Lower : Nat := 0x32 + 1
def kStateMiMode : Nat := 0x54

/-- Where `Init` puts the power state of an engine with pipe control; it has no name there. -/
def kStatePower : Nat := 0x42 + 1

end StateLayout

/-- `EngineDescriptor::layout` -/
def EngineId.layout : EngineId → List Byte
  | blitter => StateLayout.kEngineStateLayout
  | render => StateLayout.kRenderStateLayout

end IntelGfx
