import Mathlib.Tactic.Common
import Mathlib.Algebra.Group.Nat.Defs
import IntelGfx.Theory.Run

/-!
# The ring of the accelerant

`display/engine.cpp` and `display/commands.h`: the commands of the acceleration hooks are put into
the primary ring buffer, from where the hardware takes them. Each look at the head register and each
write of a word is a step of its own, and between any two of them the hardware may go on by a word.
-/

namespace IntelGfx

namespace Accelerant

abbrev Word := BitVec 32

def COMMAND_NOOP : Word := 0
def COMMAND_WAIT_FOR_EVENT : Word := 0x03 <<< 23
def COMMAND_WAIT_FOR_OVERLAY_FLIP : Word := 1 <<< 16
def COMMAND_FLUSH : Word := 0x04 <<< 23
def COMMAND_OVERLAY_FLIP : Word := 0x11 <<< 23
def COMMAND_OVERLAY_CONTINUE : Word := 0 <<< 21
def COMMAND_OVERLAY_ON : Word := 1 <<< 21
def COMMAND_OVERLAY_OFF : Word := 2 <<< 21
def OVERLAY_UPDATE_COEFFICIENTS : Word := 1
def COMMAND_BLIT_RGBA : Word := 0x00300000
def XY_COMMAND_SOURCE_BLIT : Word := 0x54c00006
def XY_COMMAND_COLOR_BLIT : Word := 0x54000004
def XY_COMMAND_SETUP_MONO_PATTERN : Word := 0x44400007
def COMMAND_MODE_SOLID_PATTERN : BitVec 8 := 0x80
def INTEL_RING_BUFFER_HEAD_MASK : Nat := 0x001ffffc

/-! ## Commands -/

/-- What the commands take from the shared info. -/
structure SharedInfo where
  bitsPerPixel : Nat
  bytesPerRow : BitVec 16
  frameBufferOffset : Word
  /-- The overlay registers, at their physical address or in the graphics memory. -/
  overlayRegisters : Word

/-- Two halves of a word, the first at the lower address. -/
def halves (low high : BitVec 16) : Word := high ++ low

/-- `xy_command`. -/
def xyCommand (shared : SharedInfo) (opcode : Word) (rop modeBits : BitVec 8)
    (left top right bottom : BitVec 16) : List Word :=
  let (mode, opcode) := match shared.bitsPerPixel with
    | 8 => ((0x00 : BitVec 8), opcode)
    | 15 => (0x02, opcode)
    | 16 => (0x01, opcode)
    | 32 => (0x03, opcode ||| COMMAND_BLIT_RGBA)
    | _ => (0, opcode)
  [opcode, halves shared.bytesPerRow ((mode ||| modeBits) ++ rop), halves left top,
    halves right bottom, shared.frameBufferOffset]

structure BlitParams where
  srcLeft : BitVec 16
  srcTop : BitVec 16
  destLeft : BitVec 16
  destTop : BitVec 16
  width : BitVec 16
  height : BitVec 16

structure FillRectParams where
  left : BitVec 16
  top : BitVec 16
  right : BitVec 16
  bottom : BitVec 16

/-- What the users of the ring put into it while they have it. -/
inductive Call where
  /-- `intel_screen_to_screen_blit`. -/
  | screenToScreenBlit (params : List BlitParams)
  /-- `intel_fill_rectangle`. -/
  | fillRectangle (color : Word) (params : List FillRectParams)
  /-- `intel_invert_rectangle`. -/
  | invertRectangle (params : List FillRectParams)
  /-- `intel_fill_span`, which puts no more than the setup of the pattern. -/
  | fillSpan (color : Word)
  /-- `intel_wait_engine_idle`. -/
  | waitEngineIdle
  | updateOverlay (updateCoefficients : Bool)
  | showOverlay
  | hideOverlay

/-- `PutFlush`. -/
def putFlush : List Word := [COMMAND_FLUSH, COMMAND_NOOP]

/-- `PutWaitFor`. -/
def putWaitFor (event : Word) : List Word := [COMMAND_WAIT_FOR_EVENT ||| event, COMMAND_NOOP]

/-- `PutOverlayFlip`. -/
def putOverlayFlip (shared : SharedInfo) (mode : Word) (updateCoefficients : Bool) : List Word :=
  [COMMAND_OVERLAY_FLIP ||| mode,
    shared.overlayRegisters ||| if updateCoefficients then OVERLAY_UPDATE_COEFFICIENTS else 0]

def sourceBlit (shared : SharedInfo) (p : BlitParams) : List Word :=
  xyCommand shared XY_COMMAND_SOURCE_BLIT 0xcc 0 p.destLeft p.destTop (p.destLeft + p.width + 1)
      (p.destTop + p.height + 1) ++
    [halves p.srcLeft p.srcTop, halves shared.bytesPerRow 0, shared.frameBufferOffset]

def colorBlit (shared : SharedInfo) (invert : Bool) (color : Word) (p : FillRectParams) :
    List Word :=
  xyCommand shared XY_COMMAND_COLOR_BLIT (if invert then 0x55 else 0xf0) 0 p.left p.top
    (p.right + 1) (p.bottom + 1) ++ [color]

/-- The constructor leaves the foreground color and the padding before the pattern as they are on
the stack. -/
def setupMonoPattern (shared : SharedInfo) (color foreground padding : Word) : List Word :=
  xyCommand shared XY_COMMAND_SETUP_MONO_PATTERN 0xf0 COMMAND_MODE_SOLID_PATTERN 0 0 0 0 ++
    [color, foreground, padding, 0, 0]

/-- The commands of a call, each of which is put in one go. -/
def Call.puts (shared : SharedInfo) (foreground padding : Word) : Call → List (List Word)
  | .screenToScreenBlit params => params.map (sourceBlit shared)
  | .fillRectangle color params => params.map (colorBlit shared false color)
  | .invertRectangle params => params.map (colorBlit shared true 0xffffffff)
  | .fillSpan color => [setupMonoPattern shared color foreground padding]
  | .waitEngineIdle => [putFlush]
  | .updateOverlay update =>
    [putFlush, putWaitFor COMMAND_WAIT_FOR_OVERLAY_FLIP,
      putOverlayFlip shared COMMAND_OVERLAY_CONTINUE update,
      putWaitFor COMMAND_WAIT_FOR_OVERLAY_FLIP, putFlush]
  | .showOverlay => [putOverlayFlip shared COMMAND_OVERLAY_ON true, putFlush]
  | .hideOverlay =>
    [putFlush, putWaitFor COMMAND_WAIT_FOR_OVERLAY_FLIP,
      putOverlayFlip shared COMMAND_OVERLAY_CONTINUE false,
      putWaitFor COMMAND_WAIT_FOR_OVERLAY_FLIP,
      putOverlayFlip shared COMMAND_OVERLAY_OFF false, putWaitFor COMMAND_WAIT_FOR_OVERLAY_FLIP]

/-! ## The ring -/

structure RingBuffer where
  size : Nat
  position : Nat
  spaceLeft : Nat
  /-- The words at their offsets from `base`. -/
  base : Nat → Word

namespace RingBuffer

/-- `Write`. -/
def write (r : RingBuffer) (data : Word) : RingBuffer :=
  { r with
    base := Function.update r.base r.position data
    position := (r.position + 4) % 2 ^ 32 &&& (r.size - 1) }

/-- The loop of `MakeSpace` looks at the head register. -/
def lookAt (r : RingBuffer) (head : Nat) : RingBuffer :=
  let head := head &&& INTEL_RING_BUFFER_HEAD_MASK
  let head := if head ≤ r.position then head + r.size else head
  { r with spaceLeft := (head + 2 ^ 32 - r.position) % 2 ^ 32 }

/-- The end of `MakeSpace`. -/
def take (r : RingBuffer) (size : Nat) : RingBuffer :=
  { r with spaceLeft := (r.spaceLeft + 2 ^ 32 - size) % 2 ^ 32 }

end RingBuffer

/-- Where the one that holds the lock of the ring is. -/
inductive Place where
  /-- Nobody holds it. -/
  | outside
  /-- Between two commands. -/
  | queue
  /-- In `MakeSpace` for a command. -/
  | makeSpace (data : List Word)
  /-- With these words of the command still to write. -/
  | write (data : List Word)

structure State where
  ring : RingBuffer
  head : Nat
  tail : Nat
  place : Place
  /-- All the words that have been written so far. -/
  written : List Word
  /-- All the words that the hardware has taken so far. -/
  taken : List Word

/-- `setup_ring_buffer`. -/
def State.setup (size : Nat) (base : Nat → Word) : State where
  ring := ⟨size, 0, size, base⟩
  head := 0
  tail := 0
  place := .outside
  written := []
  taken := []

inductive Action where
  /-- A `QueueCommands` is made. -/
  | construct
  /-- A command is put. -/
  | put (data : List Word)
  /-- The loop of `MakeSpace` is run once. -/
  | makeSpace (stalled : Bool)
  | write
  /-- The `QueueCommands` is destroyed. -/
  | destroy
  /-- The hardware takes the word at its head. -/
  | fetch

namespace State

/-- A word is written. -/
def append (s : State) (data : Word) : State :=
  { s with ring := s.ring.write data, written := s.written ++ [data] }

/-- The number of bytes `MakeSpace` is to make space for. -/
def spaceFor (data : List Word) : Nat := data.length * 4 % 2 ^ 32

def step : Action → State → State
  | .construct, s => match s.place with
    | .outside => { s with place := .queue }
    | _ => s
  | .put data, s => match s.place with
    | .queue => { s with place := .makeSpace data }
    | _ => s
  | .makeSpace stalled, s => match s.place with
    | .makeSpace data =>
      if spaceFor data ≤ s.ring.spaceLeft then
        { s with ring := s.ring.take (spaceFor data), place := .write data }
      else
        let ring := s.ring.lookAt s.head
        if ring.spaceLeft < spaceFor data ∧ stalled then
          { s with ring := ring.take (spaceFor data), place := .write data }
        else { s with ring := ring }
    | _ => s
  | .write, s => match s.place with
    | .write [] => { s with place := .queue }
    | .write (data :: rest) => { s.append data with place := .write rest }
    | _ => s
  | .destroy, s => match s.place with
    | .queue =>
      let s := if s.ring.position &&& 0x07 ≠ 0 then s.append COMMAND_NOOP else s
      { s with tail := s.ring.position, place := .outside }
    | _ => s
  | .fetch, s =>
    if s.head = s.tail then s else
    { s with head := (s.head + 4) % s.ring.size, taken := s.taken ++ [s.ring.base s.head] }

end State

end Accelerant
end IntelGfx
