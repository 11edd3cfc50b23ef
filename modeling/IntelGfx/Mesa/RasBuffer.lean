import Mathlib.Tactic.Common
import Mathlib.Algebra.Group.Nat.Defs
import Mathlib.Algebra.Group.Int.Defs

/-!
# Drawing to the screen

`RasBuffer` and the direct mode of `IntelRenderer::Display`. Arithmetic on `int32` that overflows
is undefined and is `none` here. A pointer is an address, or `none` if it is null.
-/

namespace IntelGfx

namespace Renderer

/-- A value of an expression on `int32`. -/
def checked (v : Int) : Option Int := if -2 ^ 31 ≤ v ∧ v < 2 ^ 31 then some v else none

/-- `clipping_rect` -/
structure ClippingRect where
  left : Int
  top : Int
  right : Int
  bottom : Int

/-- What is read of a `BBitmap`; its bounds are of `width` times `height` pixels. -/
structure Bitmap where
  width : Int
  height : Int
  bytesPerRow : Int
  colorSpace : Nat
  bits : Int

/-- What is read of a `direct_buffer_info`. -/
structure DirectBufferInfo where
  bits : Int
  bytesPerRow : Nat
  bitsPerPixel : Nat
  pixelFormat : Nat
  windowBounds : ClippingRect
  clipList : List ClippingRect

structure RasBuffer where
  width : Int
  height : Int
  stride : Int
  orgX : Int
  orgY : Int
  colors : Option Int
  pixelFormat : Nat
  pixelSize : Int

/-- What is done for a row. -/
inductive Row where
  | memcpy (dst src : Option Int) (bytes : Int)
  | convertBits (src dst : Option Int) (srcStride dstStride : Int) (srcFormat dstFormat : Nat)
      (width : Int)
  deriving DecidableEq

namespace RasBuffer

def ofBitmap (bmp : Bitmap) : RasBuffer where
  width := bmp.width
  height := bmp.height
  stride := bmp.bytesPerRow
  orgX := 0
  orgY := 0
  colors := some bmp.bits
  pixelFormat := bmp.colorSpace
  pixelSize := bmp.bytesPerRow.tdiv bmp.width

/-- `bytes_per_row` is an `uint32`. -/
def ofInfo (info : DirectBufferInfo) : RasBuffer where
  width := 0x7fffffff
  height := 0x7fffffff
  stride := (info.bytesPerRow : Int).bmod (2 ^ 32)
  orgX := 0
  orgY := 0
  colors := some info.bits
  pixelFormat := info.pixelFormat
  pixelSize := (info.bitsPerPixel / 8 : Nat)

/-- `if (x < 0) {w += x; x = 0;}` -/
def clipLow (x w : Int) : Option (Int × Int) :=
  if x < 0 then (checked (w + x)).map (0, ·) else some (x, w)

/-- `if (x + w > width) {w = width - x;}` -/
def clipHigh (x w width : Int) : Option Int := do
  let stop ← checked (x + w)
  if stop > width then checked (width - x) else some w

/-- What `ClipSize` does to an offset and a size, in either direction. -/
def clipAxis (x w width : Int) : Option (Int × Int) := do
  let (x, w) ← clipLow x w
  (clipHigh x w width).map (x, ·)

/-- `if (x + orgX > 0) {orgX += x;} else {orgX = 0;}` -/
def clipOrg (x org : Int) : Option Int :=
  (checked (x + org)).map fun org => if org > 0 then org else 0

/-- `(y * stride) + (x * pixel_size)` -/
def offset (b : RasBuffer) (x y : Int) : Option Int := do
  let rows ← checked (y * b.stride)
  let pixels ← checked (x * b.pixelSize)
  checked (rows + pixels)

/-- The buffer becomes the part of it at an offset. -/
def part (b : RasBuffer) (x y w h : Int) : Option RasBuffer :=
  if 0 < w ∧ 0 < h then
    (b.offset x y).map fun offset =>
      { b with colors := b.colors.map (· + offset), width := w, height := h }
  else some { b with width := 0, height := 0, colors := none }

/-- `ClipSize` -/
def clipSize (b : RasBuffer) (x y w h : Int) : Option RasBuffer := do
  let (x, w) ← clipAxis x w b.width
  let (y, h) ← clipAxis y h b.height
  let b ← b.part x y w h
  let orgX ← clipOrg x b.orgX
  let orgY ← clipOrg y b.orgY
  some { b with orgX := orgX, orgY := orgY }

/-- `ClipRect` -/
def clipRect (buffer : RasBuffer) (l t r b : Int) : Option RasBuffer := do
  let w ← checked (r - l)
  let h ← checked (b - t)
  buffer.clipSize l t w h

/-- `Shift` -/
def shift (b : RasBuffer) (dx dy : Int) : Option RasBuffer := do
  let orgX ← checked (b.orgX + dx)
  let orgY ← checked (b.orgY + dy)
  some { b with orgX := orgX, orgY := orgY }

/-- The body of the loop of `Blit`, up to the pointers. -/
def blitRow (dst src : RasBuffer) (dstColors srcColors : Option Int) : Option Row :=
  if src.pixelFormat = dst.pixelFormat then
    (checked (src.width * src.pixelSize)).map (.memcpy dstColors srcColors ·)
  else some (.convertBits srcColors dstColors src.stride dst.stride src.pixelFormat
    dst.pixelFormat src.width)

/-- The loop of `Blit`, over `height` rows. -/
def blitRows (dst src : RasBuffer) : (height : Nat) → (dstColors srcColors : Option Int) →
    Option (List Row)
  | 0, _, _ => some []
  | height + 1, dstColors, srcColors => do
    let row ← blitRow dst src dstColors srcColors
    let rows ← blitRows dst src height (dstColors.map (· + dst.stride))
      (srcColors.map (· + src.stride))
    some (row :: rows)

/-- `Blit` -/
def blit (b src : RasBuffer) : Option (List Row) := do
  let x ← checked (src.orgX - b.orgX)
  let y ← checked (src.orgY - b.orgY)
  let dst ← b.clipSize x y src.width src.height
  let dx ← checked (-x)
  let dy ← checked (-y)
  let src ← src.clipSize dx dy b.width b.height
  blitRows dst src dst.height.toNat dst.colors src.colors

end RasBuffer

/-- The body of the loop of `IntelRenderer::Display`. -/
def displayClip (bitmap : Bitmap) (info : DirectBufferInfo) (clip : ClippingRect) :
    Option (List Row) := do
  let right ← checked (clip.right + 1)
  let bottom ← checked (clip.bottom + 1)
  let dstClip ← (RasBuffer.ofInfo info).clipRect clip.left clip.top right bottom
  let dx ← checked (-info.windowBounds.left)
  let dy ← checked (-info.windowBounds.top)
  let dstClip ← dstClip.shift dx dy
  dstClip.blit (.ofBitmap bitmap)

def displayClips (bitmap : Bitmap) (info : DirectBufferInfo) : List ClippingRect →
    Option (List Row)
  | [] => some []
  | clip :: clips => do
    let rows ← displayClip bitmap info clip
    let rest ← displayClips bitmap info clips
    some (rows ++ rest)

/-- `IntelRenderer::Display` in direct mode. -/
def display (bitmap : Bitmap) (fInfo : Option DirectBufferInfo) : Option (List Row) :=
  match fInfo with
  | none => some []
  | some info => displayClips bitmap info info.clipList

end Renderer

end IntelGfx
