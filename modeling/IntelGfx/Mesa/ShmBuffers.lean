import IntelGfx.Mesa.Presentation

/-!
# Sizes of shared memory buffers

The sizes that `create_wayland_buffers` computes, in the widths it computes them in, and what it
passes on for each buffer.
-/

namespace IntelGfx

namespace Presentation

def SIZE_MAX : Nat := 2 ^ 64 - 1
def HAIKU_WL_BUFFER_COUNT : UInt64 := 3

structure Sizes where
  stride : UInt32
  oneSize : UInt64
  totalSize : UInt64
  deriving DecidableEq

/-- The checks of `create_wayland_buffers`. -/
def bufferSizes (width height : UInt32) : Option Sizes :=
  if width = 0 ∨ height = 0 ∨ UINT32_MAX / 4 < width.toNat then none else
  let stride := width * 4
  let oneSize := stride.toUInt64 * height.toUInt64
  let totalSize := oneSize * HAIKU_WL_BUFFER_COUNT
  if oneSize = 0 ∨ INT32_MAX < totalSize.toNat ∨ SIZE_MAX < totalSize.toNat then none else
  some ⟨stride, oneSize, totalSize⟩

/-- The cast to `int32_t`. -/
def int32 (n : Nat) : Int := (n : Int).bmod (2 ^ 32)

namespace Sizes

/-- `buffer.data` of buffer `i`, from the start of the map. -/
def data (s : Sizes) (i : Fin 3) : Nat := (s.oneSize * UInt64.ofNat i).toNat

/-- The arguments of `WL_SHM_POOL_CREATE_BUFFER`: offset, width, height and stride. -/
def arguments (s : Sizes) (width height : UInt32) (i : Fin 3) : Int × Int × Int × Int :=
  (int32 (s.data i), int32 width.toNat, int32 height.toNat, int32 s.stride.toNat)

end Sizes

end Presentation

end IntelGfx
