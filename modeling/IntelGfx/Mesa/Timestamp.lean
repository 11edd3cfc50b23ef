import IntelGfx.Mesa.IntelWinsys

/-!
# The timestamp

`DRM_IOCTL_I915_REG_READ` of `IntelWinsys.cpp`, which reads a 64-bit register by halves. The counter
runs while it is read: `content` tells what a register holds at a time, and `clock` the time of the
`n`-th register read of a process.
-/

namespace IntelGfx

namespace Winsys

def kTimestamp : Nat := 0x2358
def kTimestampUpper : Nat := 0x235c

/-- A process that reads registers, and how many it has read. -/
structure Reader (κ : Type*) where
  kernel : κ
  reads : Nat
  deriving DecidableEq

inductive Reading where
  /-- `drm_i915_reg_read::val` -/
  | value (val : BitVec 64)
  /-- `ENOTSUP` -/
  | notSupported
  /-- The driver has not read a register. -/
  | failed
  /-- The fuel has not been enough. -/
  | unfinished
  deriving DecidableEq

namespace Reader
variable {κ : Type*}

/-- `reg` -/
def reg (K : Kernel κ) (content : Nat → Nat → BitVec 32) (clock : Nat → Nat) (fd : Int)
    (offset : Nat) (r : Reader κ) : Option (BitVec 32) × Reader κ :=
  match K fd (.readRegister offset 0) r.kernel with
  | (.error _, k) => (none, { r with kernel := k })
  | (.ok _, k) => (some (content offset (clock r.reads)), ⟨k, r.reads + 1⟩)

/-- The loop of `DRM_IOCTL_I915_REG_READ`, of at most `fuel` rounds. -/
def readLoop (K : Kernel κ) (content : Nat → Nat → BitVec 32) (clock : Nat → Nat) (fd : Int) :
    (fuel : Nat) → Reader κ → Reading × Reader κ
  | 0, r => (.unfinished, r)
  | fuel + 1, r =>
    match r.reg K content clock fd kTimestampUpper with
    | (none, r) => (.failed, r)
    | (some high, r) =>
      match r.reg K content clock fd kTimestamp with
      | (none, r) => (.failed, r)
      | (some low, r) =>
        match r.reg K content clock fd kTimestampUpper with
        | (none, r) => (.failed, r)
        | (some check, r) =>
          if high ≠ check then readLoop K content clock fd fuel r else
          (.value (high.setWidth 64 <<< 32 ||| low.setWidth 64), r)

/-- `DRM_IOCTL_I915_REG_READ` -/
def regRead (K : Kernel κ) (content : Nat → Nat → BitVec 32) (clock : Nat → Nat) (fd : Int)
    (offset : BitVec 64) (fuel : Nat) (r : Reader κ) : Reading × Reader κ :=
  if offset &&& ~~~1 ≠ BitVec.ofNat 64 kTimestamp then (.notSupported, r) else
  r.readLoop K content clock fd fuel

end Reader

end Winsys

end IntelGfx
