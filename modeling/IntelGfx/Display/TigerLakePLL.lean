import Mathlib.Algebra.Group.Nat.Defs
import Mathlib.Tactic.Common

/-!
# The clock of a port on Tiger Lake

`ComputeHdmiDpll` of `display/TigerLakePLL.cpp`. Its floating point numbers are whole, and those
that are not too large for the oscillator are exact, so that they are natural numbers here.
-/

namespace IntelGfx

namespace TigerLakePLL

/-- The allowed values of the divider. -/
def dividerlist : List Nat :=
  [2, 4, 6, 8, 10, 12, 14, 16, 18, 20, 24, 28, 30, 32, 36, 40, 42, 44, 48, 50, 52, 54, 56, 60, 64,
    66, 68, 70, 72, 76, 78, 80, 84, 88, 90, 92, 96, 98, 100, 102, 3, 5, 7, 9, 15, 21]

def dcomin : Nat := 7998
def dcomax : Nat := 10000
def dcomid : Nat := (dcomin + dcomax) / 2

/-- What the loop keeps. -/
structure Best where
  dcocentrality : Nat
  div : Nat
  dco : Nat

/-- The loop. -/
def search (afeclk : Nat) : List Nat → Best → Best
  | [], best => best
  | div :: rest, best =>
    let dco := afeclk * div
    let dcocentrality := if dcomid ≤ dco then dco - dcomid else dcomid - dco
    if dco ≤ dcomax ∧ dcomin ≤ dco ∧ dcocentrality < best.dcocentrality then
      search afeclk rest ⟨dcocentrality, div, dco⟩
    else search afeclk rest best

structure Dividers where
  Pdiv : Nat
  Qdiv : Nat
  Kdiv : Nat
  bestdco : Nat

/-- `(5 * freq) / 1000` on `int`: the product wraps round for a clock that is too large. A negative
one is as far from the range of the oscillator as zero. -/
def afeclkOf (freq : Nat) : Nat := (Int.bmod (5 * freq) (2 ^ 32)).toNat / 1000

/-- `ComputeHdmiDpll`. What is not set stays as it is. -/
def computeHdmiDpll (freq : Nat) (out : Dividers) : Bool × Dividers :=
  let best := search (afeclkOf freq) dividerlist ⟨999999, 0, out.bestdco⟩
  let out := { out with bestdco := best.dco }
  let bestdiv := best.div
  if bestdiv ≠ 0 then
    if bestdiv % 2 = 0 then
      if bestdiv = 2 then (true, { out with Pdiv := 2, Qdiv := 1, Kdiv := 1 })
      else if bestdiv % 4 = 0 then
        (true, { out with Pdiv := 2, Qdiv := bestdiv / 4, Kdiv := 2 })
      else if bestdiv % 6 = 0 then
        (true, { out with Pdiv := 3, Qdiv := bestdiv / 6, Kdiv := 2 })
      else if bestdiv % 5 = 0 then
        (true, { out with Pdiv := 5, Qdiv := bestdiv / 10, Kdiv := 2 })
      else if bestdiv % 14 = 0 then
        (true, { out with Pdiv := 7, Qdiv := bestdiv / 14, Kdiv := 2 })
      else (true, out)
    else if bestdiv = 3 ∨ bestdiv = 5 ∨ bestdiv = 7 then
      (true, { out with Pdiv := bestdiv, Qdiv := 1, Kdiv := 1 })
    else (true, { out with Pdiv := bestdiv / 3, Qdiv := 1, Kdiv := 3 })
  else (false, out)

end TigerLakePLL
end IntelGfx
