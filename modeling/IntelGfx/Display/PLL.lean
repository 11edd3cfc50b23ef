import Mathlib.Tactic.Common
import Mathlib.Algebra.Group.Nat.Defs

/-!
# The clock of a port on Skylake

`skl_ddi_calculate_wrpll` of `display/pll.cpp` and what it calls. The integers are those of the
source: `uint64` and `uint32` are taken modulo their size, and `int` is not negative here.
-/

namespace IntelGfx

namespace PLL

/-- `AbsSubtr64`. -/
def absSubtr64 (nr1 nr2 : Nat) : Nat := if nr2 ≤ nr1 then nr1 - nr2 else nr2 - nr1

def UINT64_MAX : Nat := 2 ^ 64 - 1

def SKL_DCO_MAX_PDEVIATION : Nat := 100
def SKL_DCO_MAX_NDEVIATION : Nat := 600

/-- `skl_wrpll_context`. -/
structure SklWrpllContext where
  minDeviation : Nat
  centralFreq : Nat
  dcoFreq : Nat
  p : Nat

/-- `skl_wrpll_params`. -/
structure SklWrpllParams where
  dcoFraction : Nat
  dcoInteger : Nat
  qdivRatio : Nat
  qdivMode : Nat
  kdiv : Nat
  pdiv : Nat
  centralFreq : Nat

/-- `skl_wrpll_context_init`. -/
def SklWrpllContext.init : SklWrpllContext := ⟨UINT64_MAX, 0, 0, 0⟩

/-- `skl_wrpll_try_divider`. -/
def sklWrpllTryDivider (ctx : SklWrpllContext) (centralFreq dcoFreq divider : Nat) :
    SklWrpllContext :=
  let deviation := 10000 * absSubtr64 dcoFreq centralFreq % 2 ^ 64 / centralFreq
  if centralFreq ≤ dcoFreq then
    if deviation < SKL_DCO_MAX_PDEVIATION ∧ deviation < ctx.minDeviation then
      ⟨deviation, centralFreq, dcoFreq, divider⟩
    else ctx
  else if deviation < SKL_DCO_MAX_NDEVIATION ∧ deviation < ctx.minDeviation then
    ⟨deviation, centralFreq, dcoFreq, divider⟩
  else ctx

/-- `skl_wrpll_get_multipliers`: `p0`, `p1` and `p2`, which the caller has set to zero. -/
def sklWrpllGetMultipliers (p : Nat) : Nat × Nat × Nat :=
  if p % 2 = 0 then
    let half := p / 2
    if half = 1 ∨ half = 2 ∨ half = 3 ∨ half = 5 then (2, 1, half)
    else if half % 2 = 0 then (2, half / 2, 2)
    else if half % 3 = 0 then (3, half / 3, 2)
    else if half % 7 = 0 then (7, half / 7, 2)
    else (0, 0, 0)
  else if p = 3 ∨ p = 9 then (3, 1, p / 3)
  else if p = 5 ∨ p = 7 then (p, 1, 1)
  else if p = 15 then (3, 1, 5)
  else if p = 21 then (7, 1, 3)
  else if p = 35 then (7, 1, 5)
  else (0, 0, 0)

/-- `skl_wrpll_params_populate`. A field without a case for its value is left as it is. -/
def sklWrpllParamsPopulate (params : SklWrpllParams)
    (afeClock refClock centralFreq p0 p1 p2 : Nat) : SklWrpllParams :=
  let dcoFreq := p0 * p1 * p2 % 2 ^ 32 * afeClock % 2 ^ 64
  let dcoInteger := dcoFreq / (refClock * 1000 % 2 ^ 64) % 2 ^ 32
  { centralFreq :=
      if centralFreq = 9600000000 then 0
      else if centralFreq = 9000000000 then 1
      else if centralFreq = 8400000000 then 3
      else params.centralFreq
    pdiv :=
      if p0 = 1 then 0 else if p0 = 2 then 1 else if p0 = 3 then 2 else if p0 = 7 then 4
      else params.pdiv
    kdiv :=
      if p2 = 5 then 0 else if p2 = 2 then 1 else if p2 = 3 then 2 else if p2 = 1 then 3
      else params.kdiv
    qdivRatio := p1
    qdivMode := if p1 = 1 then 0 else 1
    dcoInteger := dcoInteger
    dcoFraction :=
      (dcoFreq / (refClock / 1000) + 2 ^ 64 - dcoInteger * 1000000 % 2 ^ 64) % 2 ^ 64
        * 0x8000 % 2 ^ 64 / 1000000 % 2 ^ 32 }

def dcoCentralFreq : List Nat := [8400000000, 9000000000, 9600000000]

def evenDividers : List Nat :=
  [4, 6, 8, 10, 12, 14, 16, 18, 20, 24, 28, 30, 32, 36, 40, 42, 44, 48, 52, 54, 56, 60, 64, 66, 68,
    70, 72, 76, 78, 80, 84, 88, 90, 92, 96, 98]

def oddDividers : List Nat := [3, 5, 7, 9, 15, 21, 35]

/-- What the two inner loops try, a central frequency and a divider at a time. -/
def candidates (dividers : List Nat) : List (Nat × Nat) :=
  dcoCentralFreq.flatMap fun dco => dividers.map (dco, ·)

/-- The two inner loops. -/
def tryDividers (afeClock : Nat) : List (Nat × Nat) → SklWrpllContext → SklWrpllContext
  | [], ctx => ctx
  | (dco, p) :: rest, ctx =>
    let ctx := sklWrpllTryDivider ctx dco (p * afeClock % 2 ^ 64) p
    if ctx.minDeviation = 0 then ctx else tryDividers afeClock rest ctx

/-- `skl_ddi_calculate_wrpll`. -/
def sklDdiCalculateWrpll (clock refClock : Nat) (wrpllParams : SklWrpllParams) :
    Bool × SklWrpllParams :=
  let afeClock := clock * 5 % 2 ^ 64
  let ctx := tryDividers afeClock (candidates evenDividers) .init
  let ctx := if ctx.p ≠ 0 then ctx else tryDividers afeClock (candidates oddDividers) ctx
  if ctx.p = 0 then (false, wrpllParams) else
  let (p0, p1, p2) := sklWrpllGetMultipliers ctx.p
  (true, sklWrpllParamsPopulate wrpllParams afeClock refClock ctx.centralFreq p0 p1 p2)

end PLL
end IntelGfx
