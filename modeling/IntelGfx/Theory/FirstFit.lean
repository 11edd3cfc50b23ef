import Mathlib.Tactic.Common

/-!
# First fit

A scan over the slots `0, 1, …` that counts how many free ones it has just passed finds the lowest
run of `count` free slots, and fails only when there is none (`firstFit_eq_some_iff`,
`firstFit_eq_none_iff`).
-/

namespace FirstFit

/-- The scan, `fuel` slots from `slot` on, after `run` free ones in a row. -/
def scan (free : Nat → Bool) (count : Nat) : (fuel slot run : Nat) → Option Nat
  | 0, _, _ => none
  | fuel + 1, slot, run =>
    if free slot then
      if run + 1 < count then scan free count fuel (slot + 1) (run + 1)
      else some (slot + 1 - count)
    else scan free count fuel (slot + 1) 0

/-- The lowest run of `count` free slots below `limit`, if there is one. -/
def firstFit (free : Nat → Bool) (count limit : Nat) : Option Nat := scan free count limit 0 0

/-- `count` free slots from `first` on, all below `limit`. -/
def IsRun (free : Nat → Bool) (count limit first : Nat) : Prop :=
  first + count ≤ limit ∧ ∀ i, i < count → free (first + i) = true

section
variable {free : Nat → Bool} {count : Nat}

/-- What the scan has established when it stands at `slot`: the last `run` slots are free, and no
run of free slots starts before them. -/
private structure Scanned (free : Nat → Bool) (count slot run : Nat) : Prop where
  lt : run < count
  le : run ≤ slot
  passed : ∀ i, slot - run ≤ i → i < slot → free i = true
  lowest : ∀ g, (∀ i, i < count → free (g + i) = true) → slot - run ≤ g

private theorem Scanned.skip {slot run : Nat} (H : Scanned free count slot run)
    (h : free slot = false) : Scanned free count (slot + 1) 0 := by
  refine ⟨Nat.lt_of_le_of_lt (Nat.zero_le _) H.lt, Nat.zero_le _, fun i h1 h2 => by omega, ?_⟩
  intro g hg
  have hge := H.lowest g hg
  have hlt := H.lt
  by_contra hc
  -- the occupied slot would lie inside the run
  have := hg (slot - g) (by omega)
  rw [show g + (slot - g) = slot by omega, h] at this
  exact absurd this (by simp)

private theorem Scanned.take {slot run : Nat} (H : Scanned free count slot run)
    (h : free slot = true) (hlt : run + 1 < count) : Scanned free count (slot + 1) (run + 1) := by
  have hle := H.le
  refine ⟨hlt, by omega, fun i h1 h2 => ?_, fun g hg => ?_⟩
  · by_cases hi : i = slot
    · rw [hi, h]
    · exact H.passed i (by omega) (by omega)
  · have := H.lowest g hg
    omega

private theorem scan_spec (fuel : Nat) {slot run : Nat} (H : Scanned free count slot run) :
    match scan free count fuel slot run with
    | some f => IsRun free count (slot + fuel) f ∧ ∀ g, IsRun free count (slot + fuel) g → f ≤ g
    | none => ∀ g, ¬ IsRun free count (slot + fuel) g := by
  induction fuel generalizing slot run with
  | zero =>
    intro g hg
    have hlow := H.lowest g hg.2
    have hlt := H.lt
    have hle := H.le
    have := hg.1
    omega
  | succ fuel ih =>
    rw [show slot + (fuel + 1) = slot + 1 + fuel by omega, scan]
    cases hf : free slot with
    | false => simpa using ih (H.skip hf)
    | true =>
      by_cases hr : run + 1 < count
      · simpa [hr] using ih (H.take hf hr)
      · have hlt := H.lt
        have hle := H.le
        have heq : count = run + 1 := by omega
        simp only [if_true, hr, if_false]
        refine ⟨⟨by omega, fun i hi => ?_⟩, fun g hg => ?_⟩
        · by_cases hs : slot + 1 - count + i = slot
          · rw [hs, hf]
          · exact H.passed _ (by omega) (by omega)
        · have := H.lowest g hg.2
          omega

private theorem firstFit_spec (free : Nat → Bool) (limit : Nat) (hc : 0 < count) :
    match firstFit free count limit with
    | some f => IsRun free count limit f ∧ ∀ g, IsRun free count limit g → f ≤ g
    | none => ∀ g, ¬ IsRun free count limit g := by
  have H : Scanned free count 0 0 :=
    ⟨hc, Nat.le_refl _, fun i _ h => by omega, fun g _ => by omega⟩
  simpa [firstFit] using scan_spec limit H

theorem firstFit_eq_some_iff {limit f : Nat} (hc : 0 < count) :
    firstFit free count limit = some f ↔
      IsRun free count limit f ∧ ∀ g, IsRun free count limit g → f ≤ g := by
  have H := firstFit_spec free limit hc
  cases h : firstFit free count limit with
  | none =>
    rw [h] at H
    exact ⟨fun h => by simp at h, fun hf => absurd hf.1 (H f)⟩
  | some g =>
    rw [h] at H
    constructor
    · intro h'
      cases h'
      exact H
    · intro hf
      rw [Nat.le_antisymm (H.2 f hf.1) (hf.2 g H.1)]

theorem firstFit_eq_none_iff {limit : Nat} (hc : 0 < count) :
    firstFit free count limit = none ↔ ∀ f, ¬ IsRun free count limit f := by
  have H := firstFit_spec free limit hc
  cases h : firstFit free count limit with
  | none => rw [h] at H; simpa using H
  | some g =>
    rw [h] at H
    exact ⟨fun h => by simp at h, fun hf => absurd H.1 (hf g)⟩

end

end FirstFit
