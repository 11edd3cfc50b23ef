import Mathlib.Tactic.Common
import Mathlib.Data.List.Basic

/-!
# A search that keeps the best

The candidates are tried one after the other. One that is admitted is kept if it costs less than the
one kept before, and the search is over as soon as the one kept costs nothing.
-/

namespace KeepBest
variable {α : Type*} {admits : α → Bool} {cost : α → Nat} {l : List α} {a b : α}
  {best : Option α}

/-- A candidate is tried. -/
def keep (admits : α → Bool) (cost : α → Nat) (best : Option α) (a : α) : Option α :=
  if admits a ∧ ∀ b ∈ best, cost a < cost b then some a else best

/-- The search. -/
def scan (admits : α → Bool) (cost : α → Nat) : List α → Option α → Option α
  | [], best => best
  | a :: rest, best =>
    let best := keep admits cost best a
    if best.any (cost · = 0) then best else scan admits cost rest best

/-- `a` is the first of the candidates that are admitted and cost the least. -/
def First (admits : α → Bool) (cost : α → Nat) (l : List α) (a : α) : Prop :=
  ∃ before behind, l = before ++ a :: behind ∧ admits a ∧
    (∀ b ∈ before, admits b → cost a < cost b) ∧ ∀ b ∈ behind, admits b → cost a ≤ cost b

theorem First.mem (h : First admits cost l a) : a ∈ l ∧ admits a := by
  obtain ⟨before, behind, rfl, ha, -, -⟩ := h
  exact ⟨by simp, ha⟩

/-- No candidate that is admitted costs less. -/
theorem First.le (h : First admits cost l a) (hb : b ∈ l) (hadmits : admits b) :
    cost a ≤ cost b := by
  obtain ⟨before, behind, rfl, -, hbefore, hbehind⟩ := h
  rcases List.mem_append.mp hb with hb | hb
  · exact Nat.le_of_lt (hbefore b hb hadmits)
  rcases List.mem_cons.mp hb with rfl | hb
  · exact Nat.le_refl _
  · exact hbehind b hb hadmits

theorem First.cons_of_lt (h : First admits cost l a) (hb : admits b → cost a < cost b) :
    First admits cost (b :: l) a := by
  obtain ⟨before, behind, rfl, ha, hbefore, hbehind⟩ := h
  refine ⟨b :: before, behind, rfl, ha, fun c hc hadmits => ?_, hbehind⟩
  rcases List.mem_cons.mp hc with rfl | hc
  · exact hb hadmits
  · exact hbefore c hc hadmits

theorem keep_none : keep admits cost none a = if admits a then some a else none := by
  simp [keep]

theorem keep_some : keep admits cost (some b) a =
    if admits a ∧ cost a < cost b then some a else some b := by
  simp [keep]

/-- Nothing costs less than nothing. -/
theorem foldl_keep_of_zero (h : cost b = 0) (l : List α) :
    l.foldl (keep admits cost) (some b) = some b := by
  induction l with
  | nil => rfl
  | cons a rest ih =>
    rw [List.foldl_cons, keep_some, if_neg fun hlt => Nat.not_lt_zero _ (h ▸ hlt.2), ih]

/-- What the search makes of a candidate that is there from the start: it stays, or the first of
the others that costs the least takes its place. -/
theorem scan_some (h : scan admits cost l (some b) = best) :
    (best = some b ∧ ∀ c ∈ l, admits c → cost b ≤ cost c) ∨
      ∃ a, best = some a ∧ cost a < cost b ∧ First admits cost l a := by
  induction l generalizing b with
  | nil =>
    subst h
    exact .inl ⟨rfl, by simp⟩
  | cons a rest ih =>
    rw [scan, keep_some] at h
    split at h
    · next hkeep =>
      rw [Option.any_some] at h
      split at h
      · next hzero =>
        subst h
        refine .inr ⟨a, rfl, hkeep.2, [], rest, rfl, hkeep.1, by simp, fun c _ _ => ?_⟩
        rw [of_decide_eq_true hzero]
        exact Nat.zero_le _
      · rcases ih h with ⟨rfl, hle⟩ | ⟨c, rfl, hlt, hfirst⟩
        · exact .inr ⟨a, rfl, hkeep.2, [], rest, rfl, hkeep.1, by simp, hle⟩
        · exact .inr ⟨c, rfl, Nat.lt_trans hlt hkeep.2, hfirst.cons_of_lt fun _ => hlt⟩
    · next hkeep =>
      have hle (hadmits : admits a) : cost b ≤ cost a :=
        Nat.le_of_not_lt fun hlt => hkeep ⟨hadmits, hlt⟩
      rw [Option.any_some] at h
      split at h
      · next hzero =>
        subst h
        refine .inl ⟨rfl, fun c _ _ => ?_⟩
        rw [of_decide_eq_true hzero]
        exact Nat.zero_le _
      · rcases ih h with ⟨rfl, hrest⟩ | ⟨c, rfl, hlt, hfirst⟩
        · refine .inl ⟨rfl, fun c hc hadmits => ?_⟩
          rcases List.mem_cons.mp hc with rfl | hc
          · exact hle hadmits
          · exact hrest c hc hadmits
        · exact .inr ⟨c, rfl, hlt, hfirst.cons_of_lt fun hadmits =>
            Nat.lt_of_lt_of_le hlt (hle hadmits)⟩

/-- The search finds the first of the candidates that cost the least. -/
theorem scan_eq_some (h : scan admits cost l none = some a) : First admits cost l a := by
  induction l with
  | nil => cases h
  | cons b rest ih =>
    rw [scan, keep_none] at h
    split at h
    · next hadmits =>
      rw [Option.any_some] at h
      split at h
      · next hzero =>
        cases h
        refine ⟨[], rest, rfl, hadmits, by simp, fun c _ _ => ?_⟩
        rw [of_decide_eq_true hzero]
        exact Nat.zero_le _
      · rcases scan_some h with ⟨heq, hle⟩ | ⟨c, heq, hlt, hfirst⟩
        · cases heq
          exact ⟨[], rest, rfl, hadmits, by simp, hle⟩
        · cases heq
          exact hfirst.cons_of_lt fun _ => hlt
    · next hadmits => exact (ih h).cons_of_lt fun h => absurd h hadmits

/-- It finds none only if there is none. -/
theorem scan_eq_none_iff : scan admits cost l none = none ↔ ∀ a ∈ l, ¬ admits a := by
  induction l with
  | nil => simp [scan]
  | cons b rest ih =>
    rw [scan, keep_none]
    split
    · next hadmits =>
      refine ⟨fun h => ?_, fun h => absurd hadmits (h b List.mem_cons_self)⟩
      rw [Option.any_some] at h
      split at h
      · cases h
      · rcases scan_some h with ⟨heq, -⟩ | ⟨c, heq, -⟩ <;> cases heq
    · next hadmits =>
      simpa [hadmits] using ih

/-- The search that is over early finds what one to the end does. -/
theorem scan_eq_foldl (l : List α) (best : Option α) :
    scan admits cost l best = l.foldl (keep admits cost) best := by
  induction l generalizing best with
  | nil => rfl
  | cons a rest ih =>
    rw [List.foldl_cons, scan]
    split
    · next hzero =>
      obtain ⟨b, hb, hcost⟩ := (Option.any_eq_true _ _).mp hzero
      rw [hb]
      exact (foldl_keep_of_zero (of_decide_eq_true hcost) rest).symm
    · exact ih _

end KeepBest
