import Mathlib.Tactic.Common
import Mathlib.Data.List.Basic
import Mathlib.Logic.Function.Basic

/-!
# Placing blocks

Blocks of fixed sizes, each at an address or, at address 0, nowhere. A list of requests says where
some of them are to be. Clearing the place of every request and then placing them one by one never
puts a block on another one, whatever was where before.
-/

namespace Placement
variable {ι : Type*} [DecidableEq ι] {size : ι → Nat} {A : ι → Nat} {i j : ι} {x : Nat}
  {r r' : ι × Nat} {requests : List (ι × Nat)}

/-- A block is placed and reaches into `[start, stop)`. -/
def Meets (size A : ι → Nat) (i : ι) (start stop : Nat) : Prop :=
  A i ≠ 0 ∧ start < A i + size i ∧ A i < stop

omit [DecidableEq ι] in
instance (start stop : Nat) : Decidable (Meets size A i start stop) :=
  inferInstanceAs (Decidable (_ ∧ _ ∧ _))

/-- No block is on another one. -/
def Separate (size A : ι → Nat) : Prop :=
  ∀ i j, A j ≠ 0 → Meets size A i (A j) (A j + size j) → i = j

/-- Nothing but the block itself is where it is to be. -/
def Free (size A : ι → Nat) (r : ι × Nat) : Prop :=
  ∀ i, i ≠ r.1 → ¬ Meets size A i r.2 (r.2 + size r.1)

/-- Two requests are for different blocks and places. -/
def Apart (size : ι → Nat) (r r' : ι × Nat) : Prop :=
  r.1 ≠ r'.1 ∧ (r.2 + size r.1 ≤ r'.2 ∨ r'.2 + size r'.1 ≤ r.2)

omit [DecidableEq ι] in
theorem Apart.symm (h : Apart size r r') : Apart size r' r := ⟨h.1.symm, h.2.symm⟩

/-! ## Clearing -/

/-- The others are taken from where a block is to be. -/
def clear (size A : ι → Nat) (r : ι × Nat) : ι → Nat := fun i =>
  if i ≠ r.1 ∧ Meets size A i r.2 (r.2 + size r.1) then 0 else A i

/-- A block that is in place needs no room. -/
theorem clear_eq_self (S : Separate size A) (hr : r.2 ≠ 0) (h : A r.1 = r.2) :
    clear size A r = A := by
  funext i
  refine if_neg fun ⟨hne, hi⟩ => hne (S i r.1 (h ▸ hr) ?_)
  rwa [h]

theorem meets_clear {start stop : Nat} :
    Meets size (clear size A r) i start stop ↔
      ¬ (i ≠ r.1 ∧ Meets size A i r.2 (r.2 + size r.1)) ∧ Meets size A i start stop := by
  unfold Meets
  rw [clear]
  split
  · next h => exact iff_of_false (fun h' => h'.1 rfl) fun h' => h'.1 h
  · next h => exact (and_iff_right h).symm

def clearAll (size A : ι → Nat) (requests : List (ι × Nat)) : ι → Nat :=
  requests.foldl (clear size) A

theorem clearAll_apply (i : ι) : clearAll size A requests i =
    if ∃ r ∈ requests, i ≠ r.1 ∧ Meets size A i r.2 (r.2 + size r.1) then 0 else A i := by
  induction requests generalizing A with
  | nil => simp [clearAll]
  | cons r requests ih =>
    change clearAll size (clear size A r) requests i = _
    rw [ih]
    simp only [List.mem_cons, exists_eq_or_imp, meets_clear]
    by_cases h : i ≠ r.1 ∧ Meets size A i r.2 (r.2 + size r.1)
    · simp [clear, h]
    · simp only [h, not_false_eq_true, true_and, false_or]
      simp only [clear, if_neg h]

theorem clearAll_free (h : r ∈ requests) : Free size (clearAll size A requests) r := by
  rintro i hne ⟨h0, hm⟩
  rw [clearAll_apply] at h0 hm
  split at h0
  · exact h0 rfl
  · next hex =>
    rw [if_neg hex] at hm
    exact hex ⟨r, h, hne, h0, hm⟩

/-! ## Placing -/

theorem Free.update (F : Free size A r) (h : Apart size r r') :
    Free size (Function.update A r'.1 r'.2) r := by
  intro i hne
  by_cases hi : i = r'.1
  · subst hi
    rintro ⟨-, h1, h2⟩
    rw [Function.update_self] at h1 h2
    have := h.2
    omega
  · rintro ⟨h0, hm⟩
    rw [Function.update_of_ne hi] at h0 hm
    exact F i hne ⟨h0, hm⟩

/-- The block itself may be taken away first. -/
theorem Free.update_self (F : Free size A r) (x : Nat) : Free size (Function.update A r.1 x) r := by
  rintro i hne ⟨h0, hm⟩
  rw [Function.update_of_ne hne] at h0 hm
  exact F i hne ⟨h0, hm⟩

def placeAll (A : ι → Nat) (requests : List (ι × Nat)) : ι → Nat :=
  requests.foldl (fun A r => Function.update A r.1 r.2) A

theorem placeAll_of_not_mem (h : ∀ r ∈ requests, r.1 ≠ i) : placeAll A requests i = A i := by
  induction requests generalizing A with
  | nil => rfl
  | cons r requests ih =>
    change placeAll (Function.update A r.1 r.2) requests i = _
    rw [ih fun r' hr' => h r' (List.mem_cons_of_mem _ hr'),
      Function.update_of_ne (h r List.mem_cons_self).symm]

theorem placeAll_of_mem (hp : requests.Pairwise (Apart size)) (h : r ∈ requests) :
    placeAll A requests r.1 = r.2 := by
  induction requests generalizing A with
  | nil => exact absurd h List.not_mem_nil
  | cons r' requests ih =>
    obtain ⟨hr', hp⟩ := List.pairwise_cons.mp hp
    change placeAll (Function.update A r'.1 r'.2) requests r.1 = _
    rcases List.mem_cons.mp h with rfl | h
    · rw [placeAll_of_not_mem fun r' h => (hr' r' h).1.symm, Function.update_self]
    · exact ih hp h

/-- Where every block is when the requests are met: a block that is not asked for stays where it
is, if it is not in the way. -/
def Realised (size A : ι → Nat) (requests : List (ι × Nat)) (A' : ι → Nat) : Prop :=
  (∀ r ∈ requests, A' r.1 = r.2) ∧
  ∀ i, (∀ r ∈ requests, r.1 ≠ i) →
    A' i = if ∃ r ∈ requests, Meets size A i r.2 (r.2 + size r.1) then 0 else A i

theorem realised_placeAll (hp : requests.Pairwise (Apart size)) :
    Realised size A requests (placeAll (clearAll size A requests) requests) := by
  refine ⟨fun r h => placeAll_of_mem hp h, fun i hi => ?_⟩
  rw [placeAll_of_not_mem hi, clearAll_apply]
  have hiff : (∃ r ∈ requests, i ≠ r.1 ∧ Meets size A i r.2 (r.2 + size r.1)) ↔
      ∃ r ∈ requests, Meets size A i r.2 (r.2 + size r.1) :=
    exists_congr fun r => and_congr_right fun h => and_iff_right (hi r h).symm
  simp only [hiff]

end Placement
