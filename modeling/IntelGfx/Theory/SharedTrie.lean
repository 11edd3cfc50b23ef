import Mathlib.Tactic.Common
import Mathlib.Logic.Function.Basic
import Mathlib.Data.List.Basic
import Mathlib.Data.List.Induction

/-!
# Tries over shared default nodes

A trie of fixed depth lives in a heap: `next n i` is the node that entry `i` of node `n` names.
Every subtree nobody has written to is one default node per level, `scratch k` at depth `k`,
shared by all of its parents; `scratch depth` is the default leaf. A path gets nodes of its own
when something is written below it: the default node is replaced by a private copy (`graft`), and
a leaf is only ever set through a private node (`set`).

`own p` is the private node at the end of the path `p`, if it has one. Under the invariant `Inv`
the trie is a flat map from paths to leaves: `graft` changes no leaf and `set` changes one.
-/

namespace SharedTrie
variable {ν ι : Type*}

/-- The node a path leads to. -/
def follow (next : ν → ι → ν) (n : ν) (p : List ι) : ν := p.foldl next n

@[simp] theorem follow_nil (next : ν → ι → ν) (n : ν) : follow next n [] = n := rfl

@[simp] theorem follow_cons (next : ν → ι → ν) (n : ν) (i : ι) (p : List ι) :
    follow next n (i :: p) = follow next (next n i) p := rfl

theorem follow_append (next : ν → ι → ν) (n : ν) (p q : List ι) :
    follow next n (p ++ q) = follow next (follow next n p) q := List.foldl_append

/-- Private nodes form a tree below the root, apart from the default nodes; every entry of a
private node is a private node one level down or the default of that level. -/
structure Inv (next : ν → ι → ν) (depth : ℕ) (scratch : ℕ → ν) (root : ν)
    (own : List ι → Option ν) : Prop where
  root : own [] = some root
  parent : ∀ {p i}, own p = none → own (p ++ [i]) = none
  short : ∀ {p n}, own p = some n → p.length < depth
  inj : ∀ {p q n}, own p = some n → own q = some n → p = q
  apart : ∀ {p n}, own p = some n → ∀ k, 0 < k → k < depth → n ≠ scratch k
  shared : ∀ {k i}, 0 < k → k < depth → next (scratch k) i = scratch (k + 1)
  entry : ∀ {p n i}, own p = some n → p.length + 1 < depth →
    next n i = (own (p ++ [i])).getD (scratch (p.length + 1))

namespace Inv
variable {next next' : ν → ι → ν} {depth : ℕ} {scratch : ℕ → ν} {root : ν}
  {own : List ι → Option ν}

theorem prefix_own (H : Inv next depth scratch root own) {p q : List ι} (h : own p = none) :
    own (p ++ q) = none := by
  induction q using List.reverseRecOn with
  | nil => simpa using h
  | append_singleton q i ih => rw [← List.append_assoc]; exact H.parent ih

/-- A path shorter than the trie leads to its private node, or to the default of its level. -/
theorem follow_eq (H : Inv next depth scratch root own) {p : List ι} (hp : p.length < depth) :
    follow next root p = (own p).getD (scratch p.length) := by
  induction p using List.reverseRecOn with
  | nil => simp [H.root]
  | append_singleton p i ih =>
    simp only [List.length_append, List.length_cons, List.length_nil] at hp
    rw [follow_append, follow_cons, follow_nil, ih (by omega)]
    cases h : own p with
    | some n => simp [H.entry h hp]
    | none =>
      have hne : p ≠ [] := by rintro rfl; simp [H.root] at h
      have hpos := List.length_pos_iff.mpr hne
      simp [H.parent h, H.shared hpos (by omega : p.length < depth)]

theorem follow_own (H : Inv next depth scratch root own) {p : List ι} {n : ν}
    (h : own p = some n) : follow next root p = n := by
  rw [H.follow_eq (H.short h), h, Option.getD_some]

theorem follow_scratch (H : Inv next depth scratch root own) {p : List ι}
    (hp : p.length < depth) (h : own p = none) : follow next root p = scratch p.length := by
  rw [H.follow_eq hp, h, Option.getD_none]

/-- The leaf below a private node is that node's entry. -/
theorem leaf_own (H : Inv next depth scratch root own) {p : List ι} {n : ν} {i : ι}
    (h : own p = some n) : follow next root (p ++ [i]) = next n i := by
  rw [follow_append, H.follow_own h, follow_cons, follow_nil]

/-- Below a default node there is only the default leaf. -/
theorem leaf_scratch (H : Inv next depth scratch root own) {p : List ι} {i : ι}
    (hp : p.length + 1 = depth) (h : own p = none) :
    follow next root (p ++ [i]) = scratch depth := by
  have hne : p ≠ [] := by rintro rfl; simp [H.root] at h
  have hpos := List.length_pos_iff.mpr hne
  rw [follow_append, H.follow_scratch (by omega) h, follow_cons, follow_nil,
    H.shared hpos (by omega), hp]

/-- A trie in which only the root is private. -/
theorem initial (hshared : ∀ {k i}, 0 < k → k < depth → next (scratch k) i = scratch (k + 1))
    (hroot : ∀ i, next root i = scratch 1) (hapart : ∀ k, 0 < k → k < depth → root ≠ scratch k)
    (hdepth : 0 < depth) :
    Inv next depth scratch root (fun p => if p.isEmpty then some root else none) where
  root := rfl
  parent := by intro p i _; simp
  short := by
    intro p n h
    cases p with
    | nil => exact hdepth
    | cons => simp at h
  inj := by
    intro p q n hp hq
    cases p <;> cases q <;> simp_all
  apart := by
    intro p n h
    cases p with
    | nil => cases h; exact hapart
    | cons => simp at h
  shared := hshared
  entry := by
    intro p n i h hp
    cases p with
    | nil => cases h; simp [hroot]
    | cons => simp at h

end Inv

section graft
variable {next next' : ν → ι → ν} {depth : ℕ} {scratch : ℕ → ν} {root : ν}
  {own : List ι → Option ν} [DecidableEq ι]
  {p : List ι} {i : ι} {n m : ν}
  (H : Inv next depth scratch root own) (hp : own p = some n) (hd : p.length + 1 < depth)
  (hi : own (p ++ [i]) = none)
  (hm : ∀ q, own q ≠ some m) (hms : ∀ k, 0 < k → k < depth → m ≠ scratch k)
  (hcopy : ∀ j, next' m j = next (scratch (p.length + 1)) j) (hlink : next' n i = m)
  (hrest : ∀ x j, x ≠ m → (x = n → j ≠ i) → next' x j = next x j)
include H hp hd hi hm hms hcopy hlink hrest

/-- Giving the path `p ++ [i]` a private copy `m` of the default node keeps the invariant. -/
theorem Inv.graft : Inv next' depth scratch root (Function.update own (p ++ [i]) (some m)) := by
  have hnm : n ≠ m := fun h => hm p (h ▸ hp)
  refine ⟨?_, ?_, ?_, ?_, ?_, ?_, ?_⟩
  · simp [H.root]
  · intro q j hq
    rw [Function.update_apply] at hq ⊢
    split at hq
    · simp at hq
    rw [if_neg, H.parent hq]
    intro h
    rw [List.append_inj_left' h rfl, hp] at hq
    simp at hq
  · intro q x hq
    rw [Function.update_apply] at hq
    split at hq
    · next h => simpa [h] using hd
    · exact H.short hq
  · intro q r x hq hr
    rw [Function.update_apply] at hq hr
    split at hq <;> split at hr
    · next h h' => rw [h, h']
    · cases hq; exact absurd hr (hm r)
    · cases hr; exact absurd hq (hm q)
    · exact H.inj hq hr
  · intro q x hq k hk hkd
    rw [Function.update_apply] at hq
    split at hq
    · cases hq; exact hms k hk hkd
    · exact H.apart hq k hk hkd
  · intro k j hk hkd
    rw [hrest _ _ (hms k hk hkd).symm fun h => absurd h.symm (H.apart hp k hk hkd), H.shared hk hkd]
  · intro q x j hq hqd
    rw [Function.update_apply] at hq
    split at hq
    · -- the copy still names the defaults of the level below
      next h =>
      cases hq
      rw [hcopy, H.shared (by omega) hd, Function.update_apply, if_neg (by simp [h]), h,
        H.prefix_own hi]
      simp
    · next h =>
      have hxm : x ≠ m := fun h => hm q (h ▸ hq)
      rw [Function.update_apply]
      split
      · next h' =>
        have := List.append_inj' h' rfl
        have hqp := this.1
        subst hqp
        have hji : j = i := by simpa using this.2
        rw [hp] at hq
        cases hq
        rw [hji, hlink, Option.getD_some]
      · next h' =>
        rw [hrest _ _ hxm, H.entry hq hqd]
        rintro rfl rfl
        exact h' (by rw [H.inj hq hp])

/-- Giving a path a private copy of the default node changes no leaf. -/
theorem Inv.follow_graft {q : List ι} (hq : q.length = depth) :
    follow next' root q = follow next root q := by
  have H' := H.graft hp hd hi hm hms hcopy hlink hrest
  obtain ⟨r, j, rfl⟩ := q.eq_nil_or_concat'.resolve_left (by rintro rfl; simp at hq; omega)
  have hr : r.length + 1 = depth := by simpa using hq
  by_cases hrp : r = p ++ [i]
  · -- the new node is the last one on the path: its entry was copied
    subst hrp
    have h1 : follow next' root (p ++ [i] ++ [j]) = next' m j :=
      H'.leaf_own (by simp)
    rw [h1, H.leaf_scratch hr hi, hcopy, H.shared (by omega) hd]
    congr 1
    simpa using hr
  · have hown : Function.update own (p ++ [i]) (some m) r = own r := by
      simp [hrp]
    cases h : own r with
    | none => rw [H'.leaf_scratch hr (hown.trans h), H.leaf_scratch hr h]
    | some x =>
      rw [H'.leaf_own (hown.trans h), H.leaf_own h]
      refine hrest _ _ (fun hxm => hm r (hxm ▸ h)) ?_
      rintro rfl
      rw [H.inj hp h] at hd
      omega

end graft

section set
variable {next next' : ν → ι → ν} {depth : ℕ} {scratch : ℕ → ν} {root : ν}
  {own : List ι → Option ν} {p : List ι} {i : ι} {n : ν}
  (H : Inv next depth scratch root own) (hp : own p = some n) (hd : p.length + 1 = depth)
  (hrest : ∀ x j, (x = n → j ≠ i) → next' x j = next x j)
include H hp hd hrest

/-- Writing a leaf entry of a private node keeps the invariant. -/
theorem Inv.set : Inv next' depth scratch root own := by
  refine ⟨H.root, H.parent, H.short, H.inj, H.apart, ?_, ?_⟩
  · intro k j hk hkd
    rw [hrest _ _ fun h => absurd h.symm (H.apart hp k hk hkd), H.shared hk hkd]
  · intro q x j hq hqd
    rw [hrest, H.entry hq hqd]
    rintro rfl
    have := H.inj hp hq
    subst this
    omega

/-- Writing a leaf entry of a private node changes that leaf and no other. -/
theorem Inv.follow_set {q : List ι} (hq : q.length = depth) [DecidableEq ι] :
    follow next' root q = if q = p ++ [i] then next' n i else follow next root q := by
  have H' := H.set hp hd hrest
  obtain ⟨r, j, rfl⟩ := q.eq_nil_or_concat'.resolve_left (by rintro rfl; simp at hq; omega)
  have hr : r.length + 1 = depth := by simpa using hq
  split
  · next h => rw [h, H'.leaf_own hp]
  · next h =>
    cases hx : own r with
    | none => rw [H'.leaf_scratch hr hx, H.leaf_scratch hr hx]
    | some x =>
      rw [H'.leaf_own hx, H.leaf_own hx]
      refine hrest _ _ ?_
      rintro rfl rfl
      exact h (by rw [H.inj hx hp])

end set

end SharedTrie
