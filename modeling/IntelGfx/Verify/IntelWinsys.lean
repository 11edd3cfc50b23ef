import Mathlib.Data.List.Perm.Subperm
import IntelGfx.Mesa.IntelWinsys

/-!
# The buffer cache is purged oldest first

`Reclaimed`: what `reclaim` does, read off the buffers that it closes. `Inv`: the stamp of a buffer
is the number of its last mark, so the order of the stamps is the order of the marks.
-/

namespace IntelGfx

namespace Winsys
variable {κ : Type*} {K : Kernel κ} {fd : Int} {key : Key}

/-! ## The map -/

theorem Key.before.trans {a b c : Key} (h : a.before b) (h' : b.before c) : a.before c := by
  unfold Key.before at *
  omega

theorem Key.before.ne {a b : Key} (h : a.before b) : a ≠ b := by
  rintro rfl
  unfold Key.before at h
  omega

theorem Key.before_of_not {a b : Key} (h : ¬ a.before b) (hne : b ≠ a) : b.before a := by
  unfold Key.before at *
  have : ¬ (b.1 = a.1 ∧ b.2 = a.2) := fun e => hne (Prod.ext e.1 e.2)
  omega

/-- The entries of a map, in the order of their keys. -/
def Sorted (entries : List (Key × Buffer)) : Prop := entries.Pairwise fun a b => a.1.before b.1

theorem Sorted.unique {entries : List (Key × Buffer)} (h : Sorted entries) {bo bo' : Buffer}
    (hb : (key, bo) ∈ entries) (hb' : (key, bo') ∈ entries) : bo = bo' := by
  induction entries with
  | nil => exact nomatch hb
  | cons e entries ih =>
    obtain ⟨he, h⟩ := List.pairwise_cons.mp h
    rcases List.mem_cons.mp hb with rfl | hb <;> rcases List.mem_cons.mp hb' with e' | hb'
    · exact (Prod.mk.inj e').2.symm
    · exact absurd rfl (he _ hb').ne
    · rw [← e'] at he
      exact absurd rfl (he _ hb).ne
    · exact ih h hb hb'

namespace Adapter

theorem mem_insert {bo : Buffer} {entries : List (Key × Buffer)} (h : Sorted entries)
    {e : Key × Buffer} :
    e ∈ insert key bo entries ↔ e = (key, bo) ∨ e ∈ entries ∧ e.1 ≠ key := by
  induction entries with
  | nil => simp [insert]
  | cons x entries ih =>
    obtain ⟨hx, h⟩ := List.pairwise_cons.mp h
    rw [insert]
    split
    · rename_i hb
      have hne : ∀ y ∈ x :: entries, y.1 ≠ key := by
        intro y hy
        rcases List.mem_cons.mp hy with rfl | hy
        · exact hb.ne.symm
        · exact (hb.trans (hx y hy)).ne.symm
      rw [List.mem_cons]
      exact or_congr_right ⟨fun hy => ⟨hy, hne e hy⟩, And.left⟩
    split
    · rename_i hk
      have hne : ∀ y ∈ entries, y.1 ≠ key := fun y hy => hk ▸ (hx y hy).ne.symm
      rw [List.mem_cons, List.mem_cons]
      refine or_congr_right ⟨fun hy => ⟨.inr hy, hne e hy⟩, ?_⟩
      rintro ⟨rfl | hy, hne⟩
      · exact absurd hk hne
      · exact hy
    · rename_i hk
      rw [List.mem_cons, ih h, List.mem_cons]
      constructor
      · rintro (rfl | rfl | ⟨hy, hne⟩)
        · exact .inr ⟨.inl rfl, hk⟩
        · exact .inl rfl
        · exact .inr ⟨.inr hy, hne⟩
      · rintro (rfl | ⟨rfl | hy, hne⟩)
        · exact .inr (.inl rfl)
        · exact .inl rfl
        · exact .inr (.inr ⟨hy, hne⟩)

theorem insert_sorted {bo : Buffer} {entries : List (Key × Buffer)} (h : Sorted entries) :
    Sorted (insert key bo entries) := by
  induction entries with
  | nil => exact List.pairwise_singleton ..
  | cons x entries ih =>
    obtain ⟨hx, ht⟩ := List.pairwise_cons.mp h
    rw [insert]
    split
    · rename_i hb
      refine List.pairwise_cons.mpr ⟨fun y hy => ?_, h⟩
      rcases List.mem_cons.mp hy with rfl | hy
      · exact hb
      · exact hb.trans (hx y hy)
    split
    · rename_i hk
      exact List.pairwise_cons.mpr ⟨fun y hy => hk ▸ hx y hy, ht⟩
    · rename_i hb hk
      refine List.pairwise_cons.mpr ⟨fun y hy => ?_, ih ht⟩
      rcases (mem_insert ht).mp hy with rfl | ⟨hy, -⟩
      · exact Key.before_of_not hb hk
      · exact hx y hy

theorem map_sorted {entries : List (Key × Buffer)} (h : Sorted entries)
    {f : Key × Buffer → Key × Buffer} (hf : ∀ e, (f e).1 = e.1) : Sorted (entries.map f) := by
  refine List.pairwise_map.mpr (h.imp fun hb => ?_)
  rw [hf, hf]
  exact hb

theorem buffer_eq_some {a : Adapter κ} (h : Sorted a.buffers) {bo : Buffer} :
    a.buffer key = some bo ↔ (key, bo) ∈ a.buffers := by
  rw [buffer]
  generalize a.buffers = entries at h
  induction entries with
  | nil => simp
  | cons x entries ih =>
    obtain ⟨k, b⟩ := x
    obtain ⟨hx, h⟩ := List.pairwise_cons.mp h
    rw [List.lookup_cons, List.mem_cons]
    by_cases hk : key = k
    · subst hk
      rw [BEq.rfl]
      simp only [Option.some.injEq, Prod.mk.injEq, true_and]
      constructor
      · rintro rfl
        exact .inl rfl
      · rintro (rfl | hb)
        · rfl
        · exact absurd rfl (hx _ hb).ne
    · have hne : (key == k) = false := by simpa using hk
      rw [hne]
      simp only [ih h, Prod.mk.injEq, hk, false_and, false_or]

/-! ## The search -/

/-- The search has seen all cached entries of `seen`, and its candidate is the oldest. -/
private theorem oldest_foldl (fd : Int) (entries seen : List (Key × Buffer))
    (best : Option (Key × Buffer))
    (hs : ∀ e, best = some e → e ∈ seen ∧ cached fd e = true ∧
      ∀ e' ∈ seen, cached fd e' = true → e.2.stamp ≤ e'.2.stamp)
    (hn : best = none → ∀ e ∈ seen, cached fd e = false) :
    let r := entries.foldl (fun oldest entry =>
      if !cached fd entry then oldest else
      match oldest with
      | none => some entry
      | some old => if entry.2.stamp < old.2.stamp then some entry else some old) best
    (∀ e, r = some e → e ∈ seen ++ entries ∧ cached fd e = true ∧
      ∀ e' ∈ seen ++ entries, cached fd e' = true → e.2.stamp ≤ e'.2.stamp) ∧
      (r = none → ∀ e ∈ seen ++ entries, cached fd e = false) := by
  induction entries generalizing seen best with
  | nil =>
    rw [List.append_nil]
    exact ⟨hs, hn⟩
  | cons x entries ih =>
    have ih := ih (seen ++ [x])
    simp only [List.append_assoc, List.singleton_append] at ih
    rw [List.foldl_cons]
    refine ih _ ?_ ?_
    · intro e he
      cases hx : cached fd x with
      | false =>
        simp only [hx, Bool.not_false, if_true] at he
        obtain ⟨h₁, h₂, h₃⟩ := hs e he
        refine ⟨List.mem_append_left _ h₁, h₂, fun e' he' hc => ?_⟩
        rcases List.mem_append.mp he' with he' | he'
        · exact h₃ e' he' hc
        · obtain rfl := List.mem_singleton.mp he'
          exact absurd (hx.symm.trans hc) (by simp)
      | true =>
        simp only [hx, Bool.not_true, Bool.false_eq_true, if_false] at he
        cases best with
        | none =>
          obtain rfl := Option.some.inj he
          refine ⟨by simp, hx, fun e' he' hc => ?_⟩
          rcases List.mem_append.mp he' with he' | he'
          · exact absurd ((hn rfl e' he').symm.trans hc) (by simp)
          · obtain rfl := List.mem_singleton.mp he'
            exact Nat.le_refl _
        | some old =>
          obtain ⟨h₁, h₂, h₃⟩ := hs old rfl
          dsimp only at he
          split at he
          · rename_i hlt
            obtain rfl := Option.some.inj he
            refine ⟨by simp, hx, fun e' he' hc => ?_⟩
            rcases List.mem_append.mp he' with he' | he'
            · exact Nat.le_trans (Nat.le_of_lt hlt) (h₃ e' he' hc)
            · obtain rfl := List.mem_singleton.mp he'
              exact Nat.le_refl _
          · rename_i hlt
            obtain rfl := Option.some.inj he
            refine ⟨List.mem_append_left _ h₁, h₂, fun e' he' hc => ?_⟩
            rcases List.mem_append.mp he' with he' | he'
            · exact h₃ e' he' hc
            · obtain rfl := List.mem_singleton.mp he'
              exact Nat.le_of_not_lt hlt
    · intro hnone e he
      cases hx : cached fd x with
      | false =>
        simp only [hx, Bool.not_false, if_true] at hnone
        rcases List.mem_append.mp he with he | he
        · exact hn hnone e he
        · obtain rfl := List.mem_singleton.mp he
          exact hx
      | true =>
        simp only [hx, Bool.not_true, Bool.false_eq_true, if_false] at hnone
        cases best with
        | none => exact nomatch hnone
        | some old =>
          dsimp only at hnone
          split at hnone
          · exact nomatch hnone
          · exact nomatch hnone

theorem oldest_some {entries : List (Key × Buffer)} {e : Key × Buffer}
    (h : oldest fd entries = some e) : e ∈ entries ∧ cached fd e = true ∧
      ∀ e' ∈ entries, cached fd e' = true → e.2.stamp ≤ e'.2.stamp :=
  (oldest_foldl fd entries [] none nofun nofun).1 e h

theorem oldest_none {entries : List (Key × Buffer)} (h : oldest fd entries = none) :
    ∀ e ∈ entries, cached fd e = false :=
  (oldest_foldl fd entries [] none nofun nofun).2 h

/-! ## `reclaim` -/

/-- The entries of `closed` have been purged, in this order, and the driver would not close the one
of `refused`. -/
structure Reclaimed (fd : Int) (bytes count : Nat) (a a' : Adapter κ)
    (closed : List (Key × Buffer)) (refused : Option Key) : Prop where
  trace : a'.trace = refused.toList.map (Event.close · false) ++
    ((closed.map (Event.close ·.1 true)).reverse ++ a.trace)
  clock : a'.purgeClock = a.purgeClock
  buffers : a'.buffers = a.buffers.map fun e => if e ∈ closed then (e.1, purge e.2) else e
  /-- Nothing is closed but cached buffers of the descriptor. -/
  mine : ∀ e ∈ closed, e ∈ a.buffers ∧ cached fd e = true
  once : closed.Nodup
  /-- What is closed was marked before what stays. -/
  oldest : ∀ e ∈ closed, ∀ e' ∈ a.buffers, cached fd e' = true → e' ∉ closed →
    e.2.stamp ≤ e'.2.stamp
  sorted : closed.Pairwise fun e e' => e.2.stamp ≤ e'.2.stamp
  /-- What is refused was next. -/
  next : ∀ key', refused = some key' → ∃ bo, (key', bo) ∈ a.buffers ∧ cached fd (key', bo) = true ∧
    (key', bo) ∉ closed ∧
    ∀ e' ∈ a.buffers, cached fd e' = true → e' ∉ closed → bo.stamp ≤ e'.2.stamp
  /-- Before each call to close one, the request was not met. -/
  few : ∀ n, n < closed.length ∨ n = closed.length ∧ refused ≠ none →
    n < count ∨ ((closed.take n).map (·.2.size)).sum < bytes
  /-- In the end it is met, or there is nothing left, or the driver has refused. -/
  enough : count ≤ closed.length ∧ bytes ≤ (closed.map (·.2.size)).sum ∨
    (∀ e ∈ a.buffers, cached fd e = true → e ∈ closed) ∨ refused ≠ none

theorem cached_purge (k : Key) (bo : Buffer) : cached fd (k, purge bo) = false := by
  simp [cached, purge]

/-- Purging the entry of a key that is there once. -/
theorem modify_purge {a : Adapter κ} (hs : Sorted a.buffers) {e : Key × Buffer}
    (he : e ∈ a.buffers) : (a.modify e.1 purge).buffers =
      a.buffers.map fun x => if x = e then (x.1, purge x.2) else x := by
  refine List.map_congr_left fun x hx => ?_
  by_cases hk : x.1 = e.1
  · have hxe : x = e := Prod.ext hk (hs.unique (hk ▸ hx : (e.1, x.2) ∈ a.buffers) he)
    rw [if_pos hk, if_pos hxe]
  · rw [if_neg hk, if_neg fun h => hk (congrArg Prod.fst h)]

theorem call_eq {request : Request} {r : Except Error Reply} {a a' : Adapter κ}
    (h : a.call K fd request = (r, a')) :
    a'.buffers = a.buffers ∧ a'.purgeClock = a.purgeClock ∧ a'.trace = a.trace := by
  obtain ⟨-, rfl⟩ := Prod.mk.inj h
  exact ⟨rfl, rfl, rfl⟩

/-- Nothing is closed. -/
theorem Reclaimed.nothing {bytes count : Nat} {a a' : Adapter κ} {refused : Option Key}
    (hb : a'.buffers = a.buffers) (hclock : a'.purgeClock = a.purgeClock)
    (ht : a'.trace = refused.toList.map (Event.close · false) ++ a.trace)
    (hnext : ∀ key', refused = some key' → (0 < count ∨ 0 < bytes) ∧ ∃ bo, (key', bo) ∈ a.buffers ∧
      cached fd (key', bo) = true ∧ ∀ e' ∈ a.buffers, cached fd e' = true → bo.stamp ≤ e'.2.stamp)
    (henough : count = 0 ∧ bytes = 0 ∨ (∀ e ∈ a.buffers, cached fd e = false) ∨ refused ≠ none) :
    Reclaimed fd bytes count a a' [] refused := by
  refine ⟨ht, hclock, ?_, nofun, .nil, nofun, .nil, ?_, ?_, ?_⟩
  · rw [hb]
    simp
  · intro key' h
    obtain ⟨-, bo, h₁, h₂, h₃⟩ := hnext key' h
    exact ⟨bo, h₁, h₂, List.not_mem_nil, fun e' he' hc _ => h₃ e' he' hc⟩
  · rintro n (hn | ⟨rfl, hr⟩)
    · exact absurd hn (Nat.not_lt_zero _)
    · obtain ⟨key', hk⟩ := Option.ne_none_iff_exists'.mp hr
      exact (hnext key' hk).1
  · rcases henough with ⟨rfl, rfl⟩ | h | h
    · exact .inl ⟨Nat.le_refl _, Nat.le_refl _⟩
    · exact .inr (.inl fun e he hc => absurd ((h e he).symm.trans hc) (by simp))
    · exact .inr (.inr h)

/-- What is cached once an entry has been purged. -/
theorem mem_purged {entries : List (Key × Buffer)} {e x : Key × Buffer} :
    (x ∈ entries.map (fun x => if x = e then (x.1, purge x.2) else x) ∧ cached fd x = true) ↔
      x ∈ entries ∧ cached fd x = true ∧ x ≠ e := by
  constructor
  · rintro ⟨hx, hc⟩
    obtain ⟨y, hy, rfl⟩ := List.mem_map.mp hx
    by_cases hye : y = e
    · rw [if_pos hye, cached_purge] at hc
      exact nomatch hc
    · rw [if_neg hye] at hc ⊢
      exact ⟨hy, hc, hye⟩
  · rintro ⟨hx, hc, hne⟩
    exact ⟨List.mem_map.mpr ⟨x, hx, if_neg hne⟩, hc⟩

theorem countP_purged {entries : List (Key × Buffer)} {e : Key × Buffer} (he : e ∈ entries)
    (hc : cached fd e = true) :
    (entries.map fun x => if x = e then (x.1, purge x.2) else x).countP (cached fd) <
      entries.countP (cached fd) := by
  have hle (l : List (Key × Buffer)) :
      (l.map fun x => if x = e then (x.1, purge x.2) else x).countP (cached fd) ≤
        l.countP (cached fd) := by
    rw [List.countP_map]
    refine List.countP_mono_left fun x _ hx => ?_
    rw [Function.comp_apply] at hx
    split at hx
    · rw [cached_purge] at hx
      exact nomatch hx
    · exact hx
  induction entries with
  | nil => exact nomatch he
  | cons x entries ih =>
    rw [List.map_cons]
    by_cases hx : x = e
    · subst hx
      rw [if_pos rfl, List.countP_cons_of_neg (by simp [cached_purge]), List.countP_cons_of_pos hc]
      exact Nat.lt_succ_of_le (hle entries)
    · rw [if_neg hx]
      have ih := ih ((List.mem_cons.mp he).resolve_left (Ne.symm hx))
      rw [List.countP_cons, List.countP_cons]
      exact Nat.add_lt_add_right ih _

/-- The oldest entry is closed, and then the rest is reclaimed. -/
theorem Reclaimed.cons {bytes count : Nat} {a a₁ a' : Adapter κ} {e : Key × Buffer}
    {closed : List (Key × Buffer)} {refused : Option Key}
    (he : e ∈ a.buffers) (hce : cached fd e = true)
    (hmin : ∀ e' ∈ a.buffers, cached fd e' = true → e.2.stamp ≤ e'.2.stamp)
    (hc : 0 < count ∨ 0 < bytes)
    (hb : a₁.buffers = a.buffers.map fun x => if x = e then (x.1, purge x.2) else x)
    (hclock : a₁.purgeClock = a.purgeClock) (ht : a₁.trace = .close e.1 true :: a.trace)
    (R : Reclaimed fd (bytes - e.2.size) (count - 1) a₁ a' closed refused) :
    Reclaimed fd bytes count a a' (e :: closed) refused := by
  have hmem {x : Key × Buffer} : (x ∈ a₁.buffers ∧ cached fd x = true) ↔
      x ∈ a.buffers ∧ cached fd x = true ∧ x ≠ e := by
    rw [hb]
    exact mem_purged
  have hmine {x : Key × Buffer} (hx : x ∈ closed) : x ∈ a.buffers ∧ cached fd x = true ∧ x ≠ e :=
    hmem.mp (R.mine x hx)
  refine ⟨?_, R.clock.trans hclock, ?_, ?_, ?_, ?_, ?_, ?_, ?_, ?_⟩
  · rw [R.trace, ht, List.map_cons, List.reverse_cons, List.append_assoc, List.singleton_append]
  · rw [R.buffers, hb, List.map_map]
    refine List.map_congr_left fun x hx => ?_
    rw [Function.comp_apply]
    by_cases hxe : x = e
    · subst hxe
      rw [if_pos rfl, if_pos List.mem_cons_self, if_neg]
      intro hin
      exact absurd (R.mine _ hin).2 (by simp [cached_purge])
    · rw [if_neg hxe]
      simp only [List.mem_cons, hxe, false_or]
  · intro x hx
    rcases List.mem_cons.mp hx with rfl | hx
    · exact ⟨he, hce⟩
    · exact ⟨(hmine hx).1, (hmine hx).2.1⟩
  · exact List.nodup_cons.mpr ⟨fun h => (hmine h).2.2 rfl, R.once⟩
  · intro x hx e' he' hc' hnot
    rw [List.mem_cons, not_or] at hnot
    rcases List.mem_cons.mp hx with rfl | hx
    · exact hmin e' he' hc'
    · obtain ⟨h₁, h₂⟩ := hmem.mpr ⟨he', hc', hnot.1⟩
      exact R.oldest x hx e' h₁ h₂ hnot.2
  · refine List.pairwise_cons.mpr ⟨fun x hx => ?_, R.sorted⟩
    exact hmin x (hmine hx).1 (hmine hx).2.1
  · intro k hk
    obtain ⟨bo, hbo, hcb, hnot, hold⟩ := R.next k hk
    obtain ⟨h₁, h₂, h₃⟩ := hmem.mp ⟨hbo, hcb⟩
    refine ⟨bo, h₁, h₂, fun h => ?_, fun e' he' hc' hn => ?_⟩
    · rcases List.mem_cons.mp h with h | h
      · exact h₃ h
      · exact hnot h
    · rw [List.mem_cons, not_or] at hn
      obtain ⟨h₄, h₅⟩ := hmem.mpr ⟨he', hc', hn.1⟩
      exact hold e' h₄ h₅ hn.2
  · intro n hn
    cases n with
    | zero => exact hc
    | succ n =>
      have h := R.few n (by simpa using hn)
      rw [List.take_succ_cons, List.map_cons, List.sum_cons]
      omega
  · rcases R.enough with h | h | h
    · left
      rw [List.map_cons, List.sum_cons, List.length_cons]
      omega
    · refine .inr (.inl fun x hx hcx => ?_)
      by_cases hxe : x = e
      · exact hxe ▸ List.mem_cons_self
      · obtain ⟨h₁, h₂⟩ := hmem.mpr ⟨hx, hcx, hxe⟩
        exact List.mem_cons_of_mem _ (h x h₁ h₂)
    · exact .inr (.inr h)

theorem reclaimLoop_spec {bytes count fuel freed purged : Nat} {a : Adapter κ}
    (hs : Sorted a.buffers) (hf : a.buffers.countP (cached fd) < fuel) :
    ∃ closed refused,
      (reclaimLoop K fd bytes count fuel freed purged a).1 = purged + closed.length ∧
        Reclaimed fd (bytes - freed) (count - purged) a
          (reclaimLoop K fd bytes count fuel freed purged a).2 closed refused := by
  induction fuel generalizing freed purged a with
  | zero => exact absurd hf (Nat.not_lt_zero _)
  | succ fuel ih =>
    rw [reclaimLoop]
    by_cases hc : purged < count ∨ freed < bytes
    · rw [if_pos hc]
      cases ho : oldest fd a.buffers with
      | none =>
        exact ⟨[], none, rfl, .nothing rfl rfl rfl nofun (.inr (.inl (oldest_none ho)))⟩
      | some e =>
        obtain ⟨k, bo⟩ := e
        obtain ⟨he, hce, hmin⟩ := oldest_some ho
        dsimp only
        generalize hcall : a.call K fd (.closeBuffer k.2 0) = r
        obtain ⟨r, a₁⟩ := r
        obtain ⟨hb, hclock, ht⟩ := call_eq hcall
        cases r with
        | error =>
          refine ⟨[], some k, rfl, .nothing hb hclock (congrArg _ ht) ?_ (.inr (.inr nofun))⟩
          intro k' hk
          obtain rfl := Option.some.inj hk
          exact ⟨by omega, bo, he, hce, hmin⟩
        | ok =>
          have hs₁ : Sorted a₁.buffers := hb ▸ hs
          have hm : ({ a₁ with trace := .close k true :: a₁.trace }.modify k purge).buffers =
              a.buffers.map fun x => if x = (k, bo) then (x.1, purge x.2) else x := by
            rw [← hb]
            exact modify_purge hs₁ (e := (k, bo)) (hb ▸ he)
          have ht₁ : ({ a₁ with trace := .close k true :: a₁.trace }.modify k purge).trace =
              .close k true :: a.trace := congrArg _ ht
          have hlt := countP_purged he hce
          rw [← hm] at hlt
          obtain ⟨closed, refused, hn, R⟩ := @ih (freed + bo.size) (purged + 1) _
            (map_sorted hs₁ fun x => by split <;> rfl)
            (Nat.lt_of_lt_of_le hlt (Nat.le_of_lt_succ hf))
          refine ⟨(k, bo) :: closed, refused, ?_, ?_⟩
          · rw [List.length_cons]
            exact hn.trans (by omega)
          · rw [← Nat.sub_sub, ← Nat.sub_sub] at R
            exact .cons he hce hmin (by omega) hm hclock ht₁ R
    · rw [if_neg hc]
      exact ⟨[], none, rfl, .nothing rfl rfl rfl nofun (.inl ⟨by omega, by omega⟩)⟩

theorem reclaim_spec (K : Kernel κ) (fd : Int) (bytes count : Nat) {a : Adapter κ}
    (hs : Sorted a.buffers) :
    ∃ closed refused, (a.reclaim K fd bytes count).1 = closed.length ∧
      Reclaimed fd bytes count a (a.reclaim K fd bytes count).2 closed refused := by
  obtain ⟨closed, refused, hn, R⟩ := @reclaimLoop_spec _ K fd bytes count _ 0 0 a hs
    (Nat.lt_succ_of_le List.countP_le_length)
  exact ⟨closed, refused, hn.trans (Nat.zero_add _), R⟩

/-! ### What is left -/

namespace Reclaimed
variable {bytes count : Nat} {a a' : Adapter κ} {closed : List (Key × Buffer)}
  {refused : Option Key}

theorem mem_trace (R : Reclaimed fd bytes count a a' closed refused) {e : Event}
    (he : e ∈ a.trace) : e ∈ a'.trace := by
  rw [R.trace]
  exact List.mem_append_right _ (List.mem_append_right _ he)

/-- Nothing becomes cached. -/
theorem countP_le (R : Reclaimed fd bytes count a a' closed refused) (fd' : Int) :
    a'.buffers.countP (cached fd') ≤ a.buffers.countP (cached fd') := by
  rw [R.buffers, List.countP_map]
  refine List.countP_mono_left fun x _ hx => ?_
  rw [Function.comp_apply] at hx
  split at hx
  · rw [cached_purge] at hx
    exact nomatch hx
  · exact hx

/-- Of the descriptor's cached buffers, the ones closed are gone. -/
theorem countP_eq (R : Reclaimed fd bytes count a a' closed refused) (hs : Sorted a.buffers) :
    a'.buffers.countP (cached fd) + closed.length = a.buffers.countP (cached fd) := by
  have hnodup : a.buffers.Nodup := hs.imp fun hb e => hb.ne (congrArg Prod.fst e)
  have hclosed : (a.buffers.filter fun x => decide (x ∈ closed)).Perm closed := by
    refine (List.perm_ext_iff_of_nodup (hnodup.filter _) R.once).mpr fun x => ?_
    rw [List.mem_filter, decide_eq_true_iff]
    exact ⟨And.right, fun hx => ⟨(R.mine x hx).1, hx⟩⟩
  have hin : (a.buffers.filter fun x => decide (x ∈ closed)).countP (cached fd) =
      closed.length := by
    rw [hclosed.countP_eq, List.countP_eq_length]
    exact fun x hx => (R.mine x hx).2
  have hout : a'.buffers.countP (cached fd) =
      (a.buffers.filter fun x => !decide (x ∈ closed)).countP (cached fd) := by
    rw [R.buffers, List.countP_map, List.countP_filter]
    refine List.countP_congr fun x _ => ?_
    rw [Function.comp_apply]
    by_cases hx : x ∈ closed
    · rw [if_pos hx, cached_purge]
      simp [hx]
    · rw [if_neg hx]
      simp [hx]
  have h := List.countP_eq_countP_filter_add a.buffers (cached fd) fun x => decide (x ∈ closed)
  rw [h, hin, hout, Nat.add_comm]

theorem sorted_after (R : Reclaimed fd bytes count a a' closed refused) (hs : Sorted a.buffers) :
    Sorted a'.buffers := by
  rw [R.buffers]
  refine map_sorted hs fun x => ?_
  split
  · rfl
  · rfl

/-- What is left is as it was. -/
theorem mem_after (R : Reclaimed fd bytes count a a' closed refused) {e : Key × Buffer}
    (h : e ∈ a'.buffers) : e ∈ a.buffers ∨ ∃ bo, (e.1, bo) ∈ a.buffers ∧ e.2 = purge bo := by
  rw [R.buffers] at h
  obtain ⟨x, hx, rfl⟩ := List.mem_map.mp h
  split
  · exact .inr ⟨x.2, hx, rfl⟩
  · exact .inl hx

end Reclaimed

end Adapter

/-! ## Marks -/

/-- How many marks there have been. -/
def marks : List Event → Nat
  | [] => 0
  | .mark _ :: events => marks events + 1
  | _ :: events => marks events

/-- Which of all marks was the last one of a buffer, if it was marked. -/
def lastMark (key : Key) : List Event → Nat
  | [] => 0
  | .mark k :: events => if k = key then marks events + 1 else lastMark key events
  | _ :: events => lastMark key events

/-- Whether the last madvise of a buffer, since it was entered, has marked it. -/
def lastMadvise (key : Key) : List Event → Bool
  | [] => false
  | .mark k :: events => if k = key then true else lastMadvise key events
  | .unmark k :: events | .add k :: events => if k = key then false else lastMadvise key events
  | .close .. :: events => lastMadvise key events

theorem lastMark_le (key : Key) (events : List Event) : lastMark key events ≤ marks events := by
  induction events with
  | nil => exact Nat.le_refl 0
  | cons e events ih =>
    cases e with
    | mark k =>
      rw [lastMark, marks]
      split
      · exact Nat.le_refl _
      · exact Nat.le_succ_of_le ih
    | add | unmark | close => exact ih

theorem marks_closes {events rest : List Event} (h : ∀ e ∈ events, ∃ key b, e = .close key b) :
    marks (events ++ rest) = marks rest ∧ ∀ key,
      lastMark key (events ++ rest) = lastMark key rest ∧
        lastMadvise key (events ++ rest) = lastMadvise key rest := by
  induction events with
  | nil => exact ⟨rfl, fun _ => ⟨rfl, rfl⟩⟩
  | cons e events ih =>
    obtain ⟨key, b, rfl⟩ := h e List.mem_cons_self
    exact ih fun e he => h e (List.mem_cons_of_mem _ he)

/-- A buffer is marked if its last madvise has marked it, and its stamp is then the number of that
mark. -/
structure Inv (a : Adapter κ) : Prop where
  sorted : Sorted a.buffers
  clock : a.purgeClock = marks a.trace
  flag : ∀ {key bo}, (key, bo) ∈ a.buffers → bo.purgeable = lastMadvise key a.trace
  stamp : ∀ {key bo}, (key, bo) ∈ a.buffers → bo.purgeable = true →
    bo.stamp = lastMark key a.trace ∧ 0 < bo.stamp

namespace Inv
variable {a a' : Adapter κ}

theorem cached (I : Inv a) {e : Key × Buffer} (he : e ∈ a.buffers)
    (hc : Adapter.cached fd e = true) : e.1.1 = fd ∧ lastMadvise e.1 a.trace = true ∧
      e.2.stamp = lastMark e.1 a.trace ∧ 0 < e.2.stamp := by
  simp only [Adapter.cached, Bool.and_eq_true, decide_eq_true_eq] at hc
  exact ⟨hc.1.1, (I.flag he).symm.trans hc.1.2, I.stamp he hc.1.2⟩

/-- The kernel makes no difference. -/
theorem kernel (I : Inv a) (k : κ) : Inv { a with kernel := k } :=
  ⟨I.sorted, I.clock, I.flag, I.stamp⟩

theorem of_eq (I : Inv a) (h : a'.buffers = a.buffers ∧ a'.purgeClock = a.purgeClock ∧
    a'.trace = a.trace) : Inv a' := by
  obtain ⟨h₁, h₂, h₃⟩ := h
  refine ⟨h₁ ▸ I.sorted, ?_, fun he => ?_, fun he hp => ?_⟩
  · rw [h₂, h₃, I.clock]
  · rw [h₁] at he
    rw [h₃]
    exact I.flag he
  · rw [h₁] at he
    rw [h₃]
    exact I.stamp he hp

theorem mark (I : Inv a) (key : Key) : Inv (a.mark key) := by
  refine ⟨Adapter.map_sorted I.sorted fun x => by split <;> rfl, ?_, ?_, ?_⟩
  · exact congrArg (· + 1) I.clock
  · intro key' bo he
    obtain ⟨x, hx, he⟩ := List.mem_map.mp he
    change bo.purgeable = lastMadvise key' (.mark key :: a.trace)
    rw [lastMadvise]
    by_cases hk : x.1 = key
    · rw [if_pos hk] at he
      obtain ⟨rfl, rfl⟩ := Prod.mk.inj he
      rw [if_pos hk.symm]
    · rw [if_neg hk] at he
      subst he
      rw [if_neg (Ne.symm hk)]
      exact I.flag hx
  · intro key' bo he hp
    obtain ⟨x, hx, he⟩ := List.mem_map.mp he
    change bo.stamp = lastMark key' (.mark key :: a.trace) ∧ _
    rw [lastMark]
    by_cases hk : x.1 = key
    · rw [if_pos hk] at he
      obtain ⟨rfl, rfl⟩ := Prod.mk.inj he
      rw [if_pos hk.symm, ← I.clock]
      exact ⟨rfl, Nat.succ_pos _⟩
    · rw [if_neg hk] at he
      subst he
      rw [if_neg (Ne.symm hk)]
      exact I.stamp hx hp

theorem unmark (I : Inv a) (key : Key) : Inv (a.unmark key) := by
  refine ⟨Adapter.map_sorted I.sorted fun x => by split <;> rfl, I.clock, ?_, ?_⟩
  · intro key' bo he
    obtain ⟨x, hx, he⟩ := List.mem_map.mp he
    change bo.purgeable = lastMadvise key' (.unmark key :: a.trace)
    rw [lastMadvise]
    by_cases hk : x.1 = key
    · rw [if_pos hk] at he
      obtain ⟨rfl, rfl⟩ := Prod.mk.inj he
      rw [if_pos hk.symm]
    · rw [if_neg hk] at he
      subst he
      rw [if_neg (Ne.symm hk)]
      exact I.flag hx
  · intro key' bo he hp
    obtain ⟨x, hx, he⟩ := List.mem_map.mp he
    by_cases hk : x.1 = key
    · rw [if_pos hk] at he
      obtain ⟨rfl, rfl⟩ := Prod.mk.inj he
      exact nomatch hp
    · rw [if_neg hk] at he
      subst he
      exact I.stamp hx hp

theorem reclaimed {bytes count : Nat} {closed : List (Key × Buffer)} {refused : Option Key}
    (I : Inv a) (R : Adapter.Reclaimed fd bytes count a a' closed refused) : Inv a' := by
  have hm : marks a'.trace = marks a.trace ∧ ∀ key, lastMark key a'.trace = lastMark key a.trace ∧
      lastMadvise key a'.trace = lastMadvise key a.trace := by
    rw [R.trace, ← List.append_assoc]
    refine marks_closes fun e he => ?_
    rcases List.mem_append.mp he with he | he
    · obtain ⟨key, -, rfl⟩ := List.mem_map.mp he
      exact ⟨key, false, rfl⟩
    · obtain ⟨x, -, rfl⟩ := List.mem_map.mp (List.mem_reverse.mp he)
      exact ⟨x.1, true, rfl⟩
  refine ⟨R.sorted_after I.sorted, ?_, fun {key bo} he => ?_, fun {key bo} he hp => ?_⟩
  · rw [R.clock, hm.1, I.clock]
  · rw [(hm.2 key).2]
    rcases R.mem_after he with he | ⟨bo', he, e⟩
    · exact I.flag he
    · have e : bo = Adapter.purge bo' := e
      rw [e]
      have h : bo'.purgeable = lastMadvise key a.trace := I.flag he
      exact h
  · rw [(hm.2 key).1]
    rcases R.mem_after he with he | ⟨bo', he, e⟩
    · exact I.stamp he hp
    · have e : bo = Adapter.purge bo' := e
      rw [e] at hp ⊢
      have h : bo'.stamp = lastMark key a.trace ∧ 0 < bo'.stamp := I.stamp he hp
      exact h

theorem add (I : Inv a) (fd : Int) (handle size : Nat) (area : Option Nat) :
    Inv (a.add fd handle size area) := by
  refine ⟨Adapter.insert_sorted I.sorted, I.clock, fun {key bo} he => ?_, fun {key bo} he hp => ?_⟩
  · change bo.purgeable = lastMadvise key (.add (fd, handle) :: a.trace)
    rw [lastMadvise]
    rcases (Adapter.mem_insert I.sorted).mp he with e | ⟨he, hne⟩
    · obtain ⟨rfl, rfl⟩ := Prod.mk.inj e
      rw [if_pos rfl]
    · rw [if_neg (Ne.symm hne)]
      exact I.flag he
  · rcases (Adapter.mem_insert I.sorted).mp he with e | ⟨he, -⟩
    · obtain ⟨-, rfl⟩ := Prod.mk.inj e
      exact nomatch hp
    · exact I.stamp he hp

end Inv

/-! ## The bound -/

/-- While no close fails, no descriptor caches more than it may. -/
def Bounded (a : Adapter κ) : Prop :=
  (∀ key, .close key false ∉ a.trace) → ∀ fd, a.buffers.countP (Adapter.cached fd) ≤ kMaxCached

namespace Adapter
variable {a a' : Adapter κ}

theorem Reclaimed.bounded {bytes count : Nat} {closed : List (Key × Buffer)} {refused : Option Key}
    (R : Reclaimed fd bytes count a a' closed refused) (B : Bounded a) : Bounded a' :=
  fun h fd' => (R.countP_le fd').trans (B (fun key hk => h key (R.mem_trace hk)) fd')

theorem Bounded.of_eq (B : Bounded a) (h : a'.buffers = a.buffers ∧ a'.purgeClock = a.purgeClock ∧
    a'.trace = a.trace) : Bounded a' := by
  intro hk fd
  rw [h.1]
  exact B (h.2.2 ▸ hk) fd

theorem countP_insert {bo : Buffer} {entries : List (Key × Buffer)}
    (hn : ∀ fd, cached fd (key, bo) = false) (fd : Int) :
    (insert key bo entries).countP (cached fd) ≤ entries.countP (cached fd) := by
  induction entries with
  | nil => rw [insert, List.countP_cons_of_neg (by simp [hn])]
  | cons x entries ih =>
    rw [insert]
    split
    · rw [List.countP_cons_of_neg (by simp [hn])]
    split
    · rw [List.countP_cons_of_neg (by simp [hn]), List.countP_cons]
      exact Nat.le_add_right _ _
    · rw [List.countP_cons, List.countP_cons]
      exact Nat.add_le_add_right ih _

theorem Bounded.add (B : Bounded a) (fd : Int) (handle size : Nat) (area : Option Nat) :
    Bounded (a.add fd handle size area) := by
  intro h fd'
  exact (countP_insert (fun _ => by simp [cached]) fd').trans
    (B (fun key hk => h key (List.mem_cons_of_mem _ hk)) fd')

theorem createBuffer_eq {size : Nat} {r : Option (Nat × Nat × Option Nat)}
    (h : a.createBuffer K fd size = (r, a')) :
    a'.buffers = a.buffers ∧ a'.purgeClock = a.purgeClock ∧ a'.trace = a.trace := by
  rw [createBuffer] at h
  generalize hcall : a.call K fd (.createBuffer size 0 0) = c at h
  obtain ⟨c, a₁⟩ := c
  have he := call_eq hcall
  split at h
  · rename_i e
    obtain ⟨-, rfl⟩ := Prod.mk.inj e
    obtain ⟨-, rfl⟩ := Prod.mk.inj h
    exact he
  · rename_i e
    obtain ⟨-, rfl⟩ := Prod.mk.inj e
    obtain ⟨-, rfl⟩ := Prod.mk.inj h
    exact he

theorem gemCreate_inv (K : Kernel κ) (fd : Int) (size : Nat) (I : Inv a) (B : Bounded a) :
    Inv (a.gemCreate K fd size).2 ∧ Bounded (a.gemCreate K fd size).2 := by
  rw [gemCreate]
  generalize hc : a.createBuffer K fd size = c
  obtain ⟨r, a₁⟩ := c
  have I₁ := I.of_eq (createBuffer_eq hc)
  have B₁ := Bounded.of_eq B (createBuffer_eq hc)
  cases r with
  | some r => exact ⟨I₁.add .., Bounded.add B₁ fd r.2.1 r.1 r.2.2⟩
  | none =>
    obtain ⟨closed, refused, -, R⟩ := reclaim_spec K fd size kReclaimBatch I₁.sorted
    have I₂ := I₁.reclaimed R
    have B₂ := R.bounded B₁
    dsimp only
    generalize a₁.reclaim K fd size kReclaimBatch = x at I₂ B₂
    obtain ⟨freed, a₂⟩ := x
    dsimp only
    split
    · exact ⟨I₂, B₂⟩
    generalize hc : a₂.createBuffer K fd size = c
    obtain ⟨r, a₃⟩ := c
    have I₃ := I₂.of_eq (createBuffer_eq hc)
    have B₃ := Bounded.of_eq B₂ (createBuffer_eq hc)
    cases r with
    | none => exact ⟨I₃, B₃⟩
    | some r => exact ⟨I₃.add .., Bounded.add B₃ fd r.2.1 r.1 r.2.2⟩

theorem erase_inv (I : Inv a) (B : Bounded a) (key : Key) :
    Inv { a with buffers := a.buffers.filter (·.1 ≠ key) } ∧
      Bounded { a with buffers := a.buffers.filter (·.1 ≠ key) } := by
  refine ⟨⟨I.sorted.filter _, I.clock, fun he => I.flag (List.mem_filter.mp he).1,
    fun he hp => I.stamp (List.mem_filter.mp he).1 hp⟩, ?_⟩
  intro h fd
  exact (List.filter_sublist.countP_le).trans (B h fd)

theorem gemClose_inv (K : Kernel κ) (fd : Int) (handle : Nat) (I : Inv a) (B : Bounded a) :
    Inv (a.gemClose K fd handle).2 ∧ Bounded (a.gemClose K fd handle).2 := by
  rw [gemClose]
  split
  · exact ⟨I, B⟩
  dsimp only
  split
  · exact erase_inv I B _
  generalize hc : a.call K fd (.closeBuffer handle 0) = c
  obtain ⟨r, a₁⟩ := c
  have I₁ := I.of_eq (call_eq hc)
  have B₁ := Bounded.of_eq B (call_eq hc)
  cases r with
  | error => exact ⟨I₁, B₁⟩
  | ok => exact erase_inv I₁ B₁ _

/-- The entry of a buffer that has just been marked. -/
theorem mem_mark {bo : Buffer} (h : (key, bo) ∈ a.buffers) :
    (key, { bo with purgeable := true, stamp := a.purgeClock + 1 }) ∈ (a.mark key).buffers :=
  List.mem_map.mpr ⟨(key, bo), h, if_pos rfl⟩

theorem mem_unmark {bo : Buffer} (h : (key, bo) ∈ a.buffers) :
    (key, { bo with purgeable := false }) ∈ (a.unmark key).buffers :=
  List.mem_map.mpr ⟨(key, bo), h, if_pos rfl⟩

/-- The buffer just marked is the newest. -/
theorem mark_newest (I : Inv a) {e : Key × Buffer} (he : e ∈ (a.mark key).buffers)
    (hc : cached fd e = true) (hne : e.1 ≠ key) : e.2.stamp < a.purgeClock + 1 := by
  obtain ⟨x, hx, rfl⟩ := List.mem_map.mp he
  by_cases hk : x.1 = key
  · rw [if_pos hk] at hne
    exact absurd hk hne
  · rw [if_neg hk] at hc ⊢
    rw [(I.cached hx hc).2.2.1, I.clock]
    exact Nat.lt_succ_of_le (lastMark_le ..)

/-- The trim of `gemMadvise` does not reach the buffer just marked. -/
theorem mark_not_closed {bytes n : Nat} {bo : Buffer} {closed : List (Key × Buffer)}
    {refused : Option Key} (I : Inv a) (hb : (key, bo) ∈ a.buffers) (hf : key.1 = fd)
    (hn : n < (a.mark key).buffers.countP (cached fd)) (h0 : bytes = 0)
    (R : Reclaimed fd bytes n (a.mark key) a' closed refused) :
    (key, { bo with purgeable := true, stamp := a.purgeClock + 1 }) ∉ closed := by
  intro hin
  have Im := I.mark key
  have hall : ∀ e ∈ (a.mark key).buffers, cached fd e = true → e ∈ closed := by
    intro e he hc
    by_contra hnot
    have hold := R.oldest _ hin e he hc hnot
    by_cases hk : e.1 = key
    · obtain ⟨k, b⟩ := e
      obtain rfl : k = key := hk
      obtain rfl := Im.sorted.unique he (mem_mark hb)
      exact hnot hin
    · exact absurd hold (Nat.not_le_of_lt (mark_newest I he hc hk))
  have hle : (a.mark key).buffers.countP (cached fd) ≤ closed.length := by
    rw [List.countP_eq_length_filter]
    have hnodup : (a.mark key).buffers.Nodup :=
      Im.sorted.imp fun hb e => hb.ne (congrArg Prod.fst e)
    refine (List.subperm_of_subset (hnodup.filter _) fun e he => ?_).length_le
    exact hall e (List.mem_filter.mp he).1 (List.mem_filter.mp he).2
  have hfew := R.few (closed.length - 1) (.inl (by have := List.length_pos_of_mem hin; omega))
  omega

theorem mark_countP_of_ne {fd' : Int} (h : key.1 ≠ fd') :
    (a.mark key).buffers.countP (cached fd') = a.buffers.countP (cached fd') := by
  rw [mark, modify, List.countP_map]
  refine List.countP_congr fun x _ => ?_
  rw [Function.comp_apply]
  split
  · rename_i hk
    have hne : (decide (x.1.1 = fd')) = false := decide_eq_false (hk ▸ h)
    simp only [cached, hne, Bool.false_and]
  · rfl

/-- What `gemMadvise` does with a buffer that it marks: the buffer stays, and unless a close fails
the descriptor has no more cached than it may. -/
theorem gemMadvise_spec {handle : Nat} {bo : Buffer} (K : Kernel κ) (I : Inv a)
    (hb : a.buffer (fd, handle) = some bo) (hp : bo.purged = false) :
    (a.gemMadvise K fd handle true).1 = .retained true ∧
      (∃ bo', (a.gemMadvise K fd handle true).2.buffer (fd, handle) = some bo' ∧
        bo'.purged = false) ∧
      Inv (a.gemMadvise K fd handle true).2 ∧
      (∃ t, (a.gemMadvise K fd handle true).2.trace = t ++ a.trace ∧
        ((∀ key, .close key false ∉ t) →
          (a.gemMadvise K fd handle true).2.buffers.countP (cached fd) ≤ kMaxCached)) ∧
      ∀ fd', fd' ≠ fd → (a.gemMadvise K fd handle true).2.buffers.countP (cached fd') ≤
        a.buffers.countP (cached fd') := by
  have hmem := (buffer_eq_some I.sorted).mp hb
  have Im := I.mark (fd, handle)
  have hmark := mem_mark hmem
  have hcount (fd' : Int) (hne : fd' ≠ fd) :=
    @mark_countP_of_ne _ (fd, handle) a fd' (Ne.symm hne)
  rw [gemMadvise, hb]
  dsimp only
  rw [if_neg (by simp [hp]), if_neg (by simp)]
  split
  · rename_i hlt
    obtain ⟨closed, refused, -, R⟩ := reclaim_spec K fd 0
      ((a.mark (fd, handle)).buffers.countP (cached fd) - kMaxCached) Im.sorted
    have hnot := mark_not_closed I hmem (Eq.refl fd) (by unfold kMaxCached at hlt ⊢; omega) rfl R
    have I₁ := Im.reclaimed R
    have heq := R.countP_eq Im.sorted
    have hstay : ((fd, handle), { bo with purgeable := true, stamp := a.purgeClock + 1 }) ∈
        ((a.mark (fd, handle)).reclaim K fd 0
          ((a.mark (fd, handle)).buffers.countP (cached fd) - kMaxCached)).2.buffers := by
      rw [R.buffers]
      exact List.mem_map.mpr ⟨_, hmark, if_neg hnot⟩
    have hbuf := (buffer_eq_some I₁.sorted).mpr hstay
    refine ⟨?_, ⟨_, hbuf, hp⟩, I₁, ⟨refused.toList.map (Event.close · false) ++
      ((closed.map (Event.close ·.1 true)).reverse ++ [.mark (fd, handle)]), ?_, ?_⟩, ?_⟩
    · rw [hbuf]
      simp [hp]
    · rw [R.trace, List.append_assoc, List.append_assoc]
      rfl
    · intro hk
      have hnone : refused = none := by
        refine Option.eq_none_iff_forall_not_mem.mpr fun key hr => hk key ?_
        rw [show refused = some key from hr]
        simp
      rcases R.enough with ⟨h, -⟩ | h | h
      · have hle := Nat.sub_le_iff_le_add.mp h
        rw [← heq, Nat.add_comm _ closed.length] at hle
        exact Nat.le_of_add_le_add_left hle
      · refine Nat.le_trans (Nat.le_of_eq ?_) (Nat.zero_le _)
        exact absurd (h _ hmark (by simp [cached, hp])) hnot
      · exact absurd hnone h
    · intro fd' hne
      exact (R.countP_le fd').trans (Nat.le_of_eq (hcount fd' hne))
  · rename_i hle
    have hbuf := (buffer_eq_some Im.sorted).mpr hmark
    refine ⟨?_, ⟨_, hbuf, hp⟩, Im, ⟨[.mark (fd, handle)], rfl, ?_⟩, ?_⟩
    · rw [hbuf]
      simp [hp]
    · exact fun _ => Nat.le_of_not_lt hle
    · exact fun fd' hne => Nat.le_of_eq (hcount fd' hne)

theorem gemMadvise_inv (K : Kernel κ) (fd : Int) (handle : Nat) (dontNeed : Bool) (I : Inv a)
    (B : Bounded a) : Inv (a.gemMadvise K fd handle dontNeed).2 ∧
      Bounded (a.gemMadvise K fd handle dontNeed).2 := by
  cases hb : a.buffer (fd, handle) with
  | none =>
    rw [gemMadvise, hb]
    exact ⟨I, B⟩
  | some bo =>
    cases hp : bo.purged with
    | true =>
      rw [gemMadvise, hb]
      dsimp only
      rw [if_pos hp]
      exact ⟨I, B⟩
    | false =>
      cases dontNeed with
      | false =>
        rw [gemMadvise, hb]
        dsimp only
        rw [if_neg (by simp [hp]), if_pos (by simp)]
        refine ⟨I.unmark _, fun h fd' => ?_⟩
        refine Nat.le_trans ?_ (B (fun key hk => h key (List.mem_cons_of_mem _ hk)) fd')
        rw [unmark, modify, List.countP_map]
        refine List.countP_mono_left fun x _ hx => ?_
        rw [Function.comp_apply] at hx
        split at hx
        · exact absurd hx (by simp [cached])
        · exact hx
      | true =>
        obtain ⟨-, -, I', ⟨t, ht, hfd⟩, hother⟩ := gemMadvise_spec K I hb hp
        refine ⟨I', fun h fd' => ?_⟩
        rw [ht] at h
        by_cases hne : fd' = fd
        · subst hne
          exact hfd fun key hk => h key (List.mem_append_left _ hk)
        · exact (hother fd' hne).trans
            (B (fun key hk => h key (List.mem_append_right _ hk)) fd')

end Adapter

theorem step_inv {a : Adapter κ} (call : Call) (H : Inv a ∧ Bounded a) :
    Inv (step K call a) ∧ Bounded (step K call a) := by
  obtain ⟨I, B⟩ := H
  cases call with
  | gemCreate fd size => exact Adapter.gemCreate_inv K fd size I B
  | gemClose fd handle => exact Adapter.gemClose_inv K fd handle I B
  | gemMadvise fd handle dontNeed => exact Adapter.gemMadvise_inv K fd handle dontNeed I B

theorem start_inv (k : κ) : Inv (start k) ∧ Bounded (start k) :=
  ⟨⟨.nil, rfl, nofun, nofun⟩, fun _ _ => Nat.zero_le _⟩

end Winsys

end IntelGfx
