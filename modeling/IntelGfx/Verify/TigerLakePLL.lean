import IntelGfx.Display.TigerLakePLL
import IntelGfx.Theory.KeepBest

/-!
# Every clock that the dividers reach

`computeHdmiDpll` takes the divider that brings the oscillator closest to the middle of its range,
and finds one exactly for the clocks of three bands. The comment on the function only speaks of
clocks that are too low or too high, but the two gaps between the bands fail as well.
-/

namespace IntelGfx

namespace TigerLakePLL
open KeepBest

variable {afeclk : Nat}

/-- The oscillator is in its range. -/
def admits (afeclk div : Nat) : Bool := decide (afeclk * div ≤ dcomax ∧ dcomin ≤ afeclk * div)

/-- How far the oscillator is from the middle of its range. -/
def centrality (afeclk div : Nat) : Nat :=
  if dcomid ≤ afeclk * div then afeclk * div - dcomid else dcomid - afeclk * div

/-- What the loop keeps of a divider. -/
def Best.of (afeclk bestdco : Nat) : Option Nat → Best
  | none => ⟨999999, 0, bestdco⟩
  | some div => ⟨centrality afeclk div, div, afeclk * div⟩

theorem centrality_lt {div : Nat} (h : admits afeclk div) : centrality afeclk div < 999999 := by
  have hmax : afeclk * div ≤ 10000 := (of_decide_eq_true h).1
  have hmid : dcomid = 8999 := rfl
  rw [centrality, hmid]
  split <;> omega

theorem of_keep {bestdco div : Nat} {best : Option Nat} :
    Best.of afeclk bestdco (keep (admits afeclk) (centrality afeclk) best div) =
      if afeclk * div ≤ dcomax ∧ dcomin ≤ afeclk * div ∧
          centrality afeclk div < (Best.of afeclk bestdco best).dcocentrality then
        ⟨centrality afeclk div, div, afeclk * div⟩
      else Best.of afeclk bestdco best := by
  cases best with
  | none =>
    rw [keep_none, apply_ite (Best.of afeclk bestdco)]
    refine if_congr ?_ rfl rfl
    refine ⟨fun h => ?_, fun h => decide_eq_true ⟨h.1, h.2.1⟩⟩
    obtain ⟨hmax, hmin⟩ := of_decide_eq_true h
    exact ⟨hmax, hmin, centrality_lt h⟩
  | some b =>
    rw [keep_some, apply_ite (Best.of afeclk bestdco)]
    refine if_congr ?_ rfl rfl
    rw [admits, decide_eq_true_iff, and_assoc]
    exact .rfl

theorem search_eq {bestdco : Nat} {best : Option Nat} (l : List Nat) :
    search afeclk l (.of afeclk bestdco best) =
      .of afeclk bestdco (scan (admits afeclk) (centrality afeclk) l best) := by
  rw [scan_eq_foldl]
  induction l generalizing best with
  | nil => rfl
  | cons div rest ih =>
    rw [List.foldl_cons, ← ih, of_keep, search]
    exact (apply_ite (search afeclk rest) ..).symm

/-- The dividers make `div`, and the hardware has them. -/
structure Divides (out : Dividers) (div : Nat) : Prop where
  eq : out.Pdiv * out.Qdiv * out.Kdiv = div
  p : out.Pdiv = 2 ∨ out.Pdiv = 3 ∨ out.Pdiv = 5 ∨ out.Pdiv = 7
  k : out.Kdiv = 1 ∨ out.Kdiv = 2 ∨ out.Kdiv = 3
  q : 1 ≤ out.Qdiv ∧ out.Qdiv ≤ 255
  one : out.Kdiv ≠ 2 → out.Qdiv = 1

/-- The clocks for which there is a divider. -/
def Reached (afeclk : Nat) : Prop :=
  79 ≤ afeclk ∧ afeclk ≤ 2500 ∨ 2666 ≤ afeclk ∧ afeclk ≤ 3333 ∨ 3999 ≤ afeclk ∧ afeclk ≤ 5000

theorem reached_of_admits {div : Nat} (hmem : div ∈ dividerlist) (h : admits afeclk div) :
    Reached afeclk := by
  obtain ⟨hmax, hmin⟩ : afeclk * div ≤ 10000 ∧ 7998 ≤ afeclk * div := of_decide_eq_true h
  have hdiv : div = 2 ∨ div = 3 ∨ 4 ≤ div ∧ div ≤ 102 := by
    revert hmem
    exact (by decide : ∀ div ∈ dividerlist, div = 2 ∨ div = 3 ∨ 4 ≤ div ∧ div ≤ 102) div
  rcases hdiv with rfl | rfl | ⟨hlo, hhi⟩
  · exact .inr (.inr ⟨by omega, by omega⟩)
  · exact .inr (.inl ⟨by omega, by omega⟩)
  · have := Nat.mul_le_mul_left afeclk hlo
    have := Nat.mul_le_mul_left afeclk hhi
    exact .inl ⟨by omega, by omega⟩

theorem admits_of_reached (h : Reached afeclk) : ∃ div ∈ dividerlist, admits afeclk div := by
  by_contra hnone
  have hout (div : Nat) (hmem : div ∈ dividerlist) :
      ¬ (afeclk * div ≤ 10000 ∧ 7998 ≤ afeclk * div) := fun h =>
    hnone ⟨div, hmem, decide_eq_true h⟩
  rcases h with h | h | h
  · -- one divider after the other takes over
    have h102 := hout 102 (by decide)
    have h84 := hout 84 (by decide)
    have h68 := hout 68 (by decide)
    have h56 := hout 56 (by decide)
    have h48 := hout 48 (by decide)
    have h40 := hout 40 (by decide)
    have h32 := hout 32 (by decide)
    have h28 := hout 28 (by decide)
    have h24 := hout 24 (by decide)
    have h20 := hout 20 (by decide)
    have h16 := hout 16 (by decide)
    have h14 := hout 14 (by decide)
    have h12 := hout 12 (by decide)
    have h10 := hout 10 (by decide)
    have h8 := hout 8 (by decide)
    have h7 := hout 7 (by decide)
    have h6 := hout 6 (by decide)
    have h5 := hout 5 (by decide)
    have h4 := hout 4 (by decide)
    omega
  · have h3 := hout 3 (by decide)
    omega
  · have h2 := hout 2 (by decide)
    omega

/-- What the listed dividers have in common. -/
theorem listed : ∀ div ∈ dividerlist, 0 < div ∧ div ≤ 102 ∧
    (div % 2 = 0 → div = 2 ∨ div % 4 = 0 ∨ div % 6 = 0 ∨ div % 5 = 0 ∨ div % 14 = 0) ∧
    (div % 2 ≠ 0 → (div = 3 ∨ div = 5 ∨ div = 7) ∨ div = 9 ∨ div = 15 ∨ div = 21) := by
  decide

theorem divides_even {P Q dco div : Nat} (hp : P = 2 ∨ P = 3 ∨ P = 5 ∨ P = 7)
    (h : P * Q * 2 = div) (hpos : 0 < div) (hle : div ≤ 102) : Divides ⟨P, Q, 2, dco⟩ div := by
  have hq : 1 ≤ Q ∧ Q ≤ 255 := by rcases hp with rfl | rfl | rfl | rfl <;> omega
  exact ⟨h, hp, .inr (.inl rfl), hq, fun hne => absurd rfl hne⟩

theorem divides_once {P K dco div : Nat} (hp : P = 2 ∨ P = 3 ∨ P = 5 ∨ P = 7) (hk : K = 1 ∨ K = 3)
    (h : P * 1 * K = div) : Divides ⟨P, 1, K, dco⟩ div :=
  ⟨h, hp, hk.imp_right .inr, ⟨Nat.le_refl 1, Nat.le_add_left 1 254⟩, fun _ => rfl⟩

theorem afeclkOf_eq {freq : Nat} (hfreq : 5 * freq < 2 ^ 31) : afeclkOf freq = 5 * freq / 1000 := by
  have hmod : Int.bmod (5 * freq) (2 ^ 32) = 5 * freq := Int.bmod_eq_of_le (by omega) (by omega)
  rw [afeclkOf, hmod]
  rfl

/-- What becomes of the divider that the loop has kept. -/
theorem divides_of_mem (freq : Nat) (out : Dividers) {div : Nat} (hmem : div ∈ dividerlist)
    (h : search (afeclkOf freq) dividerlist ⟨999999, 0, out.bestdco⟩ =
      .of (afeclkOf freq) out.bestdco (some div)) :
    ∃ result, computeHdmiDpll freq out = (true, result) ∧ Divides result div ∧
      result.bestdco = afeclkOf freq * div := by
  obtain ⟨hpos, hle, heven, hodd⟩ := listed div hmem
  rw [computeHdmiDpll, h, Best.of]
  dsimp only
  rw [if_pos (Nat.ne_of_gt hpos)]
  split
  · next h2 =>
    split
    · next hdiv => exact ⟨_, rfl, divides_once (.inl rfl) (.inl rfl) hdiv.symm, rfl⟩
    split
    · next h4 => exact ⟨_, rfl, divides_even (.inl rfl) (by omega) hpos hle, rfl⟩
    split
    · next h6 => exact ⟨_, rfl, divides_even (.inr (.inl rfl)) (by omega) hpos hle, rfl⟩
    split
    · next h5 => exact ⟨_, rfl, divides_even (.inr (.inr (.inl rfl))) (by omega) hpos hle, rfl⟩
    split
    · next h14 => exact ⟨_, rfl, divides_even (.inr (.inr (.inr rfl))) (by omega) hpos hle, rfl⟩
    · next hne h4 h6 h5 h14 =>
      rcases heven h2 with h | h | h | h | h
      · exact absurd h hne
      · exact absurd h h4
      · exact absurd h h6
      · exact absurd h h5
      · exact absurd h h14
  · next h2 =>
    split
    · next hdiv => exact ⟨_, rfl, divides_once (.inr hdiv) (.inl rfl) (by omega), rfl⟩
    · next hne =>
      rcases (hodd h2).resolve_left hne with rfl | rfl | rfl
      · exact ⟨_, rfl, divides_once (.inr (.inl rfl)) (.inr rfl) rfl, rfl⟩
      · exact ⟨_, rfl, divides_once (.inr (.inr (.inl rfl))) (.inr rfl) rfl, rfl⟩
      · exact ⟨_, rfl, divides_once (.inr (.inr (.inr rfl))) (.inr rfl) rfl, rfl⟩

/-- For every clock whose fivefold is an `int`: there is a divider exactly in the three bands, and
it is the first of those that bring the oscillator closest to the middle of its range. What is
passed on makes it, within what the hardware has, and says how fast the oscillator runs then. -/
theorem computeHdmiDpll_spec (freq : Nat) (out : Dividers) (hfreq : 5 * freq < 2 ^ 31) :
    ((computeHdmiDpll freq out).1 = true ↔ Reached (5 * freq / 1000)) ∧
    ((computeHdmiDpll freq out).1 = true → ∃ div,
      First (admits (5 * freq / 1000)) (centrality (5 * freq / 1000)) dividerlist div ∧
        Divides (computeHdmiDpll freq out).2 div ∧
        (computeHdmiDpll freq out).2.bestdco = 5 * freq / 1000 * div) ∧
    ((computeHdmiDpll freq out).1 = false → (computeHdmiDpll freq out).2 = out) := by
  rw [← afeclkOf_eq hfreq]
  have hsearch : search (afeclkOf freq) dividerlist ⟨999999, 0, out.bestdco⟩ =
      .of (afeclkOf freq) out.bestdco
        (scan (admits (afeclkOf freq)) (centrality (afeclkOf freq)) dividerlist none) := by
    have hinit : (⟨999999, 0, out.bestdco⟩ : Best) = .of (afeclkOf freq) out.bestdco none := rfl
    rw [hinit]
    exact search_eq dividerlist
  cases hscan : scan (admits (afeclkOf freq)) (centrality (afeclkOf freq)) dividerlist none with
  | some div =>
    rw [hscan] at hsearch
    have hfirst := scan_eq_some hscan
    obtain ⟨result, hresult, hdivides, hdco⟩ := divides_of_mem freq out hfirst.mem.1 hsearch
    rw [hresult]
    exact ⟨iff_of_true rfl (reached_of_admits hfirst.mem.1 hfirst.mem.2),
      fun _ => ⟨div, hfirst, hdivides, hdco⟩, fun h => absurd h.symm Bool.false_ne_true⟩
  | none =>
    rw [hscan] at hsearch
    have hnone := scan_eq_none_iff.mp hscan
    have hresult : computeHdmiDpll freq out = (false, out) := by
      rw [computeHdmiDpll, hsearch]
      rfl
    have hnot : ¬ Reached (afeclkOf freq) := by
      intro h
      obtain ⟨div, hmem, hadmits⟩ := admits_of_reached h
      exact hnone div hmem hadmits
    rw [hresult]
    exact ⟨iff_of_false Bool.false_ne_true hnot, fun h => absurd h Bool.false_ne_true, fun _ => rfl⟩

/-- The pixel clock of 1920 by 1080 at 60 Hz. -/
theorem computeHdmiDpll_spec_fullHD : ∃ div,
    First (admits 742) (centrality 742) dividerlist div ∧
      Divides (computeHdmiDpll 148500 ⟨0, 0, 0, 0⟩).2 div ∧
      (computeHdmiDpll 148500 ⟨0, 0, 0, 0⟩).2.bestdco = 742 * div :=
  (computeHdmiDpll_spec 148500 ⟨0, 0, 0, 0⟩ (by decide)).2.1 (by decide +kernel)

end TigerLakePLL
end IntelGfx
