import IntelGfx.Display.PLL
import IntelGfx.Theory.KeepBest

/-!
# What the clock of a port is made of

`sklDdiCalculateWrpll` finds the divider that brings the oscillator closest to one of the central
frequencies, an even one if it can, and what it puts into the fields is that divider and the
frequency of the oscillator, rounded down to what the fraction can say. The field of the first
multiplier has no case for a divider of five.
-/

namespace IntelGfx

namespace PLL
open KeepBest

variable {clock refClock m : Nat} {params : SklWrpllParams} {c : Nat × Nat}
  {best : Option (Nat × Nat)}

/-- The frequency of the oscillator for a divider. -/
def frequency (clock p : Nat) : Nat := p * (clock * 5)

/-- How far this is from a central frequency, in hundredths of a percent. -/
def deviation (clock : Nat) (c : Nat × Nat) : Nat :=
  10000 * absSubtr64 (frequency clock c.2) c.1 / c.1

/-- Whether it is close enough. -/
def admits (clock : Nat) (c : Nat × Nat) : Bool :=
  decide (deviation clock c <
    if c.1 ≤ frequency clock c.2 then SKL_DCO_MAX_PDEVIATION else SKL_DCO_MAX_NDEVIATION)

/-- The first of the closest with an even divider, or with an odd one if no even one is close
enough. -/
def Chosen (clock : Nat) (c : Nat × Nat) : Prop :=
  First (admits clock) (deviation clock) (candidates evenDividers) c ∨
    (∀ c' ∈ candidates evenDividers, ¬ admits clock c') ∧
      First (admits clock) (deviation clock) (candidates oddDividers) c

namespace SklWrpllParams

/-- The first multiplier that the hardware takes from the field. -/
def p0 (params : SklWrpllParams) : Option Nat :=
  match params.pdiv with
  | 0 => some 1
  | 1 => some 2
  | 2 => some 3
  | 4 => some 7
  | _ => none

/-- The second one. -/
def p1 (params : SklWrpllParams) : Nat := if params.qdivMode = 0 then 1 else params.qdivRatio

/-- The third one. -/
def p2 (params : SklWrpllParams) : Option Nat :=
  match params.kdiv with
  | 0 => some 5
  | 1 => some 2
  | 2 => some 3
  | 3 => some 1
  | _ => none

/-- The divider that the hardware makes of the fields. -/
def divider (params : SklWrpllParams) : Option Nat :=
  params.p0.bind fun p0 => params.p2.map fun p2 => p0 * params.p1 * p2

/-- The central frequency. -/
def central (params : SklWrpllParams) : Option Nat :=
  match params.centralFreq with
  | 0 => some 9600000000
  | 1 => some 9000000000
  | 3 => some 8400000000
  | _ => none

/-- The multiple of the reference clock, in units of `2 ^ -15`. -/
def multiple (params : SklWrpllParams) : Nat := params.dcoInteger * 2 ^ 15 + params.dcoFraction

end SklWrpllParams

/-! ## The search -/

/-- The state of the search that has kept a candidate. -/
def SklWrpllContext.of (clock : Nat) : Option (Nat × Nat) → SklWrpllContext
  | none => .init
  | some (dco, p) => ⟨deviation clock (dco, p), dco, frequency clock p, p⟩

/-- What the lists hold. -/
structure Listed (c : Nat × Nat) : Prop where
  central : c.1 = 8400000000 ∨ c.1 = 9000000000 ∨ c.1 = 9600000000
  pos : 0 < c.2
  le : c.2 ≤ 98

theorem mem_candidates {dividers : List Nat} (hc : c ∈ candidates dividers) :
    c.1 ∈ dcoCentralFreq ∧ c.2 ∈ dividers := by
  obtain ⟨dco, hdco, hc⟩ := List.mem_flatMap.mp hc
  obtain ⟨p, hp, rfl⟩ := List.mem_map.mp hc
  exact ⟨hdco, hp⟩

theorem listed_candidates {dividers : List Nat} (h : ∀ p ∈ dividers, 0 < p ∧ p ≤ 98)
    (hc : c ∈ candidates dividers) : Listed c := by
  obtain ⟨hdco, hp⟩ := mem_candidates hc
  refine ⟨?_, (h c.2 hp).1, (h c.2 hp).2⟩
  simpa [dcoCentralFreq] using hdco

theorem even_listed : ∀ p ∈ evenDividers, 0 < p ∧ p ≤ 98 := by decide

theorem odd_listed : ∀ p ∈ oddDividers, 0 < p ∧ p ≤ 98 := by decide

theorem frequency_lt {p : Nat} (hle : p ≤ 98) (hclock : clock < 2 ^ 31) :
    frequency clock p < 98 * (5 * 2 ^ 31) :=
  calc p * (clock * 5) ≤ 98 * (clock * 5) := Nat.mul_le_mul_right _ hle
    _ < 98 * (5 * 2 ^ 31) := by omega

theorem Listed.tryDivider_eq (L : Listed c) (hclock : clock < 2 ^ 31) :
    sklWrpllTryDivider (.of clock best) c.1 (c.2 * (clock * 5) % 2 ^ 64) c.2 =
      .of clock (keep (admits clock) (deviation clock) best c) := by
  have hlt := frequency_lt L.le hclock
  have hfreq : c.2 * (clock * 5) % 2 ^ 64 = frequency clock c.2 := Nat.mod_eq_of_lt (by
    rw [frequency] at hlt
    omega)
  have hdiff : absSubtr64 (frequency clock c.2) c.1 < 2 ^ 41 := by
    have hcentral := L.central
    rw [absSubtr64]
    split <;> omega
  have hdeviation : 10000 * absSubtr64 (frequency clock c.2) c.1 % 2 ^ 64 / c.1 =
      deviation clock c := by
    rw [deviation, Nat.mod_eq_of_lt (by omega)]
  have hkeep : keep (admits clock) (deviation clock) best c =
      if deviation clock c < (if c.1 ≤ frequency clock c.2 then SKL_DCO_MAX_PDEVIATION else
        SKL_DCO_MAX_NDEVIATION) ∧ deviation clock c < (SklWrpllContext.of clock best).minDeviation
      then some c else best := by
    cases best with
    | none =>
      rw [keep_none, admits]
      refine if_congr ?_ rfl rfl
      rw [decide_eq_true_iff]
      refine ⟨fun h => ⟨h, ?_⟩, And.left⟩
      refine Nat.lt_trans h ?_
      simp only [SklWrpllContext.of, SklWrpllContext.init]
      split <;> decide
    | some b =>
      rw [keep_some, admits]
      refine if_congr ?_ rfl rfl
      rw [decide_eq_true_iff]
      exact .rfl
  rw [sklWrpllTryDivider, hfreq, hdeviation, hkeep]
  split
  · next hle =>
    split <;> rfl
  · next hle =>
    split <;> rfl

theorem of_minDeviation_eq_zero :
    (SklWrpllContext.of clock best).minDeviation = 0 ↔ best.any (deviation clock · = 0) := by
  cases best with
  | none => simp [SklWrpllContext.of, SklWrpllContext.init, UINT64_MAX]
  | some b => simp [SklWrpllContext.of]

theorem tryDividers_eq {l : List (Nat × Nat)} (hl : ∀ c ∈ l, Listed c) (hclock : clock < 2 ^ 31) :
    tryDividers (clock * 5) l (.of clock best) =
      .of clock (scan (admits clock) (deviation clock) l best) := by
  induction l generalizing best with
  | nil => rfl
  | cons c rest ih =>
    have L := hl c List.mem_cons_self
    rw [tryDividers, scan, L.tryDivider_eq hclock]
    generalize keep (admits clock) (deviation clock) best c = best
    rw [ih fun c hc => hl c (List.mem_cons_of_mem _ hc)]
    rw [apply_ite (SklWrpllContext.of clock)]
    exact if_congr of_minDeviation_eq_zero rfl rfl

theorem of_p_eq_zero (h : ∀ c ∈ best, Listed c) :
    (SklWrpllContext.of clock best).p = 0 ↔ best = none := by
  cases best with
  | none => exact iff_of_true rfl rfl
  | some b =>
    have := (h b rfl).pos
    simp only [SklWrpllContext.of, reduceCtorEq, iff_false]
    omega

/-- The search is over with the candidate it is to choose, or without one. -/
theorem sklDdiCalculateWrpll_cases (clock refClock : Nat) (params : SklWrpllParams)
    (hclock : clock < 2 ^ 31) :
    (sklDdiCalculateWrpll clock refClock params = (false, params) ∧
      ∀ c ∈ candidates evenDividers ++ candidates oddDividers, ¬ admits clock c) ∨
    ∃ c, Chosen clock c ∧ sklDdiCalculateWrpll clock refClock params =
      (true, sklWrpllParamsPopulate params (clock * 5) refClock c.1 (sklWrpllGetMultipliers c.2).1
        (sklWrpllGetMultipliers c.2).2.1 (sklWrpllGetMultipliers c.2).2.2) := by
  have heven (c) := listed_candidates (c := c) even_listed
  have hodd (c) := listed_candidates (c := c) odd_listed
  have hafe : clock * 5 % 2 ^ 64 = clock * 5 := Nat.mod_eq_of_lt (by omega)
  have hinit : SklWrpllContext.init = .of clock none := rfl
  have hfound {c : Nat × Nat} (L : Listed c) : (SklWrpllContext.of clock (some c)).p ≠ 0 := by
    rw [Ne, of_p_eq_zero (fun b hb => Option.mem_some.mp hb ▸ L)]
    exact Option.some_ne_none c
  rw [sklDdiCalculateWrpll, hafe, hinit, tryDividers_eq heven hclock]
  cases he : scan (admits clock) (deviation clock) (candidates evenDividers) none with
  | some c =>
    have hfirst := scan_eq_some he
    refine .inr ⟨c, .inl hfirst, ?_⟩
    rw [if_pos (hfound (heven c hfirst.mem.1))]
    exact if_neg (hfound (heven c hfirst.mem.1))
  | none =>
    have hnone := scan_eq_none_iff.mp he
    have hlost : ¬ (SklWrpllContext.of clock none).p ≠ 0 := not_not.mpr rfl
    rw [if_neg hlost, tryDividers_eq hodd hclock]
    cases ho : scan (admits clock) (deviation clock) (candidates oddDividers) none with
    | some c =>
      have hfirst := scan_eq_some ho
      exact .inr ⟨c, .inr ⟨hnone, hfirst⟩, if_neg (hfound (hodd c hfirst.mem.1))⟩
    | none =>
      refine .inl ⟨if_pos rfl, fun c hc => ?_⟩
      rcases List.mem_append.mp hc with hc | hc
      · exact hnone c hc
      · exact scan_eq_none_iff.mp ho c hc

/-! ## What is programmed -/

/-- The fields say which candidate has been chosen. -/
structure Programs (clock m : Nat) (params : SklWrpllParams) (c : Nat × Nat) (r : SklWrpllParams) :
    Prop where
  central : r.central = some c.1
  divider : c.2 ≠ 5 → r.divider = some c.2
  /-- The field of the first multiplier is as it was. -/
  pdiv : c.2 = 5 → r.pdiv = params.pdiv
  fraction : r.dcoFraction < 2 ^ 15
  le : r.multiple * (1000 * m * 1000) ≤ frequency clock c.2 * 2 ^ 15
  lt : frequency clock c.2 * 2 ^ 15 < (r.multiple + 1) * (1000 * m * 1000) + 2 ^ 15 * m

theorem multipliers_of_mem : ∀ p ∈ evenDividers ++ oddDividers,
    (sklWrpllGetMultipliers p).1 * (sklWrpllGetMultipliers p).2.1 *
      (sklWrpllGetMultipliers p).2.2 = p ∧
    ((sklWrpllGetMultipliers p).1 = 2 ∨ (sklWrpllGetMultipliers p).1 = 3 ∨
      (sklWrpllGetMultipliers p).1 = 7 ∨ (sklWrpllGetMultipliers p).1 = 5 ∧ p = 5) ∧
    (p = 5 → (sklWrpllGetMultipliers p).1 = 5) ∧
    ((sklWrpllGetMultipliers p).2.2 = 1 ∨ (sklWrpllGetMultipliers p).2.2 = 2 ∨
      (sklWrpllGetMultipliers p).2.2 = 3 ∨ (sklWrpllGetMultipliers p).2.2 = 5) := by
  decide

theorem Chosen.mem (h : Chosen clock c) : c.2 ∈ evenDividers ++ oddDividers ∧ Listed c := by
  rcases h with h | ⟨-, h⟩
  · exact ⟨List.mem_append_left _ (mem_candidates h.mem.1).2, listed_candidates even_listed h.mem.1⟩
  · exact ⟨List.mem_append_right _ (mem_candidates h.mem.1).2, listed_candidates odd_listed h.mem.1⟩

section
variable {afe central p0 p1 p2 p : Nat}

theorem populate_divider (h0 : p0 = 2 ∨ p0 = 3 ∨ p0 = 7) (h2 : p2 = 1 ∨ p2 = 2 ∨ p2 = 3 ∨ p2 = 5) :
    (sklWrpllParamsPopulate params afe refClock central p0 p1 p2).divider =
      some (p0 * p1 * p2) := by
  have h1 : (sklWrpllParamsPopulate params afe refClock central p0 p1 p2).p1 = p1 := by
    simp only [SklWrpllParams.p1, sklWrpllParamsPopulate]
    split <;> simp_all
  rw [SklWrpllParams.divider, h1]
  rcases h0 with rfl | rfl | rfl <;> rcases h2 with rfl | rfl | rfl | rfl <;> rfl

theorem populate_central (h : central = 8400000000 ∨ central = 9000000000 ∨ central = 9600000000) :
    (sklWrpllParamsPopulate params afe refClock central p0 p1 p2).central = some central := by
  rcases h with rfl | rfl | rfl <;> rfl

/-- None of the integers is too large for its type. -/
theorem integer_eq {q : Nat} (hq : q < 2 ^ 41) : q / 1000000 % 2 ^ 32 = q / 1000000 := by omega

theorem fraction_eq {q : Nat} (hq : q < 2 ^ 41) :
    (q + 2 ^ 64 - q / 1000000 * 1000000 % 2 ^ 64) % 2 ^ 64 * 0x8000 % 2 ^ 64 / 1000000 % 2 ^ 32 =
      q % 1000000 * 2 ^ 15 / 1000000 := by
  have hinteger : q / 1000000 * 1000000 % 2 ^ 64 = q / 1000000 * 1000000 :=
    Nat.mod_eq_of_lt (by omega)
  have hrest : (q + 2 ^ 64 - q / 1000000 * 1000000) % 2 ^ 64 = q % 1000000 := by omega
  have hlt : q % 1000000 < 1000000 := Nat.mod_lt _ (by omega)
  rw [hinteger, hrest]
  rw [show 0x8000 = 2 ^ 15 from rfl, Nat.mod_eq_of_lt (by omega : q % 1000000 * 2 ^ 15 < 2 ^ 64),
    Nat.mod_eq_of_lt (by omega)]

/-- The integer and the fraction are those of the frequency, up to a part of `2 ^ -15`. -/
theorem populate_multiple (params : SklWrpllParams) (central : Nat) (hclock : clock < 2 ^ 31)
    (hm : 0 < m) (hm' : 1000 * m < 2 ^ 31) (hp : p0 * p1 * p2 = p) (hle : p ≤ 98) :
    (sklWrpllParamsPopulate params (clock * 5) (1000 * m) central p0 p1 p2).dcoInteger =
        frequency clock p / m / 1000000 ∧
      (sklWrpllParamsPopulate params (clock * 5) (1000 * m) central p0 p1 p2).dcoFraction =
        frequency clock p / m % 1000000 * 2 ^ 15 / 1000000 := by
  have hlt := frequency_lt hle hclock
  have hfreq : p0 * p1 * p2 % 2 ^ 32 * (clock * 5) % 2 ^ 64 = frequency clock p := by
    rw [hp, Nat.mod_eq_of_lt (by omega : p < 2 ^ 32)]
    refine Nat.mod_eq_of_lt ?_
    rw [frequency] at hlt
    omega
  have hq : frequency clock p / m < 2 ^ 41 := by
    have := Nat.div_le_self (frequency clock p) m
    omega
  have href : 1000 * m * 1000 % 2 ^ 64 = m * 1000000 := by omega
  have hinteger : frequency clock p / (1000 * m * 1000 % 2 ^ 64) % 2 ^ 32 =
      frequency clock p / m / 1000000 := by
    rw [href, ← Nat.div_div_eq_div_mul, integer_eq hq]
  have hmhz : 1000 * m / 1000 = m := by omega
  simp only [sklWrpllParamsPopulate]
  rw [hfreq, hinteger, hmhz]
  exact ⟨rfl, fraction_eq hq⟩

end

theorem parts_bounds (q : Nat) :
    (q / 1000000 * 2 ^ 15 + q % 1000000 * 2 ^ 15 / 1000000) * 1000000 ≤ q * 2 ^ 15 ∧
      q * 2 ^ 15 ≤ (q / 1000000 * 2 ^ 15 + q % 1000000 * 2 ^ 15 / 1000000 + 1) * 1000000 := by
  have hq := Nat.div_add_mod q 1000000
  have hr := Nat.div_add_mod (q % 1000000 * 2 ^ 15) 1000000
  have hlt := Nat.mod_lt (q % 1000000 * 2 ^ 15) (Nat.zero_lt_succ 999999)
  omega

/-- The multiple of the reference clock lies just below the frequency. -/
theorem multiple_bounds {D q M : Nat} (hm : 0 < m) (hq : q = D / m)
    (hM : M = q / 1000000 * 2 ^ 15 + q % 1000000 * 2 ^ 15 / 1000000) :
    M * (1000 * m * 1000) ≤ D * 2 ^ 15 ∧
      D * 2 ^ 15 < (M + 1) * (1000 * m * 1000) + 2 ^ 15 * m := by
  obtain ⟨hle, hlt⟩ := parts_bounds q
  rw [← hM] at hle hlt
  have hD : q * m ≤ D := hq ▸ Nat.div_mul_le_self D m
  have hD' : D < (q + 1) * m := hq ▸ Nat.lt_mul_of_div_lt (Nat.lt_succ_self _) hm
  have href : 1000 * m * 1000 = 1000000 * m := by omega
  rw [href, ← Nat.mul_assoc, ← Nat.mul_assoc]
  constructor
  · calc M * 1000000 * m
      _ ≤ q * 2 ^ 15 * m := Nat.mul_le_mul_right m hle
      _ = q * m * 2 ^ 15 := Nat.mul_right_comm ..
      _ ≤ D * 2 ^ 15 := Nat.mul_le_mul_right _ hD
  · calc D * 2 ^ 15 < (q + 1) * m * 2 ^ 15 := Nat.mul_lt_mul_of_pos_right hD' (Nat.two_pow_pos 15)
      _ = q * 2 ^ 15 * m + 2 ^ 15 * m := by
        rw [Nat.add_mul, Nat.add_mul, Nat.one_mul, Nat.mul_right_comm, Nat.mul_comm m]
      _ ≤ (M + 1) * 1000000 * m + 2 ^ 15 * m :=
        Nat.add_le_add_right (Nat.mul_le_mul_right m hlt) _

theorem Chosen.programs (hc : Chosen clock c) (hclock : clock < 2 ^ 31) (hm : 0 < m)
    (hm' : 1000 * m < 2 ^ 31) :
    Programs clock m params c (sklWrpllParamsPopulate params (clock * 5) (1000 * m) c.1
      (sklWrpllGetMultipliers c.2).1 (sklWrpllGetMultipliers c.2).2.1
      (sklWrpllGetMultipliers c.2).2.2) := by
  obtain ⟨hmem, L⟩ := hc.mem
  obtain ⟨hp, h0, h5, h2⟩ := multipliers_of_mem c.2 hmem
  obtain ⟨hinteger, hfraction⟩ :=
    populate_multiple params c.1 hclock hm hm' hp L.le
  obtain ⟨hle, hlt⟩ := multiple_bounds hm rfl (congrArg₂ (· * 2 ^ 15 + ·) hinteger hfraction)
  refine ⟨populate_central L.central, fun hne => ?_, fun heq => ?_, ?_, hle, hlt⟩
  · have h0' : (sklWrpllGetMultipliers c.2).1 = 2 ∨ (sklWrpllGetMultipliers c.2).1 = 3 ∨
        (sklWrpllGetMultipliers c.2).1 = 7 := by
      rcases h0 with h0 | h0 | h0 | h0
      · exact .inl h0
      · exact .inr (.inl h0)
      · exact .inr (.inr h0)
      · exact absurd h0.2 hne
    rw [populate_divider h0' h2, hp]
  · simp [sklWrpllParamsPopulate, h5 heq]
  · rw [hfraction]
    omega

/-- For every clock and every reference clock of whole megahertz: there is no divider exactly when
no candidate is close enough to its central frequency, and then the fields stay as they are.
Otherwise the fields describe the first of the closest candidates, with an even divider if one is
close enough. -/
theorem sklDdiCalculateWrpll_spec (clock m : Nat) (params : SklWrpllParams)
    (hclock : clock < 2 ^ 31) (hm : 0 < m) (hm' : 1000 * m < 2 ^ 31) :
    ((sklDdiCalculateWrpll clock (1000 * m) params).1 = false ↔
      ∀ c ∈ candidates evenDividers ++ candidates oddDividers, ¬ admits clock c) ∧
    ((sklDdiCalculateWrpll clock (1000 * m) params).1 = false →
      (sklDdiCalculateWrpll clock (1000 * m) params).2 = params) ∧
    ((sklDdiCalculateWrpll clock (1000 * m) params).1 = true →
      ∃ c, Chosen clock c ∧
        Programs clock m params c (sklDdiCalculateWrpll clock (1000 * m) params).2) := by
  rcases sklDdiCalculateWrpll_cases clock (1000 * m) params hclock with
    ⟨hr, hnone⟩ | ⟨c, hc, hr⟩
  · rw [hr]
    exact ⟨iff_of_true rfl hnone, fun _ => rfl, fun h => absurd h Bool.false_ne_true⟩
  have hadmits : ¬ ∀ c ∈ candidates evenDividers ++ candidates oddDividers, ¬ admits clock c := by
    intro hnone
    rcases hc with hc | ⟨-, hc⟩
    · exact hnone c (List.mem_append_left _ hc.mem.1) hc.mem.2
    · exact hnone c (List.mem_append_right _ hc.mem.1) hc.mem.2
  rw [hr]
  refine ⟨iff_of_false Bool.true_eq_false.mp hadmits, fun h => ?_, fun _ =>
    ⟨c, hc, hc.programs hclock hm hm'⟩⟩
  cases h

/-- The pixel clock of 1920 by 1080 at 60 Hz, with a reference clock of 24 MHz. -/
theorem sklDdiCalculateWrpll_spec_fullHD :
    ∃ c, Chosen 148500000 c ∧ Programs 148500000 24 ⟨0, 0, 0, 0, 0, 0, 0⟩ c
      (sklDdiCalculateWrpll 148500000 (1000 * 24) ⟨0, 0, 0, 0, 0, 0, 0⟩).2 :=
  (sklDdiCalculateWrpll_spec 148500000 24 ⟨0, 0, 0, 0, 0, 0, 0⟩ (by decide) (by decide)
    (by decide)).2.2 (by decide +kernel)

end PLL
end IntelGfx
