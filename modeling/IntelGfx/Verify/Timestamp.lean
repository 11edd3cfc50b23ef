import IntelGfx.Mesa.Timestamp
import Mathlib.Order.Monotone.Defs

/-!
# The timestamp never goes back

A round of the loop that has seen the same upper half twice has read the lower half in between,
while the upper half was that, so that the value is the counter's at that moment.
-/

namespace IntelGfx

namespace Winsys

/-- The registers show a counter that does not go back. -/
structure Timestamp (content : Nat → Nat → BitVec 32) (counter : Nat → BitVec 64) : Prop where
  upper : ∀ t, content kTimestampUpper t = (counter t).extractLsb' 32 32
  lower : ∀ t, content kTimestamp t = (counter t).setWidth 32
  mono : ∀ {t t'}, t ≤ t' → counter t ≤ counter t'

theorem halves (x : BitVec 64) :
    (x.extractLsb' 32 32).setWidth 64 <<< 32 ||| (x.setWidth 32).setWidth 64 = x := by
  ext i hi
  by_cases h : i < 32
  · simp [h, BitVec.getElem_setWidth, BitVec.getLsbD_eq_getElem hi]
  · have hupper : 32 + (i - 32) = i := by omega
    simp [h, hupper, BitVec.getLsbD_eq_getElem hi, show i - 32 < 32 by omega]

theorem toNat_upper (x : BitVec 64) : (x.extractLsb' 32 32).toNat = x.toNat / 2 ^ 32 := by
  rw [BitVec.extractLsb'_toNat, Nat.shiftRight_eq_div_pow]
  omega

namespace Timestamp
variable {content : Nat → Nat → BitVec 32} {counter : Nat → BitVec 64}

theorem upper_le (T : Timestamp content counter) {t t' : Nat} (h : t ≤ t') :
    (content kTimestampUpper t).toNat ≤ (content kTimestampUpper t').toNat := by
  rw [T.upper, T.upper, toNat_upper, toNat_upper]
  exact Nat.div_le_div_right (T.mono h)

/-- The upper half is the same at two times, and the lower half is read in between. -/
theorem between (T : Timestamp content counter) {t t' t'' : Nat} (h : t ≤ t') (h' : t' ≤ t'')
    (hsame : content kTimestampUpper t = content kTimestampUpper t'') :
    (content kTimestampUpper t).setWidth 64 <<< 32 ||| (content kTimestamp t').setWidth 64 =
      counter t' := by
  have hle := T.upper_le h
  have hge := T.upper_le h'
  rw [← hsame] at hge
  have hmiddle : content kTimestampUpper t = content kTimestampUpper t' :=
    BitVec.eq_of_toNat_eq (Nat.le_antisymm hle hge)
  rw [hmiddle, T.upper, T.lower]
  exact halves _

end Timestamp

namespace Reader
variable {κ : Type*} {K : Kernel κ} {content : Nat → Nat → BitVec 32} {clock : Nat → Nat}
  {counter : Nat → BitVec 64} {fd : Int} {r r' : Reader κ} {fuel : Nat} {v : BitVec 64}

theorem reg_some {offset : Nat} {value : BitVec 32}
    (h : r.reg K content clock fd offset = (some value, r')) :
    value = content offset (clock r.reads) ∧ r'.reads = r.reads + 1 := by
  unfold reg at h
  split at h
  · exact nomatch h
  · cases h
    exact ⟨rfl, rfl⟩

/-- The driver reads each register it is asked for. -/
def Answers (K : Kernel κ) (fd : Int) : Prop :=
  ∀ offset k, ∃ x k', K fd (.readRegister offset 0) k = (.ok x, k')

theorem Answers.reg (hK : Answers K fd) (content : Nat → Nat → BitVec 32) (clock : Nat → Nat)
    (offset : Nat) (r : Reader κ) :
    ∃ value r', r.reg K content clock fd offset = (some value, r') := by
  obtain ⟨x, k', hk⟩ := hK offset r.kernel
  exact ⟨_, _, by rw [Reader.reg, hk]⟩

/-- The rounds of the loop. -/
theorem readLoop_succ (K : Kernel κ) (content : Nat → Nat → BitVec 32) (clock : Nat → Nat)
    (fd : Int) (fuel : Nat) (r : Reader κ) :
    (readLoop K content clock fd (fuel + 1) r).1 = .failed ∨
    ∃ r', r'.reads = r.reads + 3 ∧
      readLoop K content clock fd (fuel + 1) r =
        if content kTimestampUpper (clock r.reads) ≠ content kTimestampUpper (clock (r.reads + 2))
        then readLoop K content clock fd fuel r' else
        (.value ((content kTimestampUpper (clock r.reads)).setWidth 64 <<< 32 |||
          (content kTimestamp (clock (r.reads + 1))).setWidth 64), r') := by
  rw [readLoop]
  cases hhigh : r.reg K content clock fd kTimestampUpper with | mk high r₁ =>
  cases high with
  | none => exact .inl rfl
  | some high =>
  dsimp only
  cases hlow : r₁.reg K content clock fd kTimestamp with | mk low r₂ =>
  cases low with
  | none => exact .inl rfl
  | some low =>
  dsimp only
  cases hcheck : r₂.reg K content clock fd kTimestampUpper with | mk check r₃ =>
  cases check with
  | none => exact .inl rfl
  | some check =>
  obtain ⟨rfl, h₁⟩ := reg_some hhigh
  obtain ⟨rfl, h₂⟩ := reg_some hlow
  obtain ⟨rfl, h₃⟩ := reg_some hcheck
  refine .inr ⟨r₃, by rw [h₃, h₂, h₁], ?_⟩
  rw [h₂, h₁]

theorem readLoop_value (T : Timestamp content counter) (hc : Monotone clock)
    (h : r.readLoop K content clock fd fuel = (.value v, r')) :
    ∃ n, r.reads ≤ n ∧ n < r'.reads ∧ v = counter (clock n) := by
  induction fuel generalizing r with
  | zero => exact nomatch h
  | succ fuel ih =>
    rcases readLoop_succ K content clock fd fuel r with hfailed | ⟨r₁, hreads, hround⟩
    · rw [h] at hfailed
      exact nomatch hfailed
    · rw [hround] at h
      split at h
      · obtain ⟨n, hn, hn', hv⟩ := ih h
        exact ⟨n, by omega, hn', hv⟩
      · next hsame =>
        cases h
        refine ⟨r.reads + 1, Nat.le_succ _, by omega, ?_⟩
        exact T.between (hc (Nat.le_succ _)) (hc (Nat.le_succ _)) (not_not.mp hsame)

/-- Each round that is not the last has seen the upper half grow. -/
theorem readLoop_unfinished (T : Timestamp content counter) (hc : Monotone clock)
    (h : (r.readLoop K content clock fd fuel).1 = .unfinished) :
    ∃ n, r.reads ≤ n ∧ (content kTimestampUpper (clock r.reads)).toNat + fuel ≤
      (content kTimestampUpper (clock n)).toNat := by
  induction fuel generalizing r with
  | zero => exact ⟨r.reads, Nat.le_refl _, Nat.le_refl _⟩
  | succ fuel ih =>
    rcases readLoop_succ K content clock fd fuel r with hfailed | ⟨r₁, hreads, hround⟩
    · exact nomatch hfailed.symm.trans h
    · rw [hround] at h
      split at h
      · next hgrown =>
        obtain ⟨n, hn, hle⟩ := ih h
        have hfirst := T.upper_le (hc (show r.reads ≤ r.reads + 2 by omega))
        have hrest := T.upper_le (hc (show r.reads + 2 ≤ r₁.reads by omega))
        have hne : (content kTimestampUpper (clock r.reads)).toNat ≠
            (content kTimestampUpper (clock (r.reads + 2))).toNat :=
          fun heq => hgrown (BitVec.eq_of_toNat_eq heq)
        exact ⟨n, by omega, by omega⟩
      · exact nomatch h

/-- The loop ends. -/
theorem readLoop_ends (T : Timestamp content counter) (hc : Monotone clock)
    (hf : 2 ^ 32 ≤ fuel) : (r.readLoop K content clock fd fuel).1 ≠ .unfinished := by
  intro h
  obtain ⟨n, -, hle⟩ := readLoop_unfinished T hc h
  have hlt := (content kTimestampUpper (clock n)).isLt
  omega

/-- The loop fails only if a register read does. -/
theorem readLoop_answered (hK : Answers K fd) (content : Nat → Nat → BitVec 32)
    (clock : Nat → Nat) (fuel : Nat) (r : Reader κ) :
    (r.readLoop K content clock fd fuel).1 = .unfinished ∨
      ∃ v, (r.readLoop K content clock fd fuel).1 = .value v := by
  induction fuel generalizing r with
  | zero => exact .inl rfl
  | succ fuel ih =>
    obtain ⟨high, r₁, hhigh⟩ := hK.reg content clock kTimestampUpper r
    obtain ⟨low, r₂, hlow⟩ := hK.reg content clock kTimestamp r₁
    obtain ⟨check, r₃, hcheck⟩ := hK.reg content clock kTimestampUpper r₂
    simp only [readLoop, hhigh, hlow, hcheck]
    split
    · exact ih r₃
    · exact .inr ⟨_, rfl⟩

theorem regRead_value (T : Timestamp content counter) (hc : Monotone clock) {offset : BitVec 64}
    (h : r.regRead K content clock fd offset fuel = (.value v, r')) :
    ∃ n, r.reads ≤ n ∧ n < r'.reads ∧ v = counter (clock n) := by
  unfold regRead at h
  split at h
  · exact nomatch h
  · exact readLoop_value T hc h

/-- The loop ends, and with a value if the driver reads the registers. What it returns is the
counter at a moment between its first and its last read, so that a call that begins after another
has ended does not return less. -/
theorem regRead_linearisable (T : Timestamp content counter) {clock₁ clock₂ : Nat → Nat}
    (hc₁ : Monotone clock₁) (hc₂ : Monotone clock₂) (K₁ K₂ : Kernel κ) (fd₁ fd₂ : Int)
    (offset₁ offset₂ : BitVec 64) (fuel₁ fuel₂ : Nat) (r₁ r₂ : Reader κ) :
    (2 ^ 32 ≤ fuel₁ → (r₁.regRead K₁ content clock₁ fd₁ offset₁ fuel₁).1 ≠ .unfinished ∧
      (Answers K₁ fd₁ → offset₁ &&& ~~~1 = BitVec.ofNat 64 kTimestamp →
        ∃ v, (r₁.regRead K₁ content clock₁ fd₁ offset₁ fuel₁).1 = .value v)) ∧
    ∀ v₁ r₁', r₁.regRead K₁ content clock₁ fd₁ offset₁ fuel₁ = (.value v₁, r₁') →
      (∃ n, r₁.reads ≤ n ∧ n < r₁'.reads ∧ v₁ = counter (clock₁ n)) ∧
      ∀ v₂ r₂', r₂.regRead K₂ content clock₂ fd₂ offset₂ fuel₂ = (.value v₂, r₂') →
        clock₁ (r₁'.reads - 1) ≤ clock₂ r₂.reads → v₁ ≤ v₂ := by
  refine ⟨fun hf => ⟨?_, fun hK hoffset => ?_⟩,
    fun v₁ r₁' h₁ => ⟨regRead_value T hc₁ h₁, fun v₂ r₂' h₂ hbefore => ?_⟩⟩
  · unfold regRead
    split
    · exact nofun
    · exact readLoop_ends T hc₁ hf
  · rw [regRead, if_neg (not_not.mpr hoffset)]
    exact (readLoop_answered hK content clock₁ fuel₁ r₁).resolve_left (readLoop_ends T hc₁ hf)
  · obtain ⟨n₁, -, hn₁, rfl⟩ := regRead_value T hc₁ h₁
    obtain ⟨n₂, hn₂, -, rfl⟩ := regRead_value T hc₂ h₂
    exact T.mono ((hc₁ (by omega)).trans (hbefore.trans (hc₂ hn₂)))

/-- A counter whose lower half is about to wrap round. -/
def wrapping (t : Nat) : BitVec 64 := BitVec.ofNat 64 (min (2 ^ 32 - 2 + t) (2 ^ 64 - 1))

def wrappingHalves (offset t : Nat) : BitVec 32 :=
  if offset = kTimestampUpper then (wrapping t).extractLsb' 32 32 else (wrapping t).setWidth 32

theorem timestamp_wrapping : Timestamp wrappingHalves wrapping where
  upper _ := rfl
  lower _ := rfl
  mono {t t'} h := by
    have hle : min (2 ^ 32 - 2 + t) (2 ^ 64 - 1) ≤ min (2 ^ 32 - 2 + t') (2 ^ 64 - 1) := by omega
    rw [wrapping, wrapping, BitVec.le_def, BitVec.toNat_ofNat, BitVec.toNat_ofNat,
      Nat.mod_eq_of_lt (by omega), Nat.mod_eq_of_lt (by omega)]
    exact hle

/-- The driver reads every register. -/
def answering : Kernel Unit := fun _ _ k => (.ok .none, k)

theorem answers_answering (fd : Int) : Answers answering fd := fun _ k => ⟨.none, k, rfl⟩

/-- The first round of the first call sees the wrap. -/
theorem regRead_linearisable_wrapping :
    (∃ v, (regRead answering wrappingHalves id 3 0x2358 (2 ^ 32) ⟨(), 0⟩).1 = .value v) ∧
    regRead answering wrappingHalves id 3 0x2358 2 ⟨(), 0⟩ =
      (.value (BitVec.ofNat 64 (2 ^ 32 + 2)), ⟨(), 6⟩) ∧
    regRead answering wrappingHalves id 3 0x2358 2 ⟨(), 6⟩ =
      (.value (BitVec.ofNat 64 (2 ^ 32 + 5)), ⟨(), 9⟩) ∧
    (∃ n, 0 ≤ n ∧ n < 6 ∧ BitVec.ofNat 64 (2 ^ 32 + 2) = wrapping n) ∧
      BitVec.ofNat 64 (2 ^ 32 + 2) ≤ BitVec.ofNat 64 (2 ^ 32 + 5) := by
  have hfirst : regRead answering wrappingHalves id 3 0x2358 2 ⟨(), 0⟩ =
      (.value (BitVec.ofNat 64 (2 ^ 32 + 2)), ⟨(), 6⟩) := by decide
  have hsecond : regRead answering wrappingHalves id 3 0x2358 2 ⟨(), 6⟩ =
      (.value (BitVec.ofNat 64 (2 ^ 32 + 5)), ⟨(), 9⟩) := by decide
  have hends := (regRead_linearisable timestamp_wrapping monotone_id monotone_id answering answering
    3 3 0x2358 0x2358 (2 ^ 32) 2 (⟨(), 0⟩ : Reader Unit) ⟨(), 6⟩).1 (Nat.le_refl _)
  obtain ⟨hmoment, hlater⟩ := (regRead_linearisable timestamp_wrapping monotone_id monotone_id
    answering answering 3 3 0x2358 0x2358 2 2 (⟨(), 0⟩ : Reader Unit) ⟨(), 6⟩).2 _ _ hfirst
  exact ⟨hends.2 (answers_answering 3) (by decide), hfirst, hsecond, hmoment,
    hlater _ _ hsecond (by decide)⟩

end Reader

end Winsys

end IntelGfx
