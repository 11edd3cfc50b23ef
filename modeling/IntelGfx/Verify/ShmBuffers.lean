import IntelGfx.Mesa.ShmBuffers

/-!
# Sizes that pass the checks

The total is checked after it has been multiplied on 64 bits. It is right unless the product is
within `INT32_MAX` above a multiple of `2 ^ 64`, which the heights of `present_wayland` rule out.
-/

namespace IntelGfx

namespace Presentation

variable {width height : UInt32} {s : Sizes}

/-- The bytes of `HAIKU_WL_BUFFER_COUNT` buffers. -/
def total (width height : UInt32) : Nat := 4 * width.toNat * height.toNat * 3

/-- The bytes of buffer `i`. -/
def memory (map : Nat) (width height : UInt32) (s : Sizes) (i : Fin 3) : Span :=
  ⟨map, s.data i, 4 * width.toNat * height.toNat⟩

/-- What the checks are for. -/
structure Sound (width height : UInt32) (s : Sizes) : Prop where
  total : total width height ≤ INT32_MAX
  apart : ∀ map i j, i ≠ j → ¬ (memory map width height s i).Overlaps (memory map width height s j)
  inside : ∀ i, s.data i + 4 * width.toNat * height.toNat ≤ s.totalSize.toNat
  arguments : ∀ i : Fin 3, s.arguments width height i =
    (((4 * width.toNat * height.toNat * i : Nat) : Int), (width.toNat : Int),
      (height.toNat : Int), ((4 * width.toNat : Nat) : Int))

/-- The total is past a multiple of `2 ^ 64`, by no more than `INT32_MAX`. -/
def Wraps (width height : UInt32) : Prop :=
  2 ^ 64 ≤ total width height ∧ total width height ≤ 2 ^ 64 + INT32_MAX ∨
  2 ^ 65 ≤ total width height ∧ total width height ≤ 2 ^ 65 + INT32_MAX

theorem int32_of_le {n : Nat} (h : n ≤ INT32_MAX) : int32 n = n := by
  unfold INT32_MAX at h
  unfold int32
  rw [Int.bmod_eq_of_le] <;> omega

/-- The widths that are not refused. -/
theorem stride_toNat (h : width.toNat ≤ UINT32_MAX / 4) : (width * 4).toNat = 4 * width.toNat := by
  unfold UINT32_MAX at h
  rw [UInt32.toNat_mul]
  change width.toNat * 4 % 2 ^ 32 = _
  omega

theorem total_lt (height : UInt32) (h : width.toNat ≤ UINT32_MAX / 4) :
    total width height < 3 * 2 ^ 64 := by
  unfold UINT32_MAX at h
  have hproduct : width.toNat * height.toNat < 2 ^ 30 * 2 ^ 32 :=
    Nat.mul_lt_mul'' (by omega) height.toNat_lt
  unfold total
  rw [Nat.mul_assoc 4]
  omega

theorem oneSize_toNat (h : width.toNat ≤ UINT32_MAX / 4) :
    ((width * 4).toUInt64 * height.toUInt64).toNat = 4 * width.toNat * height.toNat := by
  have hlt := total_lt height h
  unfold total at hlt
  rw [UInt64.toNat_mul, UInt32.toNat_toUInt64, UInt32.toNat_toUInt64, stride_toNat h]
  exact Nat.mod_eq_of_lt (by omega)

theorem totalSize_toNat (h : width.toNat ≤ UINT32_MAX / 4) :
    ((width * 4).toUInt64 * height.toUInt64 * HAIKU_WL_BUFFER_COUNT).toNat =
      total width height % 2 ^ 64 := by
  rw [UInt64.toNat_mul, oneSize_toNat h]
  rfl

/-- The checks, with the total as the code has it. -/
theorem bufferSizes_eq_some : bufferSizes width height = some s ↔
    (width ≠ 0 ∧ height ≠ 0 ∧ width.toNat ≤ UINT32_MAX / 4 ∧
      total width height % 2 ^ 64 ≤ INT32_MAX) ∧
    s = ⟨width * 4, (width * 4).toUInt64 * height.toUInt64,
      (width * 4).toUInt64 * height.toUInt64 * HAIKU_WL_BUFFER_COUNT⟩ := by
  unfold bufferSizes
  by_cases hbad : width = 0 ∨ height = 0 ∨ UINT32_MAX / 4 < width.toNat
  · rw [if_pos hbad]
    exact ⟨nofun, fun h => absurd hbad (by simp [h.1.1, h.1.2.1, h.1.2.2.1])⟩
  rw [if_neg hbad]
  simp only [not_or, Nat.not_lt] at hbad
  obtain ⟨hwidth, hheight, hlimit⟩ := hbad
  have hone : ¬ (width * 4).toUInt64 * height.toUInt64 = 0 := by
    intro hzero
    have hnat := congrArg UInt64.toNat hzero
    rw [oneSize_toNat hlimit] at hnat
    simp only [UInt64.toNat_zero, Nat.mul_eq_zero, show ¬ 4 = 0 by decide, false_or] at hnat
    rcases hnat with hnat | hnat
    · exact hwidth (UInt32.toNat_inj.mp hnat)
    · exact hheight (UInt32.toNat_inj.mp hnat)
  dsimp only
  rw [totalSize_toNat hlimit]
  have hsize : ¬ SIZE_MAX < total width height % 2 ^ 64 := by
    unfold SIZE_MAX
    omega
  by_cases hlarge : INT32_MAX < total width height % 2 ^ 64
  · rw [if_pos (.inr (.inl hlarge))]
    exact ⟨nofun, fun h => absurd h.1.2.2.2 (Nat.not_le.mpr hlarge)⟩
  · rw [if_neg (not_or.mpr ⟨hone, not_or.mpr ⟨hlarge, hsize⟩⟩)]
    exact ⟨fun h => ⟨⟨hwidth, hheight, hlimit, Nat.le_of_not_lt hlarge⟩,
      (Option.some.inj h).symm⟩, fun h => congrArg some h.2.symm⟩

theorem data_eq (h : bufferSizes width height = some s) (ht : total width height ≤ INT32_MAX)
    (i : Fin 3) : s.data i = 4 * width.toNat * height.toNat * i := by
  obtain ⟨⟨-, -, hlimit, -⟩, rfl⟩ := bufferSizes_eq_some.mp h
  have hindex : (UInt64.ofNat i).toNat = i :=
    UInt64.toNat_ofNat_of_lt' (Nat.lt_trans i.isLt (by decide))
  have hle : 4 * width.toNat * height.toNat * i ≤ total width height :=
    Nat.mul_le_mul_left _ (by omega)
  unfold Sizes.data
  rw [UInt64.toNat_mul, oneSize_toNat hlimit, hindex]
  unfold INT32_MAX at ht
  exact Nat.mod_eq_of_lt (by omega)

/-- A total that has not wrapped round. -/
theorem sound_of_le (h : bufferSizes width height = some s) (ht : total width height ≤ INT32_MAX) :
    Sound width height s := by
  have hdata := data_eq h ht
  obtain ⟨⟨hwidth, hheight, hlimit, hle⟩, hs⟩ := bufferSizes_eq_some.mp h
  have hone : ∀ i j : Fin 3, i < j →
      s.data i + 4 * width.toNat * height.toNat ≤ s.data j := by
    intro i j hij
    rw [hdata i, hdata j]
    exact Nat.mul_le_mul_left (4 * width.toNat * height.toNat) (Nat.succ_le_of_lt hij)
  have hlast : ∀ i : Fin 3, s.data i + 4 * width.toNat * height.toNat ≤ total width height := by
    intro i
    rw [hdata i]
    exact Nat.mul_le_mul_left (4 * width.toNat * height.toNat) (Nat.succ_le_of_lt i.isLt)
  have hw : 0 < width.toNat := Nat.pos_of_ne_zero fun hz => hwidth (UInt32.toNat_inj.mp hz)
  have hh : 0 < height.toNat := Nat.pos_of_ne_zero fun hz => hheight (UInt32.toNat_inj.mp hz)
  have hstride : 4 * width.toNat ≤ 4 * width.toNat * height.toNat := Nat.le_mul_of_pos_right _ hh
  have hrows : height.toNat ≤ 4 * width.toNat * height.toNat :=
    Nat.le_mul_of_pos_left _ (by omega)
  refine ⟨ht, fun map i j hij hover => ?_, fun i => ?_, fun i => ?_⟩
  · obtain ⟨-, byte, ⟨hi, hi'⟩, hj, hj'⟩ := hover
    simp only [memory] at hi hi' hj hj'
    rcases Nat.lt_or_gt_of_ne (Fin.val_ne_of_ne hij) with hlt | hlt
    · have := hone i j hlt
      omega
    · have := hone j i hlt
      omega
  · have htotal : s.totalSize.toNat = total width height % 2 ^ 64 := by
      rw [hs]
      exact totalSize_toNat hlimit
    unfold INT32_MAX at ht
    rw [htotal, Nat.mod_eq_of_lt (by omega)]
    exact hlast i
  · have hi := hlast i
    have hrow : s.stride.toNat = 4 * width.toNat := by
      rw [hs]
      exact stride_toNat hlimit
    unfold Sizes.arguments
    rw [hrow, int32_of_le (by omega), int32_of_le (by omega), int32_of_le (by omega),
      int32_of_le (by omega), hdata i]

/-- What passes the checks is sound, if and only if the total does not wrap round. -/
theorem bufferSizes_sound_iff (width height : UInt32) :
    (∀ s, bufferSizes width height = some s → Sound width height s) ↔
      (width.toNat ≤ UINT32_MAX / 4 → ¬ Wraps width height) := by
  constructor
  · intro h hlimit hwraps
    have hpass : total width height % 2 ^ 64 ≤ INT32_MAX := by
      unfold Wraps INT32_MAX at hwraps
      unfold INT32_MAX
      omega
    have hwidth : width ≠ 0 := by
      rintro rfl
      simp [Wraps, total] at hwraps
    have hheight : height ≠ 0 := by
      rintro rfl
      simp [Wraps, total] at hwraps
    have hs := (h _ (bufferSizes_eq_some.mpr ⟨⟨hwidth, hheight, hlimit, hpass⟩, rfl⟩)).total
    unfold Wraps INT32_MAX at hwraps
    unfold INT32_MAX at hs
    omega
  · intro h s hs
    obtain ⟨⟨-, -, hlimit, hle⟩, -⟩ := bufferSizes_eq_some.mp hs
    have hlt := total_lt height hlimit
    have hwraps := h hlimit
    refine sound_of_le hs ?_
    unfold Wraps INT32_MAX at hwraps
    unfold INT32_MAX at hle ⊢
    omega

/-- The rows of a `pipe_resource` are too few for the total to wrap round. -/
theorem not_wraps_of_rows (height : UInt16) (h : width.toNat ≤ UINT32_MAX / 4) :
    ¬ Wraps width height.toUInt32 := by
  unfold UINT32_MAX at h
  have hproduct : width.toNat * height.toNat < 2 ^ 30 * 2 ^ 16 :=
    Nat.mul_lt_mul'' (by omega) height.toNat_lt
  unfold Wraps total
  rw [UInt16.toNat_toUInt32, Nat.mul_assoc 4]
  omega

/-- The buffers that `present_wayland` draws to are of the sizes that are checked. -/
theorem createWaylandBuffers_sound {answers : Creation} {k : Nat} {height : UInt16}
    {state state' : State}
    (h : createWaylandBuffers answers k width.toNat height.toNat state = (true, state')) :
    ∃ s, bufferSizes width height.toUInt32 = some s ∧ Sound width height.toUInt32 s ∧
      (state'.surfaces k).wlStride = s.stride.toNat ∧
      (state'.surfaces k).wlMapSize = s.totalSize.toNat := by
  unfold createWaylandBuffers at h
  dsimp only at h
  split at h
  · exact nomatch h
  next hbad =>
  simp only [not_or, Nat.not_lt] at hbad
  obtain ⟨hwidth, hheight, hlimit⟩ := hbad
  split at h
  · exact nomatch h
  next hlarge =>
  simp only [not_or, Nat.not_lt] at hlarge
  have htotal : total width height.toUInt32 = width.toNat * 4 * height.toNat * 3 := by
    unfold total
    rw [UInt16.toNat_toUInt32, Nat.mul_comm 4]
  have hle : total width height.toUInt32 ≤ INT32_MAX := htotal ▸ hlarge.2
  have hmod : total width height.toUInt32 % 2 ^ 64 = total width height.toUInt32 := by
    unfold INT32_MAX at hle
    exact Nat.mod_eq_of_lt (by omega)
  have hw : width ≠ 0 := fun hz => hwidth (congrArg UInt32.toNat hz)
  have hh : height.toUInt32 ≠ 0 := fun hz =>
    hheight (UInt16.toNat_toUInt32 height ▸ congrArg UInt32.toNat hz)
  have hsome := (bufferSizes_eq_some (s := ⟨width * 4, _, _⟩)).mpr
    ⟨⟨hw, hh, hlimit, hmod.symm ▸ hle⟩, rfl⟩
  refine ⟨_, hsome, sound_of_le hsome hle, ?_⟩
  rw [stride_toNat hlimit, totalSize_toNat hlimit, hmod, htotal]
  split at h
  · exact nomatch h
  split at h
  · exact nomatch h
  split at h
  · exact nomatch h
  · cases h
    simp only [State.setSurface, Function.update_self]
    exact ⟨Nat.mul_comm _ _, trivial⟩

theorem not_sound_of_wrap :
    ¬ ∀ (width height : UInt32) (s : Sizes), bufferSizes width height = some s →
      Sound width height s := by
  intro h
  have hs := h 1073730237 1431671215 ⟨4294920948, 6148914691952111820, 2146783844⟩ (by decide)
  exact absurd hs.total (by decide)

end Presentation

end IntelGfx
