import IntelGfx.Kernel.StateLayout

/-!
# Layouts decode to what they describe

A layout is a list of segments, and `WriteStateLayout` reads its bytes back: `described` says what
the segments put into each dword of the image.
-/

namespace IntelGfx
open Hardware

namespace StateLayout

/-- A register that is loaded, and whether `REG16` is used for it. -/
structure Register where
  offset : Nat
  wide : Bool
  aligned : offset % 4 = 0
  fits : offset < if wide then 0x10000 else 0x200

inductive Segment where
  | skip (count : Nat) (h : 0 < count ∧ count < 128)
  | load (posted : Bool) (registers : List Register)
      (h : 0 < registers.length ∧ registers.length < 64)

def Register.encode (r : Register) : List Byte := if r.wide then reg16 r.offset else reg r.offset

namespace Segment

def encode : Segment → List Byte
  | skip count _ => [nop count]
  | load posted registers _ => lri registers.length posted :: registers.flatMap Register.encode

/-- The dwords of a segment. -/
def size : Segment → Nat
  | skip count _ => count
  | load _ registers _ => 1 + 2 * registers.length

end Segment

/-- The bytes of a layout. -/
def encode (layout : List Segment) : List Byte := layout.flatMap Segment.encode ++ [0]

/-- The dwords of some segments. -/
def extent (layout : List Segment) : Nat := (layout.map Segment.size).sum

/-- The register whose place is the dword `k`, if the first has its place at `p`. -/
def registerAt (registers : List Register) (p k : Nat) : Option Register :=
  if p ≤ k ∧ (k - p) % 2 = 0 then registers[(k - p) / 2]? else none

/-- What the segments put into the dword `k`, if the first begins at `p`. -/
def described (base : DWord) : List Segment → (p k : Nat) → Option DWord
  | [], _, _ => none
  | .skip count _ :: layout, p, k => described base layout (p + count) k
  | .load posted registers _ :: layout, p, k =>
    if k = p then some (header (BitVec.ofNat 32 registers.length) posted)
    else ((registerAt registers (p + 1) k).map (base + BitVec.ofNat 32 ·.offset)).or
      (described base layout (p + 1 + 2 * registers.length) k)

/-! ## Reading bytes -/

theorem low_bits {n : Nat} (h : n < 128) : BitVec.ofNat 8 n &&& 0x80 = 0 ∧
    BitVec.ofNat 8 n &&& ~~~0x80 = BitVec.ofNat 8 n := by
  revert n
  decide

theorem high_bits {n : Nat} (h : n < 128) : BitVec.ofNat 8 (n ||| 0x80) &&& 0x80 ≠ 0 ∧
    BitVec.ofNat 8 (n ||| 0x80) &&& ~~~0x80 = BitVec.ofNat 8 n := by
  revert n
  decide

theorem shift_or {x y : Nat} (hx : x < 2 ^ 20) (hy : y < 128) :
    BitVec.ofNat 32 x <<< 7 ||| (BitVec.ofNat 8 y).setWidth 32 = BitVec.ofNat 32 (x * 128 + y) := by
  apply BitVec.eq_of_toNat_eq
  rw [BitVec.toNat_or, BitVec.toNat_shiftLeft, BitVec.toNat_setWidth, BitVec.toNat_ofNat,
    BitVec.toNat_ofNat, BitVec.toNat_ofNat, Nat.mod_eq_of_lt (by omega : x < 2 ^ 32),
    Nat.mod_eq_of_lt (by omega : y < 2 ^ 8), Nat.mod_eq_of_lt (by omega : y < 2 ^ 32),
    Nat.shiftLeft_eq, Nat.mod_eq_of_lt (by omega : x * 2 ^ 7 < 2 ^ 32),
    ← Nat.shiftLeft_eq, ← Nat.shiftLeft_add_eq_or_of_lt (by omega : y < 2 ^ 7), Nat.shiftLeft_eq,
    Nat.mod_eq_of_lt (by omega)]

theorem readOffset_last {x y : Nat} (hx : x < 2 ^ 20) (hy : y < 128) (data : List Byte) :
    readOffset (BitVec.ofNat 32 x) (BitVec.ofNat 8 y :: data) =
      some (BitVec.ofNat 32 (x * 128 + y), data) := by
  obtain ⟨hhigh, hlow⟩ := low_bits hy
  rw [readOffset, hlow, shift_or hx hy, if_neg (not_not.2 hhigh)]

theorem readOffset_more {x y : Nat} (hx : x < 2 ^ 20) (hy : y < 128) (data : List Byte) :
    readOffset (BitVec.ofNat 32 x) (BitVec.ofNat 8 (y ||| 0x80) :: data) =
      readOffset (BitVec.ofNat 32 (x * 128 + y)) data := by
  obtain ⟨hhigh, hlow⟩ := high_bits hy
  rw [readOffset, hlow, shift_or hx hy, if_pos hhigh]

theorem readOffset_encode (r : Register) (data : List Byte) :
    readOffset 0 (r.encode ++ data) = some (BitVec.ofNat 32 (r.offset / 4), data) := by
  have haligned := r.aligned
  have hfits := r.fits
  cases hw : r.wide with
  | false =>
    simp only [hw, Bool.false_eq_true, if_false] at hfits
    simp only [Register.encode, hw, Bool.false_eq_true, if_false, reg, Nat.shiftRight_eq_div_pow]
    have h := readOffset_last (x := 0) (y := r.offset / 4) (by omega) (by omega) data
    rwa [Nat.zero_mul, Nat.zero_add] at h
  | true =>
    simp only [hw, if_true] at hfits
    have hmask : r.offset >>> 2 &&& 0x7f = r.offset / 4 % 128 := by
      rw [Nat.shiftRight_eq_div_pow]
      exact Nat.and_two_pow_sub_one_eq_mod _ 7
    simp only [Register.encode, hw, if_true, reg16, hmask]
    rw [Nat.shiftRight_eq_div_pow, List.cons_append, List.cons_append, List.nil_append]
    have hmore := readOffset_more (x := 0) (y := r.offset / 2 ^ 9) (by omega) (by omega)
      (BitVec.ofNat 8 (r.offset / 4 % 128) :: data)
    have hlast := readOffset_last (x := r.offset / 2 ^ 9) (y := r.offset / 4 % 128) (by omega)
      (by omega) data
    have hoffset : r.offset / 2 ^ 9 * 128 + r.offset / 4 % 128 = r.offset / 4 := by omega
    rwa [Nat.zero_mul, Nat.zero_add, hlast, hoffset] at hmore

/-- The address of a register, from the offset that was read. -/
theorem address_eq (base : DWord) (r : Register) :
    base + BitVec.ofNat 32 (r.offset / 4) <<< 2 = base + BitVec.ofNat 32 r.offset := by
  have haligned := r.aligned
  have hfits := r.fits
  have hlt : r.offset < 0x10000 := by
    split at hfits <;> omega
  congr 1
  apply BitVec.eq_of_toNat_eq
  rw [BitVec.toNat_shiftLeft, BitVec.toNat_ofNat, BitVec.toNat_ofNat, Nat.shiftLeft_eq]
  omega

/-! ## Registers -/

theorem registerAt_cons_of_lt {registers : List Register} {r : Register} {p k : Nat}
    (h : k < p + 2) :
    registerAt (r :: registers) p k = if k = p then some r else none := by
  unfold registerAt
  by_cases hk : k = p
  · rw [if_pos hk, if_pos (by omega), hk, Nat.sub_self]
    rfl
  · rw [if_neg hk, if_neg (by omega)]

theorem registerAt_cons_of_le {registers : List Register} {r : Register} {p k : Nat}
    (h : p + 2 ≤ k) :
    registerAt (r :: registers) p k = registerAt registers (p + 2) k := by
  unfold registerAt
  have hindex : (k - p) / 2 = (k - (p + 2)) / 2 + 1 := by omega
  rw [hindex, List.getElem?_cons_succ]
  refine if_congr ?_ rfl rfl
  constructor <;> omega

theorem registerAt_of_lt {registers : List Register} {p k : Nat} (h : k < p) :
    registerAt registers p k = none := by
  unfold registerAt
  rw [if_neg (by omega)]

theorem registerAt_of_ge {registers : List Register} {p k : Nat}
    (h : p + 2 * registers.length ≤ k) :
    registerAt registers p k = none := by
  unfold registerAt
  split
  · exact List.getElem?_eq_none (by omega)
  · rfl

theorem registerAt_index {registers : List Register} {r : Register} {p i : Nat}
    (h : registers[i]? = some r) : registerAt registers p (p + 2 * i) = some r := by
  unfold registerAt
  rw [if_pos (by omega), show (p + 2 * i - p) / 2 = i by omega, h]

theorem registerAt_some {registers : List Register} {r : Register} {p k : Nat}
    (h : registerAt registers p k = some r) : ∃ i, registers[i]? = some r ∧ k = p + 2 * i := by
  unfold registerAt at h
  split at h
  · exact ⟨_, h, by omega⟩
  · cases h

/-- The loop over the registers of a load puts each of them in its place. -/
theorem writeRegisters_encode (base : DWord) (registers : List Register) (p : Nat) (state : Image)
    (data : List Byte) :
    writeRegisters base registers.length p state (registers.flatMap Register.encode ++ data) =
      some (p + 2 * registers.length, fun k => ((registerAt registers p k).map
        (base + BitVec.ofNat 32 ·.offset)).getD (state k), data) := by
  induction registers generalizing p state with
  | nil =>
    have hnone (k : Nat) : registerAt [] p k = none := by simp [registerAt]
    simp only [hnone]
    rfl
  | cons r registers ih =>
    rw [List.flatMap_cons, List.append_assoc, List.length_cons, writeRegisters, readOffset_encode]
    dsimp only
    rw [ih, address_eq]
    simp only [Option.some.injEq, Prod.mk.injEq, and_true]
    refine ⟨by omega, funext fun k => ?_⟩
    rcases Nat.lt_or_ge k (p + 2) with hk | hk
    · rw [registerAt_cons_of_lt hk, registerAt_of_lt hk, Option.map_none, Option.getD_none,
        Function.update_apply]
      split <;> rfl
    · rw [registerAt_cons_of_le hk, Function.update_of_ne (by omega)]

/-! ## Segments -/

theorem lri_bits {n : Nat} (posted : Bool) (h : 0 < n ∧ n < 64) : lri n posted ≠ 0 ∧
    lri n posted &&& 0x80 = 0 ∧ lri n posted &&& 0x3f = BitVec.ofNat 8 n ∧
    (lri n posted >>> 6 != 0) = posted := by
  have hall : ∀ n < 64, 0 < n → ∀ posted, lri n posted ≠ 0 ∧ lri n posted &&& 0x80 = 0 ∧
      lri n posted &&& 0x3f = BitVec.ofNat 8 n ∧ (lri n posted >>> 6 != 0) = posted := by decide
  exact hall n h.2 h.1 posted

theorem nop_bits {n : Nat} (h : 0 < n ∧ n < 128) : nop n ≠ 0 ∧ nop n &&& 0x80 ≠ 0 ∧
    (nop n &&& ~~~0x80).toNat = n := by
  have hall : ∀ n < 128, 0 < n → nop n ≠ 0 ∧ nop n &&& 0x80 ≠ 0 ∧
      (nop n &&& ~~~0x80).toNat = n := by decide
  exact hall n h.2 h.1

theorem described_of_lt (base : DWord) {layout : List Segment} {p k : Nat} (h : k < p) :
    described base layout p k = none := by
  induction layout generalizing p with
  | nil => rfl
  | cons segment layout ih =>
    cases segment with
    | skip count hc => exact ih (by omega)
    | load posted registers hl =>
      rw [described, if_neg (by omega), registerAt_of_lt (by omega), ih (by omega)]
      rfl

/-- The loop puts what the segments describe into the image, and stops at the terminator. -/
theorem writeLoop_encode (base : DWord) (layout : List Segment) (rest : List Byte) {fuel : Nat}
    (hf : layout.length < fuel) (p : Nat) (state : Image) :
    writeLoop base fuel p state (layout.flatMap Segment.encode ++ 0 :: rest) =
      some (fun k => (described base layout p k).getD (state k), 0 :: rest) := by
  induction layout generalizing fuel p state with
  | nil =>
    cases fuel with
    | zero => cases hf
    | succ fuel => rfl
  | cons segment layout ih =>
    cases fuel with
    | zero => cases hf
    | succ fuel =>
    have hf' : layout.length < fuel := Nat.lt_of_succ_lt_succ hf
    rw [List.flatMap_cons, List.append_assoc]
    cases segment with
    | skip count h =>
      obtain ⟨hne, hhigh, hcount⟩ := nop_bits h
      rw [Segment.encode, List.singleton_append, writeLoop, if_neg hne, if_pos hhigh,
        hcount, ih hf']
      rfl
    | load posted registers h =>
      obtain ⟨hne, hhigh, hcount, hposted⟩ := lri_bits posted h
      have hwidth : (BitVec.ofNat 8 registers.length).setWidth 32 =
          BitVec.ofNat 32 registers.length := by
        apply BitVec.eq_of_toNat_eq
        rw [BitVec.toNat_setWidth, BitVec.toNat_ofNat, BitVec.toNat_ofNat]
        omega
      have hlength : (BitVec.ofNat 8 registers.length).toNat = registers.length := by
        rw [BitVec.toNat_ofNat]
        omega
      rw [Segment.encode, List.cons_append, writeLoop, if_neg hne, if_neg (not_not.2 hhigh)]
      dsimp only
      rw [hcount, hposted, hwidth, hlength, writeRegisters_encode]
      dsimp only
      rw [ih hf']
      simp only [Option.some.injEq, Prod.mk.injEq, and_true]
      funext k
      rw [described]
      by_cases hk : k = p
      · rw [if_pos hk, described_of_lt base (by omega), registerAt_of_lt (by omega), hk,
          Function.update_self]
        rfl
      · rw [if_neg hk, Function.update_of_ne hk]
        cases hr : registerAt registers (p + 1) k with
        | none => rfl
        | some r =>
          obtain ⟨i, hi, rfl⟩ := registerAt_some hr
          obtain ⟨hlt, -⟩ := List.getElem?_eq_some_iff.mp hi
          rw [described_of_lt base (by omega)]
          rfl

/-! ## What is described where -/

theorem described_append (base : DWord) (before layout : List Segment) {p k : Nat}
    (hk : p + extent before ≤ k) :
    described base (before ++ layout) p k = described base layout (p + extent before) k := by
  induction before generalizing p with
  | nil => rfl
  | cons segment before ih =>
    have hextent : extent (segment :: before) = segment.size + extent before := rfl
    rw [hextent, ← Nat.add_assoc] at hk ⊢
    cases segment with
    | skip count h => exact ih hk
    | load posted registers h =>
      rw [Segment.size] at hk ⊢
      rw [List.cons_append, described, if_neg (by omega), registerAt_of_ge (by omega),
        Nat.add_assoc p, ih (by omega)]
      rfl

/-- The dwords that are described are those of the loads. -/
theorem described_some {base : DWord} {layout : List Segment} {p k : Nat} {x : DWord}
    (h : described base layout p k = some x) : ∃ before posted registers hl after,
      layout = before ++ .load posted registers hl :: after ∧ (k = p + extent before ∨
        ∃ i < registers.length, k = p + extent before + 1 + 2 * i) := by
  induction layout generalizing p with
  | nil => cases h
  | cons segment layout ih =>
    have hrest {p' : Nat} (hp : p' = p + segment.size) (h : described base layout p' k = some x) :
        ∃ before posted registers hl after, segment :: layout =
          before ++ .load posted registers hl :: after ∧ (k = p + extent before ∨
            ∃ i < registers.length, k = p + extent before + 1 + 2 * i) := by
      obtain ⟨before, posted, registers, hl, after, rfl, hk⟩ := ih h
      refine ⟨segment :: before, posted, registers, hl, after, rfl, ?_⟩
      rwa [show extent (segment :: before) = segment.size + extent before from rfl, ← Nat.add_assoc,
        ← hp]
    cases segment with
    | skip count hc => exact hrest rfl h
    | load posted registers hl =>
      rw [described] at h
      split at h
      · next hk => exact ⟨[], posted, registers, hl, layout, rfl, .inl hk⟩
      cases hr : registerAt registers (p + 1) k with
      | none =>
        rw [hr] at h
        exact hrest (Nat.add_assoc p 1 _) h
      | some r =>
        obtain ⟨i, hi, hk⟩ := registerAt_some hr
        obtain ⟨hlt, -⟩ := List.getElem?_eq_some_iff.mp hi
        exact ⟨[], posted, registers, hl, layout, rfl, .inr ⟨i, hlt, hk⟩⟩

/-- The image holds what the layout describes, and is otherwise as it was. -/
structure Places (base : DWord) (layout : List Segment) (image final : Image) : Prop where
  header : ∀ {before posted registers h after},
    layout = before ++ .load posted registers h :: after →
    final (extent before) = kMiLoadRegisterImmediate |||
      BitVec.ofNat 32 (2 * registers.length - 1) ||| if posted then kMiLoadRegisterPosted else 0
  register : ∀ {before posted registers h after i r},
    layout = before ++ .load posted registers h :: after → registers[i]? = some r →
    final (extent before + 1 + 2 * i) = base + BitVec.ofNat 32 r.offset
  other : ∀ {k}, (∀ before posted registers h after,
    layout = before ++ .load posted registers h :: after → k ≠ extent before ∧
      ∀ i < registers.length, k ≠ extent before + 1 + 2 * i) → final k = image k

theorem header_eq {n : Nat} (posted : Bool) (hpos : 0 < n) : header (BitVec.ofNat 32 n) posted =
    kMiLoadRegisterImmediate ||| BitVec.ofNat 32 (2 * n - 1) |||
      if posted then kMiLoadRegisterPosted else 0 := by
  have hlength : (2 : DWord) * BitVec.ofNat 32 n - 1 = BitVec.ofNat 32 (2 * n - 1) := by
    apply BitVec.eq_of_toNat_eq
    rw [BitVec.toNat_sub, BitVec.toNat_mul, BitVec.toNat_ofNat, BitVec.toNat_ofNat,
      show (2 : DWord).toNat = 2 from rfl, show (1 : DWord).toNat = 1 from rfl]
    omega
  unfold header
  rw [hlength]
  cases posted with
  | false => exact (BitVec.or_zero).symm
  | true => rfl

theorem described_places (base : DWord) (layout : List Segment) (image : Image) :
    Places base layout image fun k => (described base layout 0 k).getD (image k) where
  header := by
    rintro before posted registers h after rfl
    rw [described_append base before _ (Nat.le_of_eq (Nat.zero_add _)), described,
      if_pos (Nat.zero_add _).symm, ← header_eq posted h.1]
    rfl
  register := by
    rintro before posted registers h after i r rfl hi
    rw [described_append base before _ (by omega), described, if_neg (by omega), Nat.zero_add,
      registerAt_index hi]
    rfl
  other := by
    intro k hk
    cases hd : described base layout 0 k with
    | none => rfl
    | some x =>
      obtain ⟨before, posted, registers, hl, after, heq, hplace⟩ := described_some hd
      obtain ⟨hheader, hregister⟩ := hk before posted registers hl after heq
      rw [Nat.zero_add] at hplace
      rcases hplace with h | ⟨i, hi, h⟩
      · exact absurd h hheader
      · exact absurd h (hregister i hi)

theorem length_le_flatMap (layout : List Segment) :
    layout.length ≤ (layout.flatMap Segment.encode).length := by
  induction layout with
  | nil => exact Nat.le_refl _
  | cons segment layout ih =>
    rw [List.flatMap_cons, List.length_append, List.length_cons]
    have hone : 1 ≤ segment.encode.length := by
      cases segment with
      | skip count h => exact Nat.le_refl 1
      | load posted registers h => exact Nat.le_add_left 1 _
    omega

/-- A layout is carried out to its terminator. -/
theorem writeStateLayout_encode (base : DWord) (layout : List Segment) (image : Image)
    (rest : List Byte) : writeStateLayout image base (encode layout ++ rest) =
      some (fun k => (described base layout 0 k).getD (image k), 0 :: rest) := by
  have hlength := length_le_flatMap layout
  rw [writeStateLayout, encode, List.append_assoc, List.singleton_append]
  refine writeLoop_encode base layout rest ?_ 0 image
  rw [List.length_append, List.length_cons]
  omega

/-! ## The layouts of the two engines -/

/-- A register that `REG` is used for. -/
def narrow (offset : Nat) (h : offset % 4 = 0 ∧ offset < 0x200 := by decide) : Register :=
  ⟨offset, false, h.1, h.2⟩

/-- A register that `REG16` is used for. -/
def wide (offset : Nat) (h : offset % 4 = 0 ∧ offset < 0x10000 := by decide) : Register :=
  ⟨offset, true, h.1, h.2⟩

def firstSegments : List Segment :=
  [.skip 1 (by decide),
    .load true [wide 0x244, narrow 0x034, narrow 0x030, narrow 0x038, narrow 0x03c, narrow 0x168,
      narrow 0x140, narrow 0x110, narrow 0x11c, narrow 0x114, narrow 0x118, narrow 0x1c0,
      narrow 0x1c4, narrow 0x1c8] (by decide),
    .skip 3 (by decide),
    .load true [wide 0x3a8, wide 0x28c, wide 0x288, wide 0x284, wide 0x280, wide 0x27c, wide 0x278,
      wide 0x274, wide 0x270] (by decide)]

def lastSegments : List Segment :=
  [.skip 13 (by decide),
    .load true [narrow 0x028, narrow 0x09c, narrow 0x0c0, narrow 0x178, narrow 0x17c, wide 0x358,
      narrow 0x170, narrow 0x150, narrow 0x154, narrow 0x158, wide 0x41c, wide 0x600, wide 0x604,
      wide 0x608, wide 0x60c, wide 0x610, wide 0x614, wide 0x618, wide 0x61c,
        wide 0x620, wide 0x624,
      wide 0x628, wide 0x62c, wide 0x630, wide 0x634, wide 0x638, wide 0x63c,
        wide 0x640, wide 0x644,
      wide 0x648, wide 0x64c, wide 0x650, wide 0x654, wide 0x658, wide 0x65c,
        wide 0x660, wide 0x664,
      wide 0x668, wide 0x66c, wide 0x670, wide 0x674, wide 0x678, wide 0x67c, narrow 0x068]
      (by decide)]

/-- What the bytes of an engine's layout are the encoding of. -/
def segments : EngineId → List Segment
  | .blitter =>
    firstSegments ++ [.skip 13 (by decide), .load true [wide 0x200] (by decide)] ++ lastSegments
  | .render =>
    firstSegments ++ [.skip 13 (by decide), .load false [narrow 0x0c8] (by decide)] ++ lastSegments

theorem encode_segments (engine : EngineId) : encode (segments engine) = engine.layout := by
  cases engine <;> decide

/-- The registers that the driver fills in, by the constant for the dword of their value. That of
the mode register is for the dword before it, and the power state is the render engine's. -/
def named (engine : EngineId) : List (Nat × Nat) :=
  [(kStateContextControl, 0x244), (kStateRingHead, 0x034), (kStateRingTail, 0x030),
    (kStateRingStart, 0x038), (kStateRingControl, 0x03c), (kStateBatchBufferState, 0x110),
    (kStateTimestamp, 0x3a8), (kStatePageDirectory0Upper, 0x274),
    (kStatePageDirectory0Lower, 0x270),
    (kStateMiMode + 1, 0x09c)] ++
  match engine with
  | .blitter => []
  | .render => [(kStatePower, 0x0c8)]

theorem described_named (base : DWord) (engine : EngineId) {k offset : Nat}
    (h : (k, offset) ∈ named engine) :
    described base (segments engine) 0 (k - 1) = some (base + BitVec.ofNat 32 offset) ∧
      described base (segments engine) 0 k = none := by
  have hall : ∀ x ∈ named engine,
      described base (segments engine) 0 (x.1 - 1) = some (base + BitVec.ofNat 32 x.2) ∧
        described base (segments engine) 0 x.1 = none := by
    cases engine <;>
      simp only [named, List.cons_append, List.nil_append, List.forall_mem_cons] <;>
      and_intros <;> first | rfl | exact nofun
  exact hall (k, offset) h

/-- `WriteStateLayout` on the bytes of a layout stops at the terminator, with what the layout
describes in its place and all else as it was; and the layouts of the two engines put the registers
that the driver fills in before the dwords that it takes for their values. -/
theorem writeStateLayout_exact :
    (∀ base layout image rest, ∃ final,
      writeStateLayout image base (encode layout ++ rest) = some (final, 0 :: rest) ∧
        Places base layout image final) ∧
    ∀ (engine : EngineId) base image, ∃ final,
      writeStateLayout image base engine.layout = some (final, [0]) ∧
        ∀ k offset, (k, offset) ∈ named engine →
          final (k - 1) = base + BitVec.ofNat 32 offset ∧ final k = image k := by
  refine ⟨fun base layout image rest => ⟨_, writeStateLayout_encode base layout image rest,
    described_places base layout image⟩, fun engine base image => ?_⟩
  have hwrite := writeStateLayout_encode base (segments engine) image []
  rw [List.append_nil, encode_segments] at hwrite
  refine ⟨_, hwrite, fun k offset h => ?_⟩
  obtain ⟨haddress, hvalue⟩ := described_named base engine h
  rw [haddress, hvalue]
  exact ⟨rfl, rfl⟩

end StateLayout
end IntelGfx
