import Mathlib.Tactic.IntervalCases
import IntelGfx.Mesa.Topology
import IntelGfx.Verify.Forcewake

/-!
# The topology that is reported

The bits of the topology query, from the fuse register and the three registers that disable
execution units, and when it is these that are reported.
-/

namespace IntelGfx
open Hardware EngineState

/-- The data of a topology query says what is fused on. -/
structure Fused (fuse : DWord) (disable : Nat → DWord) (data : Nat → Byte) : Prop where
  slice : ∀ {s}, s < 3 → (data 0).getLsbD s = fuse.getLsbD (25 + s)
  subslice : ∀ {s ss}, s < 3 → ss < 4 →
    (data (1 + s)).getLsbD ss = (fuse.getLsbD (25 + s) && !fuse.getLsbD (20 + ss))
  eu : ∀ {s ss e}, s < 3 → ss < 4 → e < 8 → (data (4 + s * 4 + ss)).getLsbD e =
    (fuse.getLsbD (25 + s) && !fuse.getLsbD (20 + ss) && !(disable s).getLsbD (8 * ss + e))

/-! ## Bits -/

section bits
variable {x : DWord} {n i : Nat}

theorem getLsbD_one_shift (hi : i < 32) : ((1 <<< n : Nat) : DWord).getLsbD i = decide (n = i) := by
  rw [BitVec.natCast_eq_ofNat, BitVec.getLsbD_ofNat, Nat.one_shiftLeft, Nat.testBit_two_pow]
  simp [hi]

theorem and_one_shift (hn : n < 32) : x &&& 1 <<< n = 0 ↔ x.getLsbD n = false := by
  constructor
  · intro h
    have hbit : (x &&& 1 <<< n).getLsbD n = false := by
      rw [h]
      exact BitVec.getLsbD_zero
    rwa [BitVec.getLsbD_and, getLsbD_one_shift hn, decide_eq_true rfl, Bool.and_true] at hbit
  · intro h
    refine BitVec.eq_of_getLsbD_eq fun i hi => ?_
    rw [BitVec.getLsbD_and, getLsbD_one_shift hi]
    by_cases hni : n = i
    · rw [← hni, h]
      simp
    · simp [hni]

theorem getLsbD_mask {k : Nat} (hi : i < 32) :
    (x &&& BitVec.ofNat 32 (2 ^ k - 1)).getLsbD i = (x.getLsbD i && decide (i < k)) := by
  rw [BitVec.getLsbD_and, BitVec.getLsbD_ofNat, Nat.testBit_two_pow_sub_one]
  simp [hi]

theorem getLsbD_byte (hi : i < 8) : ((x >>> n &&& 0xff).setWidth 8).getLsbD i = x.getLsbD
    (n + i) := by
  have hmask := getLsbD_mask (x := x >>> n) (k := 8) (show i < 32 by omega)
  rw [BitVec.getLsbD_setWidth, show (0xff : DWord) = BitVec.ofNat 32 (2 ^ 8 - 1) from rfl, hmask,
    BitVec.getLsbD_ushiftRight]
  simp [hi]

theorem getLsbD_low (hi : i < 8) : (x.setWidth 8).getLsbD i = x.getLsbD i := by
  rw [BitVec.getLsbD_setWidth]
  simp [hi]

end bits

/-! ## The decoders -/

/-- A subslice that is enabled puts its eight bits into the mask of its slice. -/
theorem getLsbD_euBits (disable : DWord) {ss i : Nat} (hi : i < 32) :
    ((~~~(disable >>> (ss * 8)) &&& 0xff) <<< (ss * 8)).getLsbD i =
      (decide (ss = i / 8) && !disable.getLsbD i) := by
  rw [BitVec.getLsbD_shiftLeft]
  by_cases hss : ss = i / 8
  · have hmask := getLsbD_mask (x := ~~~(disable >>> (ss * 8))) (k := 8)
      (show i - ss * 8 < 32 by omega)
    rw [show (0xff : DWord) = BitVec.ofNat 32 (2 ^ 8 - 1) from rfl, hmask, BitVec.getLsbD_not,
      BitVec.getLsbD_ushiftRight, show ss * 8 + (i - ss * 8) = i by omega]
    simp [hi, show ¬ i < ss * 8 by omega, show i - ss * 8 < 8 by omega,
      show i - ss * 8 < 32 by omega, ← hss]
  · rcases Nat.lt_or_ge i (ss * 8) with hlt | hge
    · simp [hlt, hss]
    · have hmask := getLsbD_mask (x := ~~~(disable >>> (ss * 8))) (k := 8)
        (show i - ss * 8 < 32 by omega)
      rw [show (0xff : DWord) = BitVec.ofNat 32 (2 ^ 8 - 1) from rfl, hmask]
      simp [hss, show ¬ i - ss * 8 < 8 by omega]

theorem getLsbD_euMask (subslices disable : DWord) {i : Nat} (hi : i < 32) :
    (euMask subslices disable).getLsbD i = (subslices.getLsbD (i / 8) && !disable.getLsbD i) := by
  suffices ∀ l : List Nat, (∀ ss ∈ l, ss < 32) → ∀ mask : DWord, (l.foldl (fun mask subslice =>
      if subslices &&& 1 <<< subslice = 0 then mask
      else mask ||| (~~~(disable >>> (subslice * 8)) &&& 0xff) <<< (subslice * 8)) mask).getLsbD i =
        (mask.getLsbD i || decide (i / 8 ∈ l) && subslices.getLsbD (i / 8) && !disable.getLsbD i) by
    rw [euMask, this _ (by decide)]
    simp [show i / 8 < 4 by omega]
  intro l
  induction l with
  | nil => simp
  | cons ss l ih =>
    intro hl mask
    obtain ⟨hss, hl⟩ := List.forall_mem_cons.1 hl
    rw [List.foldl_cons, ih hl]
    by_cases hs : subslices &&& 1 <<< ss = 0
    · rw [if_pos hs]
      rw [and_one_shift hss] at hs
      by_cases heq : i / 8 = ss
      · simp [heq, hs]
      · simp [heq]
    · rw [if_neg hs, BitVec.getLsbD_or, getLsbD_euBits disable hi]
      rw [and_one_shift hss, Bool.not_eq_false] at hs
      by_cases heq : ss = i / 8
      · rw [← heq, hs]
        cases disable.getLsbD i <;> simp
      · simp [heq, Ne.symm heq]

namespace Topology
variable {t : Topology} {s ss : Nat}

theorem fill_slices (t : Topology) : t.fill 0 = t.sliceMask.setWidth 8 := by
  simp only [fill, List.range, List.range.loop, List.foldl]
  split_ifs <;> simp

theorem fill_subslices (t : Topology) (hs : s < 3) : t.fill (1 + s) =
    if t.sliceMask &&& 1 <<< s = 0 then 0 else (t.subsliceMask s).setWidth 8 := by
  simp only [fill, List.range, List.range.loop, List.foldl]
  interval_cases s <;> split_ifs <;> simp

theorem fill_eus (t : Topology) (hs : s < 3) (hss : ss < 4) : t.fill (4 + s * 4 + ss) =
    if t.sliceMask &&& 1 <<< s = 0 then 0
    else (t.euMask s >>> (ss * 8) &&& 0xff).setWidth 8 := by
  simp only [fill, List.range, List.range.loop, List.foldl]
  interval_cases s <;> split_ifs <;> interval_cases ss <;> simp

/-- What the kernel decodes from the fuses, the adapter hands on. -/
theorem fused_decode (gpu : Gpu) : Fused (gpu.content kFuse2)
    (fun slice => gpu.content (kEuDisable slice)) (decodeTopology gpu).fill := by
  have hslice {s : Nat} (hs : s < 3) :
      (decodeTopology gpu).sliceMask.getLsbD s = (gpu.content kFuse2).getLsbD (25 + s) := by
    have hmask := getLsbD_mask (x := gpu.content kFuse2 >>> 25) (k := 3) (show s < 32 by omega)
    rw [BitVec.getLsbD_ushiftRight, decide_eq_true hs, Bool.and_true] at hmask
    exact hmask
  have hsubslices {ss : Nat} (hss : ss < 4) :
      (~~~(gpu.content kFuse2 >>> 20) &&& 0xf : DWord).getLsbD ss =
        !(gpu.content kFuse2).getLsbD (20 + ss) := by
    have hmask := getLsbD_mask (x := ~~~(gpu.content kFuse2 >>> 20)) (k := 4)
      (show ss < 32 by omega)
    rw [BitVec.getLsbD_not, BitVec.getLsbD_ushiftRight, decide_eq_true hss, Bool.and_true,
      decide_eq_true (show ss < 32 by omega), Bool.true_and] at hmask
    exact hmask
  have henabled {s : Nat} (hs : s < 3) : ((decodeTopology gpu).sliceMask &&& 1 <<< s = 0) ↔
      (gpu.content kFuse2).getLsbD (25 + s) = false := by
    rw [and_one_shift (by omega), hslice hs]
  have hmasks {s : Nat} (hs : s < 3) (hon : (gpu.content kFuse2).getLsbD (25 + s) = true) :
      (decodeTopology gpu).subsliceMask s = ~~~(gpu.content kFuse2 >>> 20) &&& 0xf ∧
        (decodeTopology gpu).euMask s =
          EngineState.euMask (~~~(gpu.content kFuse2 >>> 20) &&& 0xf)
            (gpu.content (kEuDisable s)) := by
    have hne : ¬ (decodeTopology gpu).sliceMask &&& 1 <<< s = 0 := by
      rw [henabled hs, hon]
      exact Bool.noConfusion
    have hcond : (decide (s < 3) && (decodeTopology gpu).sliceMask &&& 1 <<< s != 0) = true := by
      rw [decide_eq_true hs, Bool.true_and]
      exact bne_iff_ne.2 hne
    exact ⟨if_pos hcond, if_pos hcond⟩
  refine ⟨fun {s} hs => ?_, fun {s ss} hs hss => ?_, fun {s ss e} hs hss he => ?_⟩
  · rw [fill_slices, getLsbD_low (by omega), hslice hs]
  · rw [fill_subslices _ hs]
    cases hon : (gpu.content kFuse2).getLsbD (25 + s) with
    | false =>
      rw [if_pos ((henabled hs).2 hon)]
      exact BitVec.getLsbD_zero
    | true =>
      rw [if_neg fun h => Bool.noConfusion (hon.symm.trans ((henabled hs).1 h)),
        (hmasks hs hon).1, getLsbD_low (by omega), hsubslices hss, Bool.true_and]
  · rw [fill_eus _ hs hss]
    cases hon : (gpu.content kFuse2).getLsbD (25 + s) with
    | false =>
      rw [if_pos ((henabled hs).2 hon)]
      exact BitVec.getLsbD_zero
    | true =>
      rw [if_neg fun h => Bool.noConfusion (hon.symm.trans ((henabled hs).1 h)),
        (hmasks hs hon).2, getLsbD_byte he, getLsbD_euMask _ _ (by omega),
        show (ss * 8 + e) / 8 = ss by omega, hsubslices hss, Bool.true_and, Nat.mul_comm 8]

end Topology

/-! ## Bringing the device up -/

namespace EngineState
variable {gpu : Gpu} {e : EngineState} {b : Bus} {supported : Bool} {made : Except Error Unit}

/-- Whether a master comes up does not depend on what is in `fTopology`. -/
theorem init_status (t : Topology) :
    ({ e with topology := t }.init gpu supported made b).1 = (e.init gpu supported made b).1 := by
  have hpower : { e with topology := t }.initPower gpu b = e.initPower gpu b := rfl
  have hwake (b : Bus) : { e with topology :=
    t }.forcewake gpu true b = e.forcewake gpu true b := rfl
  unfold init
  rw [hpower]
  split
  · rfl
  split
  · rfl
  cases made with
  | error s => rfl
  | ok u =>
  dsimp only
  generalize e.initPower gpu b = res
  obtain ⟨r, b₁⟩ := res
  cases r with
  | error s => rfl
  | ok u =>
  dsimp only
  split
  · rfl
  rw [hwake]
  generalize e.forcewake gpu true b₁ = res
  obtain ⟨r, b₂⟩ := res
  cases r <;> rfl

/-- The engine has been waited for twice when the power state is set. -/
theorem initPower_waits (hr : e.engine = .render) (h : (e.initPower gpu b).1 = .ok ()) :
    (e.initPower gpu b).2.waits = b.waits + 2 := by
  have hwaits : (e.forcewake gpu true b).2.waits = b.waits + 1 := rfl
  rw [initPower, hr, if_pos (show EngineId.render.usesPipeControl = true from rfl)] at h ⊢
  generalize e.forcewake gpu true b = res at h hwaits ⊢
  obtain ⟨r, b'⟩ := res
  have hrelease (b : Bus) : (e.forcewake gpu false b).2.waits = b.waits + 1 := rfl
  cases r with
  | error s => cases h
  | ok u =>
    dsimp only
    rw [hrelease]
    split <;> exact congrArg (· + 1) hwaits

/-- `_ReadTopology` reads the fuses if the GT domain wakes up, and else leaves what is there. -/
theorem readTopology_topology (gpu : Gpu) (e : EngineState) (b : Bus) :
    (e.readTopology gpu b).1.topology =
    if (e.forcewakeGt gpu true b).1 = .ok () then decodeTopology gpu else e.topology := by
  unfold readTopology
  generalize e.forcewakeGt gpu true b = res
  obtain ⟨r, b'⟩ := res
  cases r with
  | error s => exact (if_neg nofun).symm
  | ok u => exact (if_pos rfl).symm

theorem forcewakeGt_ok : (e.forcewakeGt gpu true b).1 = .ok () ↔
    e.engine = .blitter ∨ gpu.Answers b.waits true := by
  unfold forcewakeGt
  cases e.engine with
  | blitter => exact ⟨fun _ => .inl rfl, fun _ => rfl⟩
  | render => exact request_ok.trans ⟨.inr, fun h => h.resolve_left nofun⟩

/-- What a master that comes up has in `fTopology`. -/
theorem init_topology (hm : e.master = true) (h : (e.init gpu supported made b).1 = .ok ()) :
    (e.engine = .blitter ∨ gpu.Answers (b.waits + 3) true →
      (e.init gpu supported made b).2.1.topology = decodeTopology gpu) ∧
    (¬ (e.engine = .blitter ∨ gpu.Answers (b.waits + 3) true) →
      (e.init gpu supported made b).2.1.topology = e.topology) := by
  unfold init at h ⊢
  split at h
  · cases h
  next hready =>
  rw [if_neg hready]
  split at h
  · cases h
  next hsupported =>
  rw [if_neg hsupported]
  cases made with
  | error s => cases h
  | ok u =>
  have hwaits : e.engine = .render → (e.initPower gpu b).1 = .ok () →
      (e.initPower gpu b).2.waits = b.waits + 2 := initPower_waits
  dsimp only at h ⊢
  generalize e.initPower gpu b = res at h hwaits ⊢
  obtain ⟨r, b₁⟩ := res
  cases r with
  | error s => cases h
  | ok u =>
  dsimp only at h ⊢
  rw [hm] at h ⊢
  simp only [Bool.not_true, Bool.false_eq_true, if_false] at h ⊢
  have hthird : (e.forcewake gpu true b₁).2.waits = b₁.waits + 1 := rfl
  generalize e.forcewake gpu true b₁ = res at h hthird ⊢
  obtain ⟨r, b₂⟩ := res
  cases r with
  | error s => cases h
  | ok u =>
  dsimp only at hthird ⊢
  have htopology := readTopology_topology gpu e (b₂.writeAll e.masterWrites)
  have hgt : (e.forcewakeGt gpu true (b₂.writeAll e.masterWrites)).1 = .ok () ↔
      e.engine = .blitter ∨ gpu.Answers (b.waits + 3) true := by
    refine forcewakeGt_ok.trans ?_
    cases hengine : e.engine with
    | blitter => simp
    | render =>
      have hcount : (b₂.writeAll e.masterWrites).waits = b.waits + 3 :=
        hthird.trans (congrArg (· + 1) (hwaits hengine rfl))
      rw [hcount]
  rw [htopology]
  exact ⟨fun hgood => if_pos (hgt.2 hgood), fun hbad => if_neg fun hok => hbad (hgt.1 hok)⟩

end EngineState

namespace Topology
variable {gpu : Gpu} {e : EngineState} {b : Bus} {supported : Bool} {made : Except Error Unit}

theorem query_info {item : QueryItem} {served : Option Topology} {info : TopologyInfo}
    (h : query item served = some (.info info)) : ∃ t, served = some t ∧ info.data = t.fill := by
  unfold query at h
  dsimp only at h
  by_cases hlength : item.length = 0
  · rw [if_pos hlength] at h
    cases h
  rw [if_neg hlength] at h
  by_cases hshort : item.length < 16 + 1 + 3 + 12 ∨ (!item.dataPtr) = true
  · rw [if_pos hshort] at h
    cases h
  rw [if_neg hshort] at h
  cases served with
  | none => cases h
  | some t =>
    dsimp only at h
    by_cases hnone : t.fill 0 = 0
    · rw [if_pos hnone] at h
      cases h
    · rw [if_neg hnone] at h
      cases h
      exact ⟨t, rfl, rfl⟩

/-- A topology that contradicts the fuses. -/
def contrary (fuse : DWord) : Topology :=
  ⟨3, 4, 8, if fuse.getLsbD 25 then 2 else 1, fun _ => 0, fun _ => 0⟩

theorem query_contrary (fuse : DWord) : ∃ info,
    query ⟨32, true⟩ (get true true (contrary fuse)) = some (.info info) ∧
      (info.data 0).getLsbD 0 = !fuse.getLsbD 25 := by
  unfold contrary
  cases fuse.getLsbD 25 with
  | false => exact ⟨_, rfl, rfl⟩
  | true => exact ⟨_, rfl, rfl⟩

/-- Whatever memory `fTopology` is made in, the topology query of a client whose master has come up
fails or tells what is fused on, if and only if the GT domain has woken up for `_ReadTopology`: its
request is the fourth that the bringing up of the render engine waits for. -/
theorem query_fused_iff (hm : e.master = true) (h : (e.init gpu supported made b).1 = .ok ()) :
    (∀ memory ready copied item info,
      query item (get ready copied
        ({ e with topology := memory }.init gpu supported made b).2.1.topology) = some
          (.info info) →
      Fused (gpu.content kFuse2) (fun slice => gpu.content (kEuDisable slice)) info.data) ↔
    e.engine = .blitter ∨ gpu.Answers (b.waits + 3) true := by
  have hmade (memory : Topology) := (init_status memory).trans h
  have htopology (memory : Topology) := init_topology (e := { e with topology := memory }) hm
    (hmade memory)
  constructor
  · intro hgood
    by_contra hbad
    obtain ⟨info, hinfo, hbit⟩ := query_contrary (gpu.content kFuse2)
    have hkept := (htopology (contrary (gpu.content kFuse2))).2 hbad
    have hfused := hgood (contrary (gpu.content kFuse2)) true true ⟨32, true⟩ info
      (by rw [hkept, hinfo])
    have hslice := hfused.slice (s := 0) (by omega)
    rw [hbit] at hslice
    exact Bool.not_ne_self _ hslice
  · intro hgt memory ready copied item info hinfo
    obtain ⟨t, ht, hdata⟩ := query_info hinfo
    rw [(htopology memory).1 hgt] at ht
    unfold get at ht
    split at ht
    · cases ht
      rw [hdata]
      exact fused_decode gpu
    · cases ht

/-- A GPU with one slice, whose engines wake up, but for the `sleeper`-th request. -/
def oneSlice (sleeper : Nat) : Gpu where
  content := fun offset => if offset = kFuse2 then 1 <<< 25 else 0
  looks := fun _ => 3
  acks := fun wait _ => if wait = sleeper then 0 else 1
  ends := fun _ => true

/-- The master of the render engine before it is brought up, made in memory that is not clear. -/
def freshMaster : EngineState :=
  { Operation.renderMaster with
    ready := false
    topology := ⟨3, 4, 8, 7, fun _ => 0xf, fun _ => ~~~0⟩ }

theorem query_fused_iff_awake : ∃ info,
    query ⟨32, true⟩ (get true true
      (freshMaster.init (oneSlice 9) true (.ok ()) Operation.quietBus).2.1.topology) =
        some (.info info) ∧
    Fused ((oneSlice 9).content kFuse2) (fun slice => (oneSlice 9).content (kEuDisable slice))
      info.data := by
  have hup : (freshMaster.init (oneSlice 9) true (.ok ()) Operation.quietBus).1 = .ok () := rfl
  have hawake : (oneSlice 9).Answers (Operation.quietBus.waits + 3) true :=
    ⟨0, by decide, by decide⟩
  exact ⟨_, rfl, (query_fused_iff (e := freshMaster) rfl hup).2 (.inr hawake)
    freshMaster.topology true true ⟨32, true⟩ _ rfl⟩

theorem not_fused_of_asleep :
    (freshMaster.init (oneSlice 3) true (.ok ()) Operation.quietBus).1 = .ok () ∧ ∃ info,
      query ⟨32, true⟩ (get true true
        (freshMaster.init (oneSlice 3) true (.ok ()) Operation.quietBus).2.1.topology) =
          some (.info info) ∧
      ¬ Fused ((oneSlice 3).content kFuse2) (fun slice => (oneSlice 3).content (kEuDisable slice))
        info.data :=
  ⟨rfl, _, rfl, fun h => absurd (h.slice (s := 1) (by decide)) (by decide)⟩

end Topology

end IntelGfx
