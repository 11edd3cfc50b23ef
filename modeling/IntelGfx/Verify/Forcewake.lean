import IntelGfx.Kernel.Forcewake

/-!
# Forcewake requests are released

Every exit of an operation writes the release to each domain it has requested, except that of
`Status` when the engine does not wake up. `ReleasedBut` says which domains may still be held.
-/

namespace IntelGfx
open Hardware

namespace Bus
variable {b : Bus} {gpu : Gpu} {held : List Nat} {d : Nat}

/-- The forcewake request registers. -/
def domains : List Nat := [kForcewakeRender, kForcewakeBlitter, kForcewakeMedia]

/-- What was last written to a forcewake request register is the release, but for some. -/
def ReleasedBut (held : List Nat) (b : Bus) : Prop :=
  ∀ d ∈ domains, d ∉ held → ∀ v, b.lastWrite d = some v → v = masked kForcewakeKernel false

/-- What was last written to every forcewake request register is the release. -/
def Released (b : Bus) : Prop :=
  ∀ d ∈ domains, ∀ v, b.lastWrite d = some v → v = masked kForcewakeKernel false

theorem lastWrite_write (b : Bus) (offset d : Nat) (value : DWord) :
    (b.write offset value).lastWrite d = if offset = d then some value else b.lastWrite d := by
  unfold lastWrite write
  rw [List.find?_cons]
  by_cases h : offset = d
  · rw [if_pos h]
    simp [h]
  · rw [if_neg h]
    simp [h]

theorem lastWrite_writeAll {writes : List (Nat × DWord)} (h : ∀ x ∈ writes, x.1 ≠ d) :
    (b.writeAll writes).lastWrite d = b.lastWrite d := by
  have hnone : writes.reverse.find? (·.1 = d) = none := by
    rw [List.find?_eq_none]
    intro x hx
    simpa using h x (List.mem_reverse.mp hx)
  unfold lastWrite writeAll
  rw [List.find?_append, hnone]
  rfl

/-- Writes to other registers. -/
theorem ReleasedBut.writeAll {writes : List (Nat × DWord)} (h : b.ReleasedBut held)
    (hw : ∀ x ∈ writes, x.1 ∉ domains) : (b.writeAll writes).ReleasedBut held := by
  intro d hd hheld v hv
  rw [lastWrite_writeAll fun x hx heq => hw x hx (by rwa [heq])] at hv
  exact h d hd hheld v hv

theorem ReleasedBut.write {offset : Nat} {value : DWord} (h : b.ReleasedBut held)
    (hw : offset ∉ domains) : (b.write offset value).ReleasedBut held := by
  have hone : ∀ x ∈ [(offset, value)], x.1 ∉ domains := fun x hx => by
    rw [List.mem_singleton.mp hx]
    exact hw
  exact h.writeAll hone

/-- A wait changes no register. -/
theorem ReleasedBut.waited {b' : Bus} (h : b.ReleasedBut held) (hw : b'.writes = b.writes) :
    b'.ReleasedBut held := by
  intro d hd hheld v hv
  rw [lastWrite, hw] at hv
  exact h d hd hheld v hv

theorem lastWrite_request (gpu : Gpu) (d d' : Nat) (take : Bool) (b : Bus) :
    (EngineState.request gpu d take b).2.lastWrite d' =
      if d = d' then some (masked kForcewakeKernel take) else b.lastWrite d' :=
  lastWrite_write b d d' _

theorem ReleasedBut.take (h : b.ReleasedBut held) (d : Nat) :
    (EngineState.request gpu d true b).2.ReleasedBut (d :: held) := by
  intro d' hd' hheld v hv
  obtain ⟨hne, hheld⟩ := not_or.1 (List.mem_cons.not.1 hheld)
  rw [lastWrite_request, if_neg (Ne.symm hne)] at hv
  exact h d' hd' hheld v hv

theorem ReleasedBut.release (h : b.ReleasedBut (d :: held)) :
    (EngineState.request gpu d false b).2.ReleasedBut held := by
  intro d' hd' hheld v hv
  rw [lastWrite_request] at hv
  split at hv
  · exact (Option.some.inj hv).symm
  · next hne => exact h d' hd' (List.mem_cons.not.2 (not_or.2 ⟨Ne.symm hne, hheld⟩)) v hv

end Bus

/-- The `wait`-th loop finds in time that the domain is what it was asked to be. -/
def Gpu.Answers (gpu : Gpu) (wait : Nat) (take : Bool) : Prop :=
  ∃ i < gpu.looks wait, (gpu.acks wait i &&& kForcewakeKernel != 0) = take

namespace EngineState
open Bus
variable {gpu : Gpu} {e : EngineState} {b : Bus} {held : List Nat}

theorem look_ok {take : Bool} {acks : Nat → DWord} {looks n : Nat} :
    look take acks looks n = .ok () ↔
      ∃ i < looks, (acks (n + i) &&& kForcewakeKernel != 0) = take := by
  induction looks generalizing n with
  | zero =>
    refine ⟨nofun, ?_⟩
    rintro ⟨i, hi, -⟩
    cases hi
  | succ looks ih =>
    rw [look]
    split
    · next h => exact ⟨fun _ => ⟨0, Nat.succ_pos _, h⟩, fun _ => rfl⟩
    next h =>
    rw [ih]
    constructor
    · rintro ⟨i, hi, hack⟩
      exact ⟨i + 1, Nat.succ_lt_succ hi, by rwa [Nat.add_comm i, ← Nat.add_assoc]⟩
    · rintro ⟨i, hi, hack⟩
      cases i with
      | zero => exact absurd hack h
      | succ i =>
        rw [Nat.add_comm i, ← Nat.add_assoc] at hack
        exact ⟨i, Nat.lt_of_succ_lt_succ hi, hack⟩

theorem request_ok {d : Nat} {take : Bool} :
    (request gpu d take b).1 = .ok () ↔ gpu.Answers b.waits take := by
  refine look_ok.trans ?_
  simp only [Nat.zero_add]
  rfl

/-! ## The operations -/

theorem forcewake_take (gpu : Gpu) (e : EngineState) (h : b.ReleasedBut held) :
    (e.forcewake gpu true b).2.ReleasedBut (e.engine.forcewake :: held) := h.take _

theorem forcewake_release (gpu : Gpu) (h : b.ReleasedBut (e.engine.forcewake :: held)) :
    (e.forcewake gpu false b).2.ReleasedBut held := h.release

/-- What is held while the GT domain is. -/
def gtHeld (e : EngineState) (held : List Nat) : List Nat :=
  if e.engine.forcewake = kForcewakeBlitter then held else kForcewakeBlitter :: held

theorem forcewakeGt_take (gpu : Gpu) (e : EngineState) (h : b.ReleasedBut held) :
    (e.forcewakeGt gpu true b).2.ReleasedBut (e.gtHeld held) := by
  unfold forcewakeGt gtHeld
  split
  · exact h
  · exact h.take _

theorem forcewakeGt_release (h : b.ReleasedBut (e.gtHeld held)) :
    (e.forcewakeGt gpu false b).2.ReleasedBut held := by
  unfold forcewakeGt
  unfold gtHeld at h
  split at h
  · next hgt =>
    rw [if_pos hgt]
    exact h
  · next hgt =>
    rw [if_neg hgt]
    exact h.release

theorem requestMaximumFrequency_released (h : b.ReleasedBut held) :
    (e.requestMaximumFrequency gpu b).ReleasedBut held := by
  have htake := forcewakeGt_take gpu e h
  unfold requestMaximumFrequency
  generalize e.forcewakeGt gpu true b = res at htake ⊢
  obtain ⟨r, b'⟩ := res
  cases r with
  | error s => exact forcewakeGt_release htake
  | ok u =>
    refine forcewakeGt_release ?_
    split
    · exact htake.write (by decide)
    · exact htake

theorem readTopology_released (gpu : Gpu) (e : EngineState) (h : b.ReleasedBut held) :
    (e.readTopology gpu b).2.ReleasedBut held := by
  have htake := forcewakeGt_take gpu e h
  unfold readTopology
  generalize e.forcewakeGt gpu true b = res at htake ⊢
  obtain ⟨r, b'⟩ := res
  cases r <;> exact forcewakeGt_release htake

theorem readTopology_engine (gpu : Gpu) (e : EngineState) (b : Bus) :
    (e.readTopology gpu b).1.engine = e.engine := by
  unfold readTopology
  split <;> rfl

theorem waitDone_released (gpu : Gpu) (h : b.ReleasedBut held) :
    (waitDone gpu b).2.ReleasedBut held := by
  have hfirst : (waitEnd gpu b).2.ReleasedBut held := h.waited rfl
  unfold waitDone
  generalize waitEnd gpu b = res at hfirst ⊢
  obtain ⟨r, b'⟩ := res
  cases r with
  | error s => exact hfirst
  | ok u => exact hfirst.waited rfl

/-- No workaround is in a forcewake request register. -/
theorem renderWorkarounds_others : ∀ x ∈ e.renderWorkarounds gpu, x.1 ∉ domains := by
  have hlist : ∀ engine : EngineId, ∀ i < 12, engine.base + 0x4d0 + i * 4 ∉ domains := by
    rintro (_ | _) <;> decide
  have hfixed : ∀ offset ∈ [0x4090, 0x4ddc, 0x940c, 0x4ab0, 0x4ab8, 0x20e0, 0xb004, 0x20d4, 0xb11c,
      0xb118], offset ∉ domains := by decide
  intro x hx
  simp only [renderWorkarounds, List.mem_append, List.mem_cons, List.not_mem_nil, or_false,
    List.mem_map, List.mem_range, List.mem_ite_nil_right] at hx
  rcases hx with ((((rfl | rfl | rfl) | ⟨-, rfl⟩) | ⟨-, rfl⟩) | rfl | rfl | rfl | rfl | rfl) |
    ⟨i, hi, rfl⟩
  case inr => exact hlist e.engine i hi
  all_goals exact hfixed _ (by simp only [List.mem_cons, true_or, or_true])

theorem initPower_released (gpu : Gpu) (e : EngineState) (h : b.ReleasedBut held) :
    (e.initPower gpu b).2.ReleasedBut held := by
  unfold initPower
  split
  · have htake := forcewake_take gpu e h
    generalize e.forcewake gpu true b = res at htake ⊢
    obtain ⟨r, b'⟩ := res
    cases r with
    | error s => exact forcewake_release gpu htake
    | ok u =>
      refine forcewake_release gpu ?_
      split
      · exact htake.writeAll renderWorkarounds_others
      · exact htake
  · exact h

theorem masterWrites_others : ∀ x ∈ e.masterWrites, x.1 ∉ domains := by
  simp only [masterWrites, List.forall_mem_cons, List.not_mem_nil, IsEmpty.forall_iff, implies_true,
    and_true]
  cases e.engine <;> decide

theorem submitWrites_others : ∀ x ∈ e.submitWrites, x.1 ∉ domains := by
  simp only [submitWrites, List.forall_mem_cons, List.not_mem_nil, IsEmpty.forall_iff, implies_true,
    and_true]
  cases e.engine <;> decide

theorem init_released {supported : Bool} {made : Except Error Unit} (h : b.ReleasedBut held) :
    (e.init gpu supported made b).2.2.ReleasedBut held := by
  unfold init
  split
  · exact h
  split
  · exact h
  cases made with
  | error s => exact h
  | ok u =>
  have hpower := initPower_released gpu e h
  dsimp only
  generalize e.initPower gpu b = res at hpower ⊢
  obtain ⟨r, b₁⟩ := res
  cases r with
  | error s => exact hpower
  | ok u =>
  dsimp only
  split
  · exact hpower
  have htake := forcewake_take gpu e hpower
  generalize e.forcewake gpu true b₁ = res at htake ⊢
  obtain ⟨r, b₂⟩ := res
  cases r with
  | error s => exact forcewake_release gpu htake
  | ok u =>
    have hread := readTopology_released gpu e
      (htake.writeAll (masterWrites_others (e := e)))
    have hengine := readTopology_engine gpu e (b₂.writeAll e.masterWrites)
    dsimp only at hread hengine ⊢
    generalize e.readTopology gpu (b₂.writeAll e.masterWrites) = res at hread hengine ⊢
    obtain ⟨e', b₃⟩ := res
    rw [← hengine] at hread
    exact forcewake_release gpu (requestMaximumFrequency_released hread)

theorem submit_released {batchAddress batchLength : Nat} (h : b.ReleasedBut held) :
    (e.submit gpu batchAddress batchLength b).2.2.ReleasedBut held := by
  unfold submit
  split
  · exact h
  split
  · exact h
  split
  · exact h
  split
  · exact h
  have hidle : (if 1 < e.nextSeqno then waitEnd gpu b else (.ok (), b)).2.ReleasedBut held := by
    split
    · exact h.waited rfl
    · exact h
  generalize (if 1 < e.nextSeqno then waitEnd gpu b else (.ok (), b)) = res at hidle ⊢
  obtain ⟨r, b₁⟩ := res
  cases r with
  | error s => exact hidle
  | ok u =>
  have htake := forcewake_take gpu e hidle
  dsimp only
  generalize e.forcewake gpu true b₁ = res at htake ⊢
  obtain ⟨r, b₂⟩ := res
  cases r with
  | error s => exact forcewake_release gpu htake
  | ok u =>
  have hwritten := htake.writeAll
    (submitWrites_others (e := { e with nextSeqno := e.nextSeqno + 1 }))
  have hdone := waitDone_released gpu hwritten
  dsimp only at hdone ⊢
  generalize waitDone gpu (b₂.writeAll _) = res at hdone ⊢
  obtain ⟨r, b₃⟩ := res
  cases r <;> exact forcewake_release gpu hdone

end EngineState

/-- The operations of a context after it has been constructed, and the two that `Init` calls. -/
inductive Operation where
  | init (supported : Bool) (made : Except Error Unit)
  | initClient (supported : Bool) (made : Except Error Unit) (scheduler : EngineState)
  | submit (batchAddress batchLength : Nat)
  | status
  | readTopology
  | requestMaximumFrequency

namespace Operation

/-- The bus after the operation. -/
def run (gpu : Gpu) (e : EngineState) (b : Bus) : Operation → Bus
  | init supported made => (e.init gpu supported made b).2.2
  | initClient supported made scheduler => (e.initClient gpu supported made scheduler b).2.2
  | submit batchAddress batchLength => (e.submit gpu batchAddress batchLength b).2.2
  | status => (e.status gpu b).2
  | readTopology => (e.readTopology gpu b).2
  | requestMaximumFrequency => e.requestMaximumFrequency gpu b

end Operation

namespace EngineState
open Bus
variable {gpu : Gpu} {e : EngineState} {b : Bus} {held : List Nat}

theorem status_released (hheld : e.engine.forcewake ∉ held) (h : b.ReleasedBut held) :
    (e.status gpu b).2.ReleasedBut held ↔ ¬ (e.ready = true ∧ ¬ gpu.Answers b.waits true) := by
  have htake := forcewake_take gpu e h
  have hok : (e.forcewake gpu true b).1 = .ok () ↔ gpu.Answers b.waits true := request_ok
  have hlast : (e.forcewake gpu true b).2.lastWrite e.engine.forcewake =
      some (masked kForcewakeKernel true) := by
    rw [forcewake, lastWrite_request, if_pos rfl]
  have hdomain : e.engine.forcewake ∈ domains := by cases e.engine <;> decide
  unfold status
  split
  · next hready =>
    simp only [Bool.not_eq_true'] at hready
    exact ⟨fun _ hne => (by simp [hready] at hne), fun _ => h⟩
  next hready =>
  simp only [Bool.not_eq_true', Bool.not_eq_false] at hready
  generalize e.forcewake gpu true b = res at htake hok hlast ⊢
  obtain ⟨r, b'⟩ := res
  cases r with
  | error s =>
    -- the engine is left as it was asked to be
    refine ⟨fun hreleased => ?_, fun hanswers => ?_⟩
    · exact absurd (hreleased _ hdomain hheld _ hlast) (by decide)
    · exact absurd ⟨hready, fun ha => nomatch hok.2 ha⟩ hanswers
  | ok u =>
    exact ⟨fun _ hne => hne.2 (hok.1 rfl), fun _ => forcewake_release gpu htake⟩

end EngineState

namespace Operation
open EngineState Bus

/-- Whatever other domains are held: an operation leaves every one released that it found released,
unless it is `Status` on a context that is ready and its engine does not wake up in time. -/
theorem run_released_iff {gpu : Gpu} {e : EngineState} {b : Bus} {held : List Nat} (op : Operation)
    (hheld : e.engine.forcewake ∉ held) (h : b.ReleasedBut held) :
    (op.run gpu e b).ReleasedBut held ↔
      ¬ (op = status ∧ e.ready = true ∧ ¬ gpu.Answers b.waits true) := by
  have hothers (hne : op ≠ status) (hreleased : (op.run gpu e b).ReleasedBut held) :
      (op.run gpu e b).ReleasedBut held ↔
        ¬ (op = status ∧ e.ready = true ∧ ¬ gpu.Answers b.waits true) :=
    ⟨fun _ hs => hne hs.1, fun _ => hreleased⟩
  cases op with
  | init supported made => exact hothers nofun (init_released h)
  | initClient supported made scheduler =>
    refine hothers nofun ?_
    change (e.initClient gpu supported made scheduler b).2.2.ReleasedBut held
    unfold EngineState.initClient
    split
    · exact h
    · exact init_released h
  | submit batchAddress batchLength => exact hothers nofun (submit_released h)
  | readTopology => exact hothers nofun (readTopology_released gpu e h)
  | requestMaximumFrequency => exact hothers nofun (requestMaximumFrequency_released h)
  | status =>
    exact (status_released hheld h).trans (not_congr ⟨fun hs => ⟨rfl, hs⟩, fun hs => hs.2⟩)

/-- A bus on which nothing has been written yet. -/
def quietBus : Bus := ⟨[], 0, 0⟩

theorem quietBus_released : quietBus.Released := fun _ _ _ h => nomatch h

/-- A GPU that does not wake up before the deadline. -/
def asleep : Gpu where
  content := fun _ => 0
  looks := fun _ => 3
  acks := fun _ _ => 0
  ends := fun _ => true

/-- A master of the render engine that is ready. -/
def renderMaster : EngineState where
  engine := .render
  master := true
  ready := true
  faulted := false
  schedulerFaulted := false
  nextSeqno := 1
  device := 0x1916
  revision := 7
  statusPage := 0x1000
  context := 0x10000
  topology := ⟨0, 0, 0, 0, fun _ => 0, fun _ => 0⟩

/-- Another user of the hardware holds the media domain. -/
def mediaHeld : Bus := quietBus.write kForcewakeMedia (masked kForcewakeKernel true)

theorem mediaHeld_releasedBut : mediaHeld.ReleasedBut [kForcewakeMedia] := by
  intro d hd hheld v hv
  have hne : kForcewakeMedia ≠ d := fun heq => hheld (List.mem_singleton.mpr heq.symm)
  rw [mediaHeld, lastWrite_write, if_neg hne] at hv
  exact nomatch hv

theorem run_released_iff_submit : ¬ mediaHeld.Released ∧
    ((submit 0x20000 8).run asleep renderMaster mediaHeld).ReleasedBut [kForcewakeMedia] :=
  ⟨fun h => absurd (h kForcewakeMedia (by decide) (masked kForcewakeKernel true) rfl) (by decide),
    (run_released_iff (submit 0x20000 8) (by decide) mediaHeld_releasedBut).2 nofun⟩

theorem not_released_of_status : quietBus.Released ∧
    ¬ (status.run asleep renderMaster quietBus).Released :=
  ⟨quietBus_released, fun h =>
    absurd (h kForcewakeRender (by decide) (masked kForcewakeKernel true) rfl) (by decide)⟩

end Operation

end IntelGfx
