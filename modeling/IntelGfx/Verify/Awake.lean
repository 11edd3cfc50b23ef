import IntelGfx.Kernel.Awake
import IntelGfx.Verify.Forcewake

/-!
# Who lets an engine go to sleep

A call writes to one forcewake register only: first the request, and last the release if there is
one. So of two calls that hold the lock of one engine, neither comes between the other's request and
release. `InitClient` holds no lock, and its release is the one that can (`run_kept_iff`).
-/

namespace IntelGfx
open Hardware

namespace Awake

/-- What a call has left to write. -/
inductive Rest (d : Nat) : Bool → List (Nat × DWord) → Prop
  | nil {asked : Bool} : Rest d asked []
  | ask {rest : List (Nat × DWord)} : Rest d true rest →
    Rest d false ((d, masked kForcewakeKernel true) :: rest)
  | other {w : Nat × DWord} {rest : List (Nat × DWord)} : w.1 ∉ Bus.domains → Rest d true rest →
    Rest d true (w :: rest)
  | release : Rest d true [(d, masked kForcewakeKernel false)]

namespace Rest
variable {d : Nat} {asked : Bool} {w : Nat × DWord} {writes rest : List (Nat × DWord)}

theorem tail (h : Rest d asked (w :: rest)) : Rest d true rest := by
  cases h with
  | ask h => exact h
  | other _ h => exact h
  | release => exact .nil

theorem append (hw : ∀ w ∈ writes, w.1 ∉ Bus.domains) (h : Rest d true rest) :
    Rest d true (writes ++ rest) := by
  induction writes with
  | nil => exact h
  | cons w writes ih =>
    exact .other (hw w List.mem_cons_self) (ih fun w' hw' => hw w' (List.mem_cons_of_mem _ hw'))

/-- A request and a release, with other writes in between. -/
theorem around (hw : ∀ w ∈ writes, w.1 ∉ Bus.domains) :
    Rest d false ((d, masked kForcewakeKernel true) ::
      (writes ++ [(d, masked kForcewakeKernel false)])) := .ask (.append hw .release)

end Rest

end Awake

namespace EngineState
open Awake
variable {gpu : Gpu} {e : EngineState} {b : Bus}

theorem waitDone_writes (gpu : Gpu) (b : Bus) : (waitDone gpu b).2.writes = b.writes := by
  have hfirst : (waitEnd gpu b).2.writes = b.writes := rfl
  unfold waitDone
  generalize waitEnd gpu b = res at hfirst ⊢
  obtain ⟨r, b'⟩ := res
  cases r <;> exact hfirst

theorem submit_rest {batchAddress batchLength : Nat} (h : b.writes = []) :
    Rest e.engine.forcewake false
      (e.submit gpu batchAddress batchLength b).2.2.writes.reverse := by
  have hnil {b : Bus} (h : b.writes = []) : Rest e.engine.forcewake false b.writes.reverse := by
    rw [h]
    exact .nil
  unfold submit
  split
  · exact hnil h
  split
  · exact hnil h
  split
  · exact hnil h
  split
  · exact hnil h
  have hidle : (if 1 < e.nextSeqno then waitEnd gpu b else (.ok (), b)).2.writes = [] := by
    split <;> exact h
  generalize (if 1 < e.nextSeqno then waitEnd gpu b else (.ok (), b)) = res at hidle ⊢
  obtain ⟨r, b₁⟩ := res
  cases r with
  | error s => exact hnil hidle
  | ok u =>
  have htake : (e.forcewake gpu true b₁).2.writes =
      [(e.engine.forcewake, masked kForcewakeKernel true)] := congrArg (List.cons _) hidle
  dsimp only
  generalize e.forcewake gpu true b₁ = res at htake ⊢
  obtain ⟨r, b₂⟩ := res
  have hrelease {b' : Bus} (e' : EngineState) (mid : List (Nat × DWord))
      (he : e'.engine = e.engine) (hmid : ∀ w ∈ mid, w.1 ∉ Bus.domains)
      (h : b'.writes = mid.reverse ++ b₂.writes) :
      Rest e.engine.forcewake false (e'.forcewake gpu false b').2.writes.reverse := by
    have hb : (e'.forcewake gpu false b').2.writes =
        (e.engine.forcewake, masked kForcewakeKernel false) :: b'.writes := he ▸ rfl
    rw [hb, h, htake, List.reverse_cons, List.reverse_append, List.reverse_reverse]
    exact .around hmid
  cases r with
  | error s => exact hrelease e [] rfl nofun rfl
  | ok u =>
  have hdone := waitDone_writes gpu
    (b₂.writeAll (submitWrites { e with nextSeqno := e.nextSeqno + 1 }))
  dsimp only at hdone ⊢
  generalize waitDone gpu (b₂.writeAll _) = res at hdone ⊢
  obtain ⟨r, b₃⟩ := res
  cases r <;> exact hrelease _ _ rfl submitWrites_others hdone

theorem status_rest (h : b.writes = []) :
    Rest e.engine.forcewake false (e.status gpu b).2.writes.reverse := by
  unfold status
  split
  · rw [h]
    exact .nil
  have htake : (e.forcewake gpu true b).2.writes =
      [(e.engine.forcewake, masked kForcewakeKernel true)] := congrArg (List.cons _) h
  generalize e.forcewake gpu true b = res at htake ⊢
  obtain ⟨r, b'⟩ := res
  cases r with
  | error s =>
    rw [show b'.writes = _ from htake]
    exact .ask .nil
  | ok u =>
    have hb : (e.forcewake gpu false b').2.writes =
        [(e.engine.forcewake, masked kForcewakeKernel false),
          (e.engine.forcewake, masked kForcewakeKernel true)] := congrArg (List.cons _) htake
    rw [hb]
    exact .ask .release

theorem initPower_rest (gpu : Gpu) (b : Bus) (e : EngineState) (hmaster : e.master = false)
    (h : b.writes = []) :
    Rest e.engine.forcewake false (e.initPower gpu b).2.writes.reverse := by
  unfold initPower
  split
  · have htake : (e.forcewake gpu true b).2.writes =
        [(e.engine.forcewake, masked kForcewakeKernel true)] := congrArg (List.cons _) h
    generalize e.forcewake gpu true b = res at htake ⊢
    obtain ⟨r, b'⟩ := res
    have hb : (e.forcewake gpu false b').2.writes =
        [(e.engine.forcewake, masked kForcewakeKernel false),
          (e.engine.forcewake, masked kForcewakeKernel true)] := congrArg (List.cons _) htake
    cases r with
    | error s =>
      rw [hb]
      exact .ask .release
    | ok u =>
      dsimp only
      rw [hmaster, if_neg Bool.false_ne_true, hb]
      exact .ask .release
  · rw [h]
    exact .nil

theorem initClient_rest {supported : Bool} {made : Except Error Unit} {scheduler : EngineState}
    (h : b.writes = []) : Rest scheduler.engine.forcewake false
      (e.initClient gpu supported made scheduler b).2.2.writes.reverse := by
  have hnil {d : Nat} : Rest d false b.writes.reverse := by
    rw [h]
    exact .nil
  unfold initClient
  split
  · exact hnil
  unfold init
  split
  · exact hnil
  split
  · exact hnil
  cases made with
  | error s => exact hnil
  | ok u =>
  have hpower := initPower_rest gpu b { e with
    engine := scheduler.engine
    master := false
    device := scheduler.device
    revision := scheduler.revision } rfl h
  dsimp only at hpower ⊢
  generalize initPower gpu _ b = res at hpower ⊢
  obtain ⟨r, b'⟩ := res
  cases r <;> exact hpower

end EngineState

namespace Awake

/-- What a call writes, by itself. -/
theorem Job.writes_rest (job : Job) : Rest job.engine.forcewake false job.writes := by
  obtain ⟨call, e, gpu⟩ := job
  cases call with
  | submit batchAddress batchLength => exact EngineState.submit_rest rfl
  | status => exact EngineState.status_rest rfl
  | initClient supported made scheduler => exact EngineState.initClient_rest rfl

/-- A call that stops before the lock writes nothing. -/
theorem Job.writes_of_unlocked {job : Job} (h : job.locks = false) (hinit : job.isInit = false) :
    job.writes = [] := by
  obtain ⟨call, e, gpu⟩ := job
  cases call with
  | submit batchAddress batchLength =>
    simp only [locks, Bool.and_eq_false_iff, Bool.not_eq_false', Bool.or_eq_true, beq_iff_eq,
      bne_iff_ne] at h
    simp only [writes]
    unfold EngineState.submit
    rcases h with h | h
    · rw [h]
      rfl
    · split
      · rfl
      · rfl
  | status =>
    simp only [locks] at h
    simp only [writes]
    unfold EngineState.status
    rw [h]
    rfl
  | initClient supported made scheduler => cases hinit

/-- The thread is in a submission whose engine has woken up for it, between the request and the
release of this submission. -/
def Place.Holds (e : EngineId) : Place → Prop
  | .inside job asked rest => job.engine = e ∧ (∃ batchAddress batchLength,
      job.call = .submit batchAddress batchLength) ∧ job.wakes = true ∧ asked = true ∧ rest ≠ []
  | _ => False

variable {τ : Type*}

/-- Every engine that a submission holds was last asked to be awake. -/
def Kept (s : State τ) : Prop := ∀ t e, (s.place t).Holds e →
  s.bus.lastWrite e.forcewake = some (masked kForcewakeKernel true)

/-- `InitClient` is about to release an engine that a submission holds. -/
def Clash (s : State τ) (event : Event τ) : Prop := ∃ t u job asked rest,
  event = .go t ∧ job.isInit = true ∧ s.place t = .inside job asked
    ((job.engine.forcewake, masked kForcewakeKernel false) :: rest) ∧
  (s.place u).Holds job.engine

/-- A call inside has the lock if it takes it, and has left to write what such a call may. -/
def Place.Sound (holder : EngineId → Option τ) (t : τ) : Place → Prop
  | .outside => True
  | .entering job => job.locks = true
  | .inside job asked rest => (job.locks = true → holder job.engine = some t) ∧
    (job.locks = false → job.isInit = true ∨ rest = []) ∧ Rest job.engine.forcewake asked rest

def Inv (s : State τ) : Prop := ∀ t, (s.place t).Sound s.holder t

namespace Place
variable {holder holder' : EngineId → Option τ} {t : τ} {job : Job} {p : Place} {e : EngineId}

theorem Sound.mono (h : ∀ e, holder e = some t → holder' e = some t) (S : p.Sound holder t) :
    p.Sound holder' t := by
  cases p with
  | outside | entering => exact S
  | inside job asked rest => exact ⟨fun hlocks => h _ (S.1 hlocks), S.2⟩

/-- A call begins to write. -/
theorem sound_begin (hholder : job.locks = true → holder job.engine = some t) :
    (inside job false job.writes).Sound holder t := by
  refine ⟨hholder, fun hlocks => ?_, job.writes_rest⟩
  cases hinit : job.isInit with
  | true => exact .inl rfl
  | false => exact .inr (Job.writes_of_unlocked hlocks hinit)

/-- A call with something left to write has the lock, if it is not `InitClient`. -/
theorem Sound.locked {asked : Bool} {w : Nat × DWord} {rest : List (Nat × DWord)}
    (S : (inside job asked (w :: rest)).Sound holder t) (hinit : job.isInit = false) :
    holder job.engine = some t := by
  cases hlocks : job.locks with
  | true => exact S.1 hlocks
  | false =>
    rcases S.2.1 hlocks with hinit' | hnil
    · cases hinit.symm.trans hinit'
    · cases hnil

theorem Sound.holder_of_holds (S : p.Sound holder t) (h : p.Holds e) : holder e = some t := by
  cases p with
  | outside | entering => exact h.elim
  | inside job asked rest =>
    obtain ⟨rfl, ⟨batchAddress, batchLength, hcall⟩, -, -, hrest⟩ := h
    obtain ⟨w, rest, rfl⟩ := List.exists_cons_of_ne_nil hrest
    exact S.locked (by rw [Job.isInit, hcall])

end Place

theorem Inv.start (bus : Bus) : Inv (start bus : State τ) := fun _ => trivial

variable [DecidableEq τ] {s s' : State τ} {t : τ} {p : Place}

/-- The place of a thread after another one has moved, or it has itself. -/
theorem State.place_move (s : State τ) (t u : τ) (p : Place) :
    (s.move t p).place u = p ∧ u = t ∨ (s.move t p).place u = s.place u ∧ u ≠ t := by
  rcases eq_or_ne u t with rfl | hne
  · exact .inl ⟨Function.update_self .., rfl⟩
  · exact .inr ⟨Function.update_of_ne hne .., hne⟩

theorem State.go_write {job : Job} {asked : Bool} {w : Nat × DWord} {rest : List (Nat × DWord)}
    (hp : s.place t = .inside job asked (w :: rest)) :
    s.go t = { s with bus := s.bus.write w.1 w.2 }.move t (.inside job true rest) := by
  unfold go
  rw [hp]

/-- A thread moves, and takes no lock away from another one. -/
theorem Inv.move (I : Inv s) (hplace : s'.place = s.place) (hp : p.Sound s'.holder t)
    (hholder : ∀ u ≠ t, ∀ e, s.holder e = some u → s'.holder e = some u) :
    Inv (s'.move t p) := by
  intro u
  rcases s'.place_move t u p with ⟨hu, rfl⟩ | ⟨hu, hne⟩
  · rw [hu]
    exact hp
  · rw [hu, hplace]
    exact (I u).mono (hholder u hne)

theorem Inv.call (I : Inv s) (t : τ) (job : Job) : Inv (s.call t job) := by
  unfold State.call
  split
  · refine I.move rfl ?_ fun _ _ _ => id
    split
    · next hlocks => exact hlocks
    · next hlocks => exact Place.sound_begin fun h => absurd h hlocks
  · exact I

theorem Inv.go (I : Inv s) (t : τ) : Inv (s.go t) := by
  have S := I t
  unfold State.go
  split
  · exact I
  · next job hp =>
    split
    · next hfree =>
      refine I.move rfl (Place.sound_begin fun _ => Function.update_self ..) fun u _ e he => ?_
      refine (Function.update_of_ne ?_ ..).trans he
      rintro rfl
      cases hfree.symm.trans he
    · exact I
  · next job asked w rest hp =>
    rw [hp] at S
    refine I.move rfl ⟨S.1, fun hlocks => ?_, S.2.2.tail⟩ fun _ _ _ => id
    exact .inl ((S.2.1 hlocks).resolve_right nofun)
  · next job asked hp =>
    rw [hp] at S
    split
    · next hlocks =>
      refine I.move (s := s) rfl trivial fun u hne e he => ?_
      refine (Function.update_of_ne ?_ ..).trans he
      rintro rfl
      exact hne (Option.some.inj (he.symm.trans (S.1 hlocks)))
    · exact I.move rfl trivial fun _ _ _ => id

theorem Inv.step (I : Inv s) (event : Event τ) : Inv (step event s) := by
  cases event with
  | call t job => exact I.call t job
  | go t => exact I.go t

/-- A thread that has nothing to do with the registers in this step. -/
theorem Kept.move (L : Kept s) (hplace : s'.place = s.place) (hbus : s'.bus = s.bus)
    (hp : ∀ e, ¬ p.Holds e) : Kept (s'.move t p) := by
  intro u e hu
  rcases s'.place_move t u p with ⟨h, rfl⟩ | ⟨h, -⟩
  · rw [h] at hu
    exact absurd hu (hp e)
  · rw [h, hplace] at hu
    change s'.bus.lastWrite _ = _
    rw [hbus]
    exact L u e hu

theorem Kept.call (L : Kept s) (t : τ) (job : Job) : Kept (s.call t job) := by
  unfold State.call
  split
  · refine L.move rfl rfl fun e h => ?_
    split at h
    · exact h
    · exact Bool.false_ne_true h.2.2.2.1
  · exact L

theorem forcewake_inj {e e' : EngineId} (h : e.forcewake = e'.forcewake) : e = e' := by
  cases e <;> cases e' <;> first | rfl | exact absurd h (by decide)

theorem forcewake_mem (e : EngineId) : e.forcewake ∈ Bus.domains := by
  cases e <;> decide

/-- The register of an engine that a submission holds is written by `InitClient` only. -/
theorem Kept.write {job : Job} {asked : Bool} {w : Nat × DWord} {rest : List (Nat × DWord)}
    (I : Inv s) (L : Kept s) (hp : s.place t = .inside job asked (w :: rest))
    (hclash : ¬ Clash s (.go t)) :
    Kept ({ s with bus := s.bus.write w.1 w.2 }.move t (.inside job true rest)) := by
  have S := I t
  rw [hp] at S
  intro u e hu
  change (s.bus.write w.1 w.2).lastWrite _ = _
  rw [Bus.lastWrite_write]
  rcases State.place_move { s with bus := s.bus.write w.1 w.2 } t u (.inside job true rest) with
    ⟨h, rfl⟩ | ⟨h, hne⟩
  all_goals rw [h] at hu
  · -- the thread is in the submission itself, and its release is not what it writes
    obtain ⟨rfl, hcall, hwakes, -, hrest⟩ := hu
    cases S.2.2 with
    | ask => exact if_pos rfl
    | other hw =>
      refine (if_neg fun heq => hw ?_).trans (L u _ ?_)
      · rw [heq]
        exact forcewake_mem _
      rw [hp]
      exact ⟨rfl, hcall, hwakes, rfl, nofun⟩
    | release => exact absurd rfl hrest
  · have hold := L u e hu
    cases S.2.2 with
    | ask =>
      split
      · rfl
      · exact hold
    | other hw =>
      refine (if_neg fun heq => hw ?_).trans hold
      rw [heq]
      exact forcewake_mem _
    | release =>
      rw [if_neg fun heq => ?_]
      · exact hold
      obtain rfl := forcewake_inj heq
      cases hinit : job.isInit with
      | true => exact hclash ⟨t, u, job, true, [], rfl, hinit, hp, hu⟩
      | false =>
        exact hne (Option.some.inj (((I u).holder_of_holds hu).symm.trans (S.locked hinit)))

/-- A step keeps what the submissions hold unless it is the release of `InitClient`. -/
theorem kept_step_iff (I : Inv s) (L : Kept s) (event : Event τ) :
    Kept (step event s) ↔ ¬ Clash s event := by
  constructor
  · rintro K ⟨t, u, job, asked, rest, rfl, hinit, hp, hu⟩
    have hne : u ≠ t := by
      rintro rfl
      rw [hp] at hu
      obtain ⟨-, ⟨batchAddress, batchLength, hcall⟩, -⟩ := hu
      rw [Job.isInit, hcall] at hinit
      cases hinit
    change Kept (s.go t) at K
    rw [State.go_write hp] at K
    have hlast := K u job.engine
    rcases State.place_move { s with bus := s.bus.write job.engine.forcewake _ } t u
      (.inside job true rest) with ⟨-, heq⟩ | ⟨hplace, -⟩
    · exact hne heq
    rw [hplace] at hlast
    replace hlast := hlast hu
    change (s.bus.write _ _).lastWrite _ = _ at hlast
    rw [Bus.lastWrite_write, if_pos rfl] at hlast
    have hne : masked kForcewakeKernel false ≠ masked kForcewakeKernel true := by decide
    exact absurd (Option.some.inj hlast) hne
  · intro hclash
    cases event with
    | call t job => exact L.call t job
    | go t =>
      change Kept (s.go t)
      unfold State.go
      split
      · exact L
      · split
        · exact L.move rfl rfl fun e h => Bool.false_ne_true h.2.2.2.1
        · exact L
      · next hp => exact Kept.write I L hp hclash
      · refine L.move ?_ ?_ fun _ => id
        · split <;> rfl
        · split <;> rfl

/-- Whatever order the threads of the clients take their turns in: while a submission holds its
engine, the last write to the forcewake register of the engine is the request to stay awake, just
if `InitClient` does not release an engine that a submission holds. -/
theorem run_kept_iff (bus : Bus) (events : List (Event τ)) :
    Run.Along step (fun s event => Kept (step event s)) (start bus) events ↔
      Run.Along step (fun s event => ¬ Clash s event) (start bus) events :=
  Run.along_iff (I := Inv) (L := Kept) (fun _ event I => I.step event)
    (fun event _ _ I L => kept_step_iff I L event) (Inv.start bus) fun _ _ h => h.elim

/-- A GPU that wakes up and goes to sleep again at once. -/
def prompt : Gpu where
  content := fun _ => 0
  looks := fun _ => 1
  acks := fun wait _ => if wait = 0 then kForcewakeKernel else 0
  ends := fun _ => true

/-- The context of a client on the render engine. -/
def renderContext : EngineState := { Operation.renderMaster with master := false }

/-- A submission to the render engine, as far as the write of its status page, and then all of the
`InitClient` of another context. -/
def initWhileHeld : List (Event Bool) :=
  [.call false ⟨.submit 0x20000 8, renderContext, prompt⟩, .go false, .go false, .go false,
    .call true ⟨.initClient true (.ok ()) Operation.renderMaster,
      { renderContext with ready := false }, prompt⟩, .go true, .go true]

/-- The engine of the submission is released. -/
theorem not_kept_of_initClient :
    let s := Run.exec step (start Operation.quietBus) initWhileHeld
    (s.place false).Holds .render ∧
      s.bus.lastWrite EngineId.render.forcewake = some (masked kForcewakeKernel false) ∧
      ¬ Kept s := by
  have hlast : (Run.exec step (start Operation.quietBus) initWhileHeld).bus.lastWrite
      EngineId.render.forcewake = some (masked kForcewakeKernel false) := by
    decide
  have hholds : ((Run.exec step (start Operation.quietBus) initWhileHeld).place false).Holds
      .render := ⟨rfl, ⟨0x20000, 8, rfl⟩, by decide, rfl, nofun⟩
  refine ⟨hholds, hlast, fun K => ?_⟩
  exact absurd (hlast.symm.trans (K false .render hholds)) (by decide)

end Awake

end IntelGfx
