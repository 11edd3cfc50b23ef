import IntelGfx.Kernel.Fences
import IntelGfx.Verify.Scheduler

/-!
# Fences tell what has been submitted

The sequence numbers that `Submit` has returned for a context are those below the next one, but
for the number of a submission under way; and apart from that submission the fence page holds the
last of them.
-/

namespace IntelGfx

namespace Scheduler

namespace Place

/-- The context of the call. -/
def context : Place → Option Nat
  | outside => none
  | entering c | entered c | idling c | waking c | filling c | clearing c _ | pointing c _
  | porting c _ _ | executing _ c _ | saving _ c _ | failing _ c => some c

/-- The context of the call, of which there may be none yet. -/
def contextOr (new : Nat) : Place → Option Nat
  | outside => some new
  | p => p.context

/-- The context whose next number the call has taken. -/
def numbered : Place → Option Nat
  | clearing c _ | pointing c _ | porting c _ _ | executing _ c _ | saving _ c _ | failing _ c =>
    some c
  | _ => none

/-- The context that has a number left for the call. -/
def admitted : Place → Option Nat
  | idling c | waking c | filling c => some c
  | _ => none

end Place

section settled
variable {τ : Type*} {e : Engine τ} {p q : Place} {x : Nat} {issued : List Nat}

/-- What is true of the numbers of a context. -/
structure Settled (e : Engine τ) (p : Place) (x : Nat) (issued : List Nat) : Prop where
  issued : issued = List.range' 1 (e.fNextSeqno x - 1 - if p.numbered = some x then 1 else 0)
  fence : p.numbered ≠ some x → e.fence x + 1 = e.fNextSeqno x
  pos : p.numbered = some x → 2 ≤ e.fNextSeqno x
  small : e.fNextSeqno x ≤ 0x7fffffff
  room : p.admitted = some x → e.fNextSeqno x < 0x7fffffff

namespace Settled

theorem counted (H : Settled e p x issued) : ∃ m, issued = List.range' 1 m ∧ m < 0x7fffffff := by
  have hsmall := H.small
  exact ⟨_, H.issued, by omega⟩

theorem move (H : Settled e p x issued) (hn : q.numbered = p.numbered)
    (hroom : q.admitted = some x → e.fNextSeqno x < 0x7fffffff) : Settled e q x issued where
  issued := by
    rw [hn]
    exact H.issued
  fence h := H.fence (hn ▸ h)
  pos h := H.pos (hn ▸ h)
  small := H.small
  room := hroom

/-- Nothing but the numbers and the fence of the context matters. -/
theorem congr {e' : Engine τ} (H : Settled e p x issued) (hnext : e'.fNextSeqno = e.fNextSeqno)
    (hfence : e'.fence = e.fence) : Settled e' p x issued := by
  refine ⟨?_, ?_, ?_, ?_, ?_⟩
  all_goals
    rw [hnext]
  · exact H.issued
  · rw [hfence]
    exact H.fence
  · exact H.pos
  · exact H.small
  · exact H.room

theorem number {c : Nat} (H : Settled e (.filling c) x issued) :
    Settled (e.number c) (.clearing c (e.fNextSeqno c)) x issued := by
  have hfence := H.fence nofun
  have hsmall := H.small
  rcases eq_or_ne c x with rfl | hne
  · have hroom := H.room rfl
    have hnext : (e.number c).fNextSeqno c = e.fNextSeqno c + 1 := Function.update_self ..
    refine ⟨?_, fun h => absurd rfl h, fun _ => ?_, ?_, nofun⟩
    · have hnumbered : (Place.clearing c (e.fNextSeqno c)).numbered = some c := rfl
      rw [hnext, H.issued, if_pos hnumbered, if_neg nofun]
      rfl
    · rw [hnext]
      omega
    · rw [hnext]
      exact hroom
  · have hnext : (e.number c).fNextSeqno x = e.fNextSeqno x := Function.update_of_ne hne.symm ..
    have hnumbered : (Place.clearing c (e.fNextSeqno c)).numbered ≠ some x :=
      fun h => hne (Option.some.inj h)
    refine ⟨?_, fun _ => ?_, fun h => absurd h hnumbered, ?_, nofun⟩
    · rw [hnext, if_neg hnumbered, H.issued, if_neg nofun]
    · rw [hnext]
      exact hfence
    · rw [hnext]
      exact hsmall

/-- The thread goes on to a place after the ring. -/
theorem goes {e' : Engine τ} (H : Settled e p x issued) (hnext : e'.fNextSeqno = e.fNextSeqno)
    (hfence : e'.fence = e.fence) (hn : q.numbered = p.numbered) (hq : q.admitted = none) :
    Settled e' q x issued :=
  (H.congr hnext hfence).move hn fun h => nomatch hq.symm.trans h

/-- A submission that succeeds gives its number away. -/
theorem finish {n c k : Nat} (H : Settled e (.saving n c k) x issued)
    (hs : Sound e (.saving n c k)) :
    Settled e .outside x (if c = x then issued ++ [k] else issued) := by
  rcases eq_or_ne c x with rfl | hne
  · obtain ⟨-, sub, -, rfl, rfl, hr, hfenced⟩ := hs.here
    have hpos := H.pos rfl
    have hnext := hr.next
    have hreached := hr.reached hfenced
    rw [if_pos rfl]
    refine ⟨?_, fun _ => ?_, nofun, H.small, nofun⟩
    · have hnumbered : (Place.saving n sub.context sub.seqno).numbered = some sub.context := rfl
      rw [H.issued, if_pos hnumbered, if_neg nofun, Nat.sub_zero, hnext]
      obtain ⟨j, hj⟩ : ∃ j, sub.seqno = j + 1 := ⟨sub.seqno - 1, by omega⟩
      rw [hj]
      change List.range' 1 j ++ [j + 1] = List.range' 1 (j + 1)
      rw [List.range'_1_concat, Nat.add_comm]
    · rw [hreached, hnext]
  · have hnumbered : (Place.saving n c k).numbered ≠ some x := fun h => hne (Option.some.inj h)
    rw [if_neg hne]
    refine ⟨?_, fun _ => H.fence hnumbered, nofun, H.small, nofun⟩
    rw [H.issued, if_neg hnumbered, if_neg nofun]

/-- The hardware writes only the fence of the submission under way. -/
theorem hardware (H : Settled e p x issued) (hs : Sound e p) (hf : e.schedulerFaulted = false)
    (id : Nat → BitVec 32) (h : Hardware) : Settled (e.hardware id h) p x issued := by
  have hentry (index : Fin 6) (entry : Entry) : Settled (e.writeEntry index entry) p x issued := by
    obtain ⟨status, hstatus, -⟩ := e.writeEntry_eq index entry
    rw [hstatus]
    exact H.congr rfl rfl
  cases h with
  | writeFence n =>
    simp only [Engine.hardware]
    split
    · exact H
    rename_i sub hn
    split
    · exact H
    rename_i hfenced
    have hmine : p.submission = some n := by
      rcases hs.complete n sub hn with hc | hf' | hmine
      · exact absurd hc.1 hfenced
      · exact Bool.noConfusion (hf.symm.trans hf')
      · exact hmine
    have hcontext : p.numbered = some sub.context := by
      have hhere := hs.here
      cases p with
      | executing | saving =>
        cases hmine
        obtain ⟨-, sub', hn', rfl, -⟩ := hhere
        cases hn.symm.trans hn'
        rfl
      | failing =>
        cases hmine
        obtain ⟨-, -, sub', hn', rfl, -⟩ := hhere
        cases hn.symm.trans hn'
        rfl
      | _ => cases hmine
    refine ⟨H.issued, fun hx => ?_, H.pos, H.small, H.room⟩
    have hne : x ≠ sub.context := fun h => hx (hcontext.trans (congrArg some h.symm))
    exact (congrArg (· + 1) (Function.update_of_ne hne ..)).trans (H.fence hx)
  | save n index status =>
    simp only [Engine.hardware]
    split
    · exact H
    · split
      · exact (hentry ..).congr rfl rfl
      · exact H
  | report n index status =>
    simp only [Engine.hardware]
    split
    · exact H
    · split
      · exact hentry ..
      · exact H

end Settled

/-- The numbers that are issued for a context, after a step of a thread. -/
def issuedAfter (p : Place) (x : Nat) (issued : List Nat) : Option Status → List Nat
  | some (.ok fence) => if p.context = some x then issued ++ [fence] else issued
  | _ => issued

variable [DecidableEq τ] {s : State τ} {t : τ}

/-- The numbers of a context go up from one, and they are settled as long as the engine is not
faulted. -/
structure State.Settles (s : State τ) (x : Nat) (issued : List Nat) : Prop where
  counted : ∃ m, issued = List.range' 1 m ∧ m < 0x7fffffff
  settled : s.engine.schedulerFaulted = false → Settled s.engine s.critical x issued

theorem Inv.settles_run (H : Inv s) (hx : s.Settles x issued) (id : Nat → BitVec 32) (t : τ)
    (input : Input) : (s.next id (.software t input)).2.Settles x
      (issuedAfter (s.place t) x issued (s.next id (.software t input)).1) := by
  have here {p : Place} (hplace : s.place t = p) (hp : p.inside) :
      Sound s.engine p ∧ (s.engine.schedulerFaulted = false → Settled s.engine p x issued) := by
    have hholder := (H.holder t).1 (hplace ▸ hp)
    have hcritical : s.critical = p := by
      rw [State.critical, hholder]
      exact hplace
    exact ⟨hcritical ▸ H.sound, hcritical ▸ hx.settled⟩
  have turn {p q : Place} {e : Engine τ} (hplace : s.place t = p) (hp : p.inside)
      (he : e.schedulerFaulted = false → Settled e q x issued) :
      ({ s with engine := e }.move t q).Settles x issued := by
    have hholder := (H.holder t).1 (hplace ▸ hp)
    refine ⟨hx.counted, fun hf => ?_⟩
    rw [State.critical_move (s := { s with engine := e }) hholder]
    exact he hf
  have same {p q : Place} (hplace : s.place t = p) (hp : p.inside) (hq : q.numbered = p.numbered)
      (hroom : s.engine.schedulerFaulted = false → Settled s.engine p x issued →
        q.admitted = some x → s.engine.fNextSeqno x < 0x7fffffff) :
      (s.move t q).Settles x issued :=
    turn hplace hp fun hf => ((here hplace hp).2 hf).move hq (hroom hf ((here hplace hp).2 hf))
  have leave {p : Place} (hplace : s.place t = p) (hp : p.inside) (hn : p.numbered = none) :
      (s.leave t).Settles x issued :=
    ⟨hx.counted, fun hf => ((here hplace hp).2 hf).move hn.symm (by rintro ⟨⟩)⟩
  simp only [State.next]
  cases hplace : s.place t with
  | outside =>
    have hholder : s.holder ≠ some t := fun h => by
      have := (H.holder t).2 h
      rw [hplace] at this
      cases this
    refine ⟨hx.counted, fun hf => ?_⟩
    change Settled s.engine (s.move t _).critical x issued
    rw [State.critical_move_of_ne hholder]
    exact hx.settled hf
  | entering c =>
    simp only [State.run]
    split
    · rename_i hfree
      refine ⟨hx.counted, fun hf => ?_⟩
      have hcritical : s.critical = .outside := by
        rw [State.critical, hfree]
        rfl
      have hS := hx.settled hf
      rw [hcritical] at hS
      change Settled s.engine (Function.update s.place t _ t) x issued
      rw [Function.update_self]
      exact hS.move rfl (by rintro ⟨⟩)
    · exact hx
  | entered c =>
    simp only [State.run]
    split
    · exact leave hplace rfl rfl
    split
    · exact leave hplace rfl rfl
    rename_i hnext
    have hroom {q : Place} (hq : q.admitted = some c) (h : q.admitted = some x) :
        s.engine.fNextSeqno x < 0x7fffffff := by
      cases hq.symm.trans h
      exact Nat.not_le.1 hnext
    split
    · exact same hplace rfl rfl fun _ _ => hroom rfl
    · exact same hplace rfl rfl fun _ _ => hroom rfl
  | idling c =>
    simp only [State.run]
    split
    · exact same hplace rfl rfl fun _ hS => hS.room
    · split
      · exact leave hplace rfl rfl
      · exact hx
  | waking c =>
    simp only [State.run]
    split
    · exact leave hplace rfl rfl
    · exact same hplace rfl rfl fun _ hS => hS.room
  | filling c => exact turn hplace rfl fun hf => ((here hplace rfl).2 hf).number
  | clearing c k =>
    exact turn hplace rfl fun hf => ((here hplace rfl).2 hf).goes rfl rfl rfl rfl
  | pointing c k =>
    exact turn hplace rfl fun hf => ((here hplace rfl).2 hf).goes rfl rfl rfl rfl
  | porting c k count =>
    simp only [State.run, State.port]
    split
    · exact same hplace rfl rfl fun _ _ => by rintro ⟨⟩
    · exact turn hplace rfl fun hf => ((here hplace rfl).2 hf).goes rfl rfl rfl rfl
  | executing n c k =>
    simp only [State.run]
    split
    · exact same hplace rfl rfl fun _ _ => by rintro ⟨⟩
    · split
      · exact turn hplace rfl fun hf => ((here hplace rfl).2 hf).goes rfl rfl rfl rfl
      · exact hx
  | saving n c k =>
    simp only [State.run]
    split
    · have hsound := (here hplace rfl).1
      have hS := ((here hplace rfl).2 (hsound.not_faulted rfl)).finish hsound
      have hafter : issuedAfter (.saving n c k) x issued (some (.ok k)) =
          if c = x then issued ++ [k] else issued := by
        simp only [issuedAfter, Place.context, Option.some.injEq]
      rw [← hafter] at hS
      exact ⟨hS.counted, fun _ => hS⟩
    · split
      · exact turn hplace rfl fun hf => ((here hplace rfl).2 hf).goes rfl rfl rfl rfl
      · exact hx
  | failing n c => exact ⟨hx.counted, fun hf => by cases hf⟩

theorem Inv.settles_hardware (H : Inv s) (hx : s.Settles x issued) (id : Nat → BitVec 32)
    (h : Hardware) : (s.next id (.hardware h)).2.Settles x issued := by
  have hfaulted : (s.engine.hardware id h).schedulerFaulted = s.engine.schedulerFaulted := by
    have hentry (index : Fin 6) (entry : Entry) :
        (s.engine.writeEntry index entry).schedulerFaulted = s.engine.schedulerFaulted := by
      obtain ⟨status, hstatus, -⟩ := s.engine.writeEntry_eq index entry
      rw [hstatus]
    cases h <;> simp only [Engine.hardware] <;> repeat' split
    all_goals first | rfl | exact hentry ..
  refine ⟨hx.counted, fun hf => ?_⟩
  have hf' := hfaulted.symm.trans hf
  exact (hx.settled hf').hardware H.sound hf' id h

theorem State.next_place_of_ne (id : Nat → BitVec 32) (input : Input) {u : τ} (hu : u ≠ t) :
    (s.next id (.software t input)).2.place u = s.place u := by
  have hmove (e : Engine τ) (p : Place) : ({ s with engine := e }.move t p).place u = s.place u :=
    Function.update_of_ne hu ..
  simp only [State.next]
  cases s.place t <;> simp only [State.run, State.port] <;> repeat' split
  all_goals first | rfl | exact hmove ..

/-- A step of a thread in a call for the context. -/
def Stays (t : τ) (context : Option Nat) (next : Option Status × State τ) : Prop :=
  (next.1.isSome → next.2.place t = .outside) ∧
    (next.1 = none → (next.2.place t).context = context)

/-- A call is about one context until it returns. -/
theorem State.next_stays (s : State τ) (id : Nat → BitVec 32) (t : τ) (input : Input) :
    Stays t ((s.place t).contextOr input.context) (s.next id (.software t input)) := by
  have hmove {s' : State τ} {p : Place} {c : Option Nat} (hp : p.context = c) :
      Stays t c (none, s'.move t p) := by
    refine ⟨fun h => absurd h Bool.false_ne_true, fun _ => ?_⟩
    change (Function.update s'.place t p t).context = c
    rw [Function.update_self, hp]
  have hleave {s' : State τ} {r : Option Status} {c : Option Nat} (hr : r ≠ none) :
      Stays t c (r, s'.leave t) := ⟨fun _ => Function.update_self .., fun h => absurd h hr⟩
  have hstay {p : Place} {c : Option Nat} (hplace : s.place t = p) (hp : p.context = c) :
      Stays t c (none, s) := ⟨fun h => absurd h Bool.false_ne_true, fun _ => hplace ▸ hp⟩
  simp only [State.next]
  cases hplace : s.place t with
  | outside => exact hmove rfl
  | entering =>
    simp only [State.run]
    split
    · exact hmove rfl
    · exact hstay hplace rfl
  | filling | clearing | pointing => exact hmove rfl
  | failing => exact hleave (Option.some_ne_none _)
  | porting | entered | idling | waking | executing | saving =>
    simp only [State.run, State.port]
    repeat' split
    all_goals
      first
      | exact hmove rfl
      | exact hleave (Option.some_ne_none _)
      | exact hstay hplace rfl

end settled

end Scheduler

namespace Fences
open Scheduler

variable {τ : Type*} [DecidableEq τ] {c : Client} {s s' : State τ} {t : τ} {engine : EngineId}
  {context : Nat}

/-- Only the thread that holds the lock of the client is in a call for one of its contexts, and
what `Submit` has returned for a context of the client are its numbers. -/
structure Inv (c : Client) (s : State τ) : Prop where
  engine : ∀ e, Scheduler.Inv (s.engine e)
  busy : ∀ {t e x}, s.fLock = some (t, e, x) →
    ((s.engine e).place t).context = some x ∧ c.has e x
  own : ∀ {e t x}, ((s.engine e).place t).context = some x → c.has e x → s.fLock = some (t, e, x)
  settled : ∀ {e x}, c.fEngines e = some x → (s.engine e).Settles x (s.issued e)

namespace Inv

omit [DecidableEq τ] in
theorem start : Inv c (start : State τ) where
  engine _ := .start
  busy := nofun
  own := nofun
  settled _ := ⟨⟨0, rfl, Nat.le_of_ble_eq_true rfl⟩,
    fun _ => ⟨rfl, fun _ => rfl, nofun, Nat.le_of_ble_eq_true rfl, nofun⟩⟩

/-- A step of a thread on one engine; what it means for the lock of the client is left open. -/
private theorem advance {id : Nat → BitVec 32} {input : Input} (H : Inv c s)
    (he : s'.engine = Function.update s.engine engine
      ((s.engine engine).next id (.software t input)).2)
    (hissued : ∀ x, c.fEngines engine = some x → s'.issued engine =
      issuedAfter ((s.engine engine).place t) x (s.issued engine)
        ((s.engine engine).next id (.software t input)).1)
    (hrest : ∀ e, e ≠ engine → s'.issued e = s.issued e)
    (hbusy : ∀ {u e x}, s'.fLock = some (u, e, x) →
      ((s'.engine e).place u).context = some x ∧ c.has e x)
    (hown : ∀ {e u x}, ((s'.engine e).place u).context = some x → c.has e x →
      s'.fLock = some (u, e, x)) : Inv c s' where
  engine e := by
    rw [he]
    rcases eq_or_ne e engine with rfl | hne
    · rw [Function.update_self]
      exact (H.engine e).step id (.software t input)
    · rw [Function.update_of_ne hne]
      exact H.engine e
  busy := hbusy
  own := hown
  settled {e x} hx := by
    rw [he]
    rcases eq_or_ne e engine with rfl | hne
    · rw [Function.update_self, hissued x hx]
      exact (H.engine e).settles_run (H.settled hx) id t input
    · rw [Function.update_of_ne hne, hrest e hne]
      exact H.settled hx

omit [DecidableEq τ] in
/-- A thread that does not hold the lock of the client is in no call for its contexts. -/
theorem not_own (H : Inv c s) (h : ∀ e x, s.fLock ≠ some (t, e, x)) (hx : c.has engine context) :
    ((s.engine engine).place t).context ≠ some context := fun hplace => h _ _ (H.own hplace hx)

/-- The other threads stay where they are. -/
private theorem place_advance {id : Nat → BitVec 32} {input : Input}
    (he : s'.engine = Function.update s.engine engine
      ((s.engine engine).next id (.software t input)).2) {e : EngineId} {u : τ}
    (h : e ≠ engine ∨ u ≠ t) : (s'.engine e).place u = (s.engine e).place u := by
  rw [he]
  rcases eq_or_ne e engine with rfl | hne
  · rw [Function.update_self]
    exact State.next_place_of_ne id input (h.resolve_left fun h => h rfl)
  · rw [Function.update_of_ne hne]

theorem foreign (H : Inv c s) (id : Nat → BitVec 32) (t : τ) (engine : EngineId) (input : Input)
    (h : ∀ e x, s.fLock ≠ some (t, e, x)) : Inv c (s.foreign c id t engine input) := by
  unfold State.foreign
  split
  · exact H
  rename_i hnew
  have hplace {e : EngineId} {u : τ} (h : e ≠ engine ∨ u ≠ t) :
      ((s.setEngine engine ((s.engine engine).next id (.software t input)).2).engine e).place u =
        (s.engine e).place u := place_advance rfl h
  have hstays := (s.engine engine).next_stays id t input
  refine H.advance rfl (fun x hx => ?_) (fun _ _ => rfl) (fun {u e x} hu => ?_)
    fun {e u x} hx hhas => ?_
  · have hne := H.not_own h (.inl hx)
    unfold issuedAfter
    split
    · exact (if_neg hne).symm
    · rfl
  · have hut : u ≠ t := by
      rintro rfl
      exact h e x hu
    rw [hplace (.inr hut)]
    exact H.busy hu
  · rcases eq_or_ne e engine with rfl | hne
    · rcases eq_or_ne u t with rfl | hut
      · exfalso
        change ((Function.update s.engine e _ e).place u).context = some x at hx
        rw [Function.update_self] at hx
        cases hr : ((s.engine e).next id (.software u input)).1 with
        | none =>
          rw [hstays.2 hr] at hx
          cases hp : (s.engine e).place u with
          | outside =>
            rw [hp] at hx
            cases hx
            exact hnew ⟨hp, hhas⟩
          | _ =>
            rw [hp] at hx
            refine H.not_own h hhas ?_
            rw [hp]
            exact hx
        | some status =>
          rw [hstays.1 (by rw [hr]; rfl)] at hx
          cases hx
      · rw [hplace (.inr hut)] at hx
        exact H.own hx hhas
    · rw [hplace (.inl hne)] at hx
      exact H.own hx hhas

omit [DecidableEq τ] in
/-- What comes of a return of `Submit`. -/
private theorem returned_spec (c : Client) (s : State τ) (engine : EngineId) (context : Nat)
    (status : Scheduler.Status) :
    (s.returned c engine context status).engine = s.engine ∧
    (s.returned c engine context status).fLock = none ∧
    (∀ e, e ≠ engine → (s.returned c engine context status).issued e = s.issued e) ∧
    ∀ p : Place, p.context = some context → ∀ x, c.fEngines engine = some x →
      (s.returned c engine context status).issued engine =
        issuedAfter p x (s.issued engine) (some status) := by
  cases status with
  | ok fence =>
    simp only [State.returned]
    split
    · rename_i hown
      refine ⟨rfl, rfl, fun e he => Function.update_of_ne he .., fun p hp x hx => ?_⟩
      cases hown.symm.trans hx
      exact (Function.update_self ..).trans (if_pos hp).symm
    · rename_i hown
      refine ⟨rfl, rfl, fun _ _ => rfl, fun p hp x hx => (if_neg fun h => hown ?_).symm⟩
      cases hp.symm.trans h
      exact hx
  | devNotReady | noMemory | timedOut =>
    simp only [State.returned]
    split <;> exact ⟨rfl, rfl, fun _ _ => rfl, fun _ _ _ _ => rfl⟩

theorem own_step (H : Inv c s) (id : Nat → BitVec 32) (input : Input)
    (h : s.fLock = some (t, engine, context)) : Inv c (s.own c id t engine context input) := by
  obtain ⟨hcontext, hhas⟩ := H.busy h
  have hstays := (s.engine engine).next_stays id t input
  have hplace {s' : State τ} (he : s'.engine = Function.update s.engine engine
      ((s.engine engine).next id (.software t input)).2) {e : EngineId} {u : τ}
      (h : e ≠ engine ∨ u ≠ t) := place_advance he h
  unfold State.own
  generalize hnext : (s.engine engine).next id (.software t input) = next at hstays
  obtain ⟨r, e'⟩ := next
  cases r with
  | none =>
    have hself : (e'.place t).context = some context := by
      rw [hstays.2 rfl]
      cases hp : (s.engine engine).place t with
      | outside =>
        rw [hp] at hcontext
        cases hcontext
      | _ =>
        rw [hp] at hcontext
        exact hcontext
    have he : (s.setEngine engine e').engine = Function.update s.engine engine
        ((s.engine engine).next id (.software t input)).2 := by
      rw [hnext]
      rfl
    have hhere : ((s.setEngine engine e').engine engine).place t = e'.place t :=
      congrArg (State.place · t) (Function.update_self ..)
    refine H.advance he (fun x _ => by rw [hnext]; rfl) (fun _ _ => rfl) (fun {u e x} hu => ?_)
      fun {e u x} hx hhas => ?_
    · cases h.symm.trans hu
      rw [hhere]
      exact ⟨hself, hhas⟩
    · by_cases hsame : e ≠ engine ∨ u ≠ t
      · rw [hplace he hsame] at hx
        exact H.own hx hhas
      · obtain ⟨rfl, rfl⟩ : e = engine ∧ u = t := by
          simpa only [not_or, not_ne_iff] using hsame
        rw [hhere, hself] at hx
        cases hx
        exact h
  | some status =>
    obtain ⟨hengine, hlock, hrest, hissued⟩ :=
      returned_spec c (s.setEngine engine e') engine context status
    have he : ((s.setEngine engine e').returned c engine context status).engine =
        Function.update s.engine engine ((s.engine engine).next id (.software t input)).2 := by
      rw [hengine, hnext]
      rfl
    refine H.advance he (fun x hx => ?_) hrest (fun {u e x} hu => ?_) fun {e u x} hx hhas => ?_
    · rw [hnext]
      exact hissued _ hcontext x hx
    · rw [hlock] at hu
      cases hu
    · exfalso
      by_cases hsame : e ≠ engine ∨ u ≠ t
      · rw [hplace he hsame] at hx
        cases h.symm.trans (H.own hx hhas)
        rcases hsame with hne | hne <;> exact hne rfl
      · obtain ⟨rfl, rfl⟩ : e = engine ∧ u = t := by
          simpa only [not_or, not_ne_iff] using hsame
        have hout : (e'.place u).context = none := by
          rw [hstays.1 rfl]
          rfl
        rw [he, Function.update_self, hnext, hout] at hx
        cases hx

theorem call (H : Inv c s) (t : τ) (hhas : c.has engine context) :
    Inv c (s.call t engine context) := by
  unfold State.call
  split
  · rename_i hfree
    obtain ⟨hlock, hblitter, hrender⟩ := hfree
    have hout : (s.engine engine).place t = .outside := by
      cases engine with
      | blitter => exact hblitter
      | render => exact hrender
    have hnext (id : Nat → BitVec 32) :
        (s.engine engine).next id (.software t ⟨context, false, 0⟩) =
          (none, (s.engine engine).move t (.entering context)) := by
      simp only [State.next, hout, State.run]
    have he : (s.setEngine engine ((s.engine engine).move t (.entering context))).engine =
        Function.update s.engine engine
          ((s.engine engine).next (fun _ => 0) (.software t ⟨context, false, 0⟩)).2 := by
      rw [hnext]
      rfl
    have hhere : ((s.setEngine engine ((s.engine engine).move t (.entering context))).engine
        engine).place t = .entering context := by
      rw [he, Function.update_self, hnext]
      exact Function.update_self ..
    refine H.advance he (fun x _ => by rw [hnext]; rfl) (fun _ _ => rfl) (fun {u e x} hu => ?_)
      fun {e u x} hx hhas' => ?_
    · cases hu
      refine ⟨?_, hhas⟩
      exact congrArg Place.context hhere
    · by_cases hsame : e ≠ engine ∨ u ≠ t
      · have hold := place_advance he hsame
        have hx' : ((s.engine e).place u).context = some x := hold ▸ hx
        cases hlock.symm.trans (H.own hx' hhas')
      · obtain ⟨rfl, rfl⟩ : e = engine ∧ u = t := by
          simpa only [not_or, not_ne_iff] using hsame
        cases (congrArg Place.context hhere).symm.trans hx
        rfl
  · exact H

theorem hardware (H : Inv c s) (id : Nat → BitVec 32) (engine : EngineId) (h : Hardware) :
    Inv c (s.setEngine engine ((s.engine engine).next id (.hardware h)).2) := by
  have hplace (e : EngineId) : ((s.setEngine engine ((s.engine engine).next id
      (.hardware h)).2).engine e).place = (s.engine e).place := by
    change (Function.update s.engine engine _ e).place = _
    rcases eq_or_ne e engine with rfl | hne
    · rw [Function.update_self]
      rfl
    · rw [Function.update_of_ne hne]
  refine ⟨fun e => ?_, fun {t e x} hu => ?_, fun {e t x} hx => ?_, fun {e x} hx => ?_⟩
  · change Scheduler.Inv (Function.update s.engine engine _ e)
    rcases eq_or_ne e engine with rfl | hne
    · rw [Function.update_self]
      exact (H.engine e).step id (.hardware h)
    · rw [Function.update_of_ne hne]
      exact H.engine e
  · rw [hplace]
    exact H.busy hu
  · rw [hplace] at hx
    exact H.own hx
  · change (Function.update s.engine engine _ e).Settles x (s.issued e)
    rcases eq_or_ne e engine with rfl | hne
    · rw [Function.update_self]
      exact (H.engine e).settles_hardware (H.settled hx) id h
    · rw [Function.update_of_ne hne]
      exact H.settled hx

theorem step (H : Inv c s) (id : Nat → BitVec 32) (event : Event τ) :
    Inv c (Fences.step c id event s) := by
  cases event with
  | submit t engine =>
    simp only [Fences.step]
    split
    · exact H
    · split
      · exact H
      · rename_i context hfind
        exact H.call t (.inl (Option.filter_eq_some_iff.1 hfind).1)
  | submitObjects t context =>
    simp only [Fences.step]
    split
    · exact H
    · rename_i h
      simp only [Bool.or_eq_true, not_or, Bool.not_eq_true', Bool.not_eq_false] at h
      exact H.call t (.inr ⟨rfl, h.2⟩)
  | software engine t input =>
    simp only [Fences.step]
    split
    · rename_i hlock
      exact H.foreign id t engine input fun e x h => nomatch hlock.symm.trans h
    · rename_i u engine' context hlock
      split
      · rename_i hne
        refine H.foreign id t engine input fun e x h => hne ?_
        cases hlock.symm.trans h
        rfl
      · rename_i heq
        cases not_ne_iff.1 heq
        split
        · rename_i hengine
          subst hengine
          exact H.own_step id input hlock
        · exact H
  | hardware engine h => exact H.hardware id engine h

end Inv

/-- A fence is made of a sequence number and the flag of an engine. -/
theorem compose_eq (engine : EngineId) {k : Nat} (hk : k < 2 ^ 32) :
    compose engine k = flag engine * 2 ^ 32 + k := by
  rw [compose, Nat.or_comm, Nat.shiftLeft_eq, Nat.mul_comm, Nat.two_pow_add_eq_or_of_lt hk]

theorem flag_selected {flags : Nat} (h : flags ≤ 1) : flag (selected flags) = flags := by
  rcases Nat.le_one_iff_eq_zero_or_eq_one.1 h with rfl | rfl <;> rfl

/-- `kWaitFence` succeeds at once for the fences that were issued, and refuses the others. -/
def RoundTrip (c : Client) (s : State τ) : Prop :=
  ∀ fence timeout, fence < 2 ^ 64 → timeout ≤ 10000000 → fence / 2 ^ 32 ≤ 1 →
    ∀ context, s.find c (selected (fence / 2 ^ 32)) = some context →
      (s.waitFence c fence timeout = .ok ↔
        ∃ k ∈ s.issued (selected (fence / 2 ^ 32)),
          fence = compose (selected (fence / 2 ^ 32)) k) ∧
      (s.waitFence c fence timeout ≠ .ok → s.waitFence c fence timeout = .badValue)

omit [DecidableEq τ] in
/-- Nobody is in a submission to a context of the client while its lock is free. -/
theorem Inv.settled_free (H : Inv c s) (hlock : s.fLock = none)
    (hx : c.fEngines engine = some context)
    (hf : (s.engine engine).engine.schedulerFaulted = false) :
    s.issued engine = List.range' 1 ((s.engine engine).engine.fNextSeqno context - 1) ∧
      (s.engine engine).engine.fence context + 1 = (s.engine engine).engine.fNextSeqno context := by
  have hS := (H.settled hx).settled hf
  have hfree : (s.engine engine).critical.numbered ≠ some context := by
    intro hnumbered
    have hcontext : (s.engine engine).critical.context = some context := by
      cases hp : (s.engine engine).critical with
      | clearing | pointing | porting | executing | saving | failing =>
        rw [hp] at hnumbered
        exact hnumbered
      | _ =>
        rw [hp] at hnumbered
        cases hnumbered
    unfold Scheduler.State.critical at hcontext
    cases hholder : (s.engine engine).holder with
    | none =>
      rw [hholder] at hcontext
      cases hcontext
    | some t =>
      rw [hholder] at hcontext
      exact nomatch hlock.symm.trans (H.own hcontext (.inl hx))
  refine ⟨?_, hS.fence hfree⟩
  rw [hS.issued, if_neg hfree, Nat.sub_zero]

omit [DecidableEq τ] in
theorem Inv.roundTrip (H : Inv c s) (hlock : s.fLock = none) (hfaulted : s.faulted = false) :
    RoundTrip c s := by
  intro fence timeout hfence htimeout hhigh context hfind
  obtain ⟨hx, hready⟩ := Option.filter_eq_some_iff.1 hfind
  simp only [isReady, Bool.and_eq_true, Bool.not_eq_true'] at hready
  obtain ⟨hissued, hlast⟩ := H.settled_free hlock hx hready.2
  obtain ⟨m, hcounted, hm⟩ := (H.settled hx).counted
  have hflag := flag_selected hhigh
  simp only [State.waitFence, hfaulted, Bool.false_eq_true, if_false, if_neg (Nat.not_lt.2 hhigh),
    hfind, if_neg (Nat.not_lt.2 htimeout), wait]
  generalize selected (fence / 2 ^ 32) = engine at *
  have hmem (k : Nat) : (k ∈ s.issued engine ∧ fence = compose engine k) ↔
      k = fence % 2 ^ 32 ∧ ¬ (fence % 2 ^ 32 = 0 ∨
        (s.engine engine).engine.fNextSeqno context ≤ fence % 2 ^ 32 ∨ 10000000 < timeout) := by
    have hlen : (s.engine engine).engine.fNextSeqno context - 1 < 0x7fffffff := by
      have := congrArg List.length (hissued.symm.trans hcounted)
      rw [List.length_range', List.length_range'] at this
      omega
    rw [hissued, List.mem_range'_1]
    constructor
    · rintro ⟨hk, hcompose⟩
      rw [compose_eq engine (by omega), hflag] at hcompose
      omega
    · rintro ⟨rfl, hk⟩
      refine ⟨by omega, ?_⟩
      rw [compose_eq engine (Nat.mod_lt _ (by decide)), hflag]
      omega
  split
  · rename_i hbad
    refine ⟨⟨nofun, fun ⟨k, hk⟩ => absurd hbad ((hmem k).1 hk).2⟩, fun _ => rfl⟩
  · rename_i hgood
    rw [if_pos (by omega)]
    exact ⟨⟨fun _ => ⟨_, (hmem _).2 ⟨rfl, hgood⟩⟩, fun _ => rfl⟩, fun h => absurd rfl h⟩

theorem inv_run (c : Client) (id : Nat → BitVec 32) (events : List (Event τ)) :
    Inv c (Run.exec (step c id) start events) :=
  Run.invariant_of_step (fun _ event H => H.step id event) events .start

/-- In every run of any number of threads and of the hardware: the numbers that `Submit` has
returned for an engine of the client go up and do not wrap; and when the client is not faulted and
`kWaitFence` has its lock, it tells them from all other values. -/
theorem run_roundTrip (c : Client) (id : Nat → BitVec 32) (events : List (Event τ)) :
    let s := Run.exec (step c id) start events
    (∀ engine context, c.fEngines engine = some context →
      (s.issued engine).Pairwise (· < ·) ∧ ∀ k ∈ s.issued engine, 0 < k ∧ k < 0x7fffffff) ∧
    (s.fLock = none → s.faulted = false → RoundTrip c s) := by
  have H := inv_run c id events
  refine ⟨fun engine context hx => ?_, H.roundTrip⟩
  obtain ⟨m, hissued, hm⟩ := (H.settled hx).counted
  rw [hissued]
  refine ⟨List.pairwise_lt_range', fun k hk => ?_⟩
  have := List.mem_range'_1.1 hk
  omega

/-- A client with a context on each engine and a native one beside. -/
def Client.native : Client := ⟨fun _ => some 0, (· == 1), fun _ h => by cases h; rfl⟩

/-- Ten steps take a thread from the call to the wait for the fence. -/
def toWait (engine : EngineId) : List (Event Unit) :=
  List.replicate 10 (.software engine () ⟨0, false, 0⟩)

/-- A submission that succeeds. -/
def succeed (engine : EngineId) : List (Event Unit) :=
  .submit () engine :: toWait engine ++ [.hardware engine (.writeFence 0),
    .software engine () ⟨0, false, 0⟩, .hardware engine (.save 0 0 24),
    .software engine () ⟨0, false, 0⟩]

/-- A submission to a native context that times out. -/
def hang : List (Event Unit) :=
  .submitObjects () 1 :: toWait .render ++ [.software .render () ⟨0, true, 0⟩,
    .software .render () ⟨0, true, 0⟩]

/-- The first fence of each engine. -/
theorem run_roundTrip_engines :
    let s := Run.exec (step .native fun _ => 7) start (succeed .blitter ++ succeed .render)
    s.waitFence .native 1 0 = .ok ∧ s.waitFence .native 0x100000001 10000000 = .ok := by
  have h := (run_roundTrip .native (fun _ => 7) (succeed .blitter ++ succeed .render)).2
    (by decide +kernel) (by decide +kernel)
  refine ⟨(h 1 0 (by decide) (by decide) (by decide) 0 (by decide +kernel)).1.2 ?_,
    (h 0x100000001 10000000 (by decide) (by decide) (by decide) 0 (by decide +kernel)).1.2 ?_⟩
  · exact ⟨1, by decide +kernel, by decide +kernel⟩
  · exact ⟨1, by decide +kernel, by decide +kernel⟩

/-- When a native context hangs, `kWaitFence` refuses the fences of the blitter, too. -/
theorem not_roundTrip_of_hang :
    ¬ ∀ events : List (Event Unit),
      let s := Run.exec (step .native fun _ => 7) start events
      s.fLock = none → RoundTrip .native s := by
  intro h
  have hwait : (Run.exec (step .native fun _ => 7) start (succeed .blitter ++ hang)).waitFence
      .native 1 0 = .devNotReady := by decide +kernel
  have hbad := (h (succeed .blitter ++ hang) (by decide +kernel) 1 0 (by decide) (by decide)
    (by decide) 0 (by decide +kernel)).2 (by rw [hwait]; nofun)
  rw [hwait] at hbad
  cases hbad

end Fences

end IntelGfx
