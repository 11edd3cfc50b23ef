import IntelGfx.Kernel.Scheduler

/-!
# Submissions are serialised, not fooled, and fail-stop

All that a submission does between the lock and its return concerns the one thread in it, so the
invariant is about the place of the thread that holds the lock. Every submission before the one
under way is complete, or one has timed out and the fault is set, or about to be.
-/

namespace IntelGfx

namespace Scheduler

namespace Place

/-- The thread has the lock. -/
def inside : Place → Bool
  | outside | entering _ => false
  | _ => true

/-- The thread has found the engine not faulted, and has the lock still. -/
def tested : Place → Bool
  | outside | entering _ | entered _ => false
  | _ => true

/-- The submission that the thread has made. -/
def submission : Place → Option Nat
  | executing n _ _ | saving n _ _ | failing n _ => some n
  | _ => none

/-- What the thread does next is a write to the port. -/
def writes : Place → Bool
  | porting _ _ _ => true
  | _ => false

/-- The thread is between its first write to the port and its return. -/
def submitted : Place → Bool
  | porting _ _ count => 0 < count
  | executing .. | saving .. | failing .. => true
  | _ => false

theorem inside_of_submitted {p : Place} (h : p.submitted) : p.inside := by
  cases p <;> first | rfl | cases h

theorem tested_of_writes {p : Place} (h : p.writes) : p.tested := by
  cases p <;> first | rfl | cases h

theorem inside_of_tested {p : Place} (h : p.tested) : p.inside := by
  cases p <;> first | rfl | cases h

theorem inside_of_submission {p : Place} {n : Nat} (h : p.submission = some n) : p.inside := by
  cases p <;> first | rfl | cases h

end Place

/-- The hardware is through with the submission. -/
def Submission.IsComplete {τ : Type*} (sub : Submission τ) : Prop := sub.fenced ∧ sub.saved.isSome

namespace Engine
variable {τ : Type*} (e : Engine τ)

theorem length_submit (t : τ) (context seqno : Nat) :
    (e.submit t context seqno).submissions.length = e.submissions.length + 1 := List.length_append

/-- An event changes the page that the engine is pointed at, and no more. -/
theorem writeEntry_eq (index : Fin 6) (entry : Entry) : ∃ status,
    e.writeEntry index entry = { e with status := status } ∧
    ∀ page, e.hardwareStatusPage = some page →
      status page = Function.update (e.status page) index entry := by
  rcases e with ⟨_, _, _, _, status, _ | page, _, _⟩
  · exact ⟨status, rfl, nofun⟩
  · refine ⟨_, rfl, fun page' h => ?_⟩
    cases h
    exact Function.update_self ..

/-- `n` is a submission that the thread has made. -/
def Owns (t : τ) (n : Nat) : Prop := ∃ sub, e.submissions[n]? = some sub ∧ sub.thread = t

variable {e}

theorem owns_submit (t : τ) (context seqno : Nat) :
    (e.submit t context seqno).Owns t e.submissions.length :=
  ⟨⟨t, context, seqno, false, none⟩, List.getElem?_concat_length, rfl⟩

private theorem Owns.set {t : τ} {n m : Nat} {sub : Submission τ} {e' : Engine τ}
    (H : e.Owns t n) (sub' : Submission τ) (hm : e.submissions[m]? = some sub)
    (hsub : sub'.thread = sub.thread)
    (he : e'.submissions = e.submissions.set m sub') : e'.Owns t n := by
  obtain ⟨own, hn, ht⟩ := H
  rw [Owns, he]
  rcases eq_or_ne m n with rfl | hne
  · cases hn.symm.trans hm
    exact ⟨sub', List.getElem?_set_self (List.getElem?_eq_some_iff.1 hm).1, hsub.trans ht⟩
  · exact ⟨own, by rw [List.getElem?_set_ne hne, hn], ht⟩

private theorem Owns.congr {t : τ} {n : Nat} {e' : Engine τ} (H : e.Owns t n)
    (he : e'.submissions = e.submissions) : e'.Owns t n := by
  rwa [Owns, he]

private theorem writeEntry_submissions (index : Fin 6) (entry : Entry) :
    (e.writeEntry index entry).submissions = e.submissions := by
  obtain ⟨status, h, -⟩ := e.writeEntry_eq index entry
  rw [h]

/-- The hardware leaves a submission with the thread that has made it. -/
theorem Owns.hardware {t : τ} {n : Nat} (H : e.Owns t n) (id : Nat → BitVec 32) (h : Hardware) :
    (e.hardware id h).Owns t n := by
  cases h with
  | writeFence m =>
    simp only [Engine.hardware]
    split
    · exact H
    · rename_i sub hm
      split
      · exact H
      · exact H.set { sub with fenced := true } hm rfl rfl
  | save m index status =>
    simp only [Engine.hardware]
    split
    · exact H
    · rename_i sub hm
      split
      · exact H.set { sub with saved := e.hardwareStatusPage } hm rfl rfl
      · exact H
  | report m index status =>
    simp only [Engine.hardware]
    split
    · exact H
    · split
      · exact H.congr (writeEntry_submissions ..)
      · exact H

end Engine

section engine
variable {τ : Type*} {e : Engine τ} {p q : Place} {n : Nat} {sub : Submission τ} {t : τ} {c k : Nat}

/-- No event in the status buffer says that the context is saved. -/
def Cleared (e : Engine τ) (context : Nat) : Prop := ∀ i, ¬ (e.status context i).isSaved

/-- The next submission of the context is this one, and its fence is not there yet. -/
structure Numbered (e : Engine τ) (context seqno : Nat) : Prop where
  next : e.fNextSeqno context = seqno + 1
  fence : e.fence context < seqno

/-- What is in the pages of a submission that is waited for is there as its own effect. -/
structure Running (e : Engine τ) (sub : Submission τ) : Prop where
  page : e.hardwareStatusPage = some sub.context
  next : e.fNextSeqno sub.context = sub.seqno + 1
  fence : sub.fenced = false → e.fence sub.context < sub.seqno
  reached : sub.fenced → e.fence sub.context = sub.seqno
  status : sub.saved = none → Cleared e sub.context
  saved : ∀ page, sub.saved = some page → page = sub.context

/-- An event that says that the context is saved is the submission's own. -/
theorem Running.saved_of (H : Running e sub) {index : Fin 6}
    (h : (e.status sub.context index).isSaved) : sub.saved = some sub.context := by
  cases hs : sub.saved with
  | none => exact absurd h (H.status hs index)
  | some page => rw [H.saved page hs]

/-- The last submission is this one. -/
def Made (e : Engine τ) (n context seqno : Nat) (P : Submission τ → Prop) : Prop :=
  n + 1 = e.submissions.length ∧ ∃ sub, e.submissions[n]? = some sub ∧ sub.context = context ∧
    sub.seqno = seqno ∧ P sub

private theorem Made.set {e' : Engine τ} {sub' : Submission τ} {P P' : Submission τ → Prop}
    (H : Made e n c k P) (hn : e.submissions[n]? = some sub)
    (he : e'.submissions = e.submissions.set n sub') (hc : sub'.context = sub.context)
    (hk : sub'.seqno = sub.seqno) (hP : P sub → P' sub') : Made e' n c k P' := by
  obtain ⟨hlast, made, hmade, hcontext, hseqno, h⟩ := H
  cases hn.symm.trans hmade
  have hlt := (List.getElem?_eq_some_iff.1 hn).1
  rw [Made, he, List.length_set, List.getElem?_set_self hlt]
  exact ⟨hlast, sub', rfl, hc.trans hcontext, hk.trans hseqno, hP h⟩

/-- What holds where the thread with the lock is. -/
def At (e : Engine τ) : Place → Prop
  | .clearing context seqno => Numbered e context seqno
  | .pointing context seqno => Numbered e context seqno ∧ Cleared e context
  | .porting context seqno _ =>
    Numbered e context seqno ∧ Cleared e context ∧ e.hardwareStatusPage = some context
  | .executing n context seqno => Made e n context seqno fun sub => Running e sub
  | .saving n context seqno => Made e n context seqno fun sub => Running e sub ∧ sub.fenced
  | .failing n context => ∃ seqno, Made e n context seqno fun _ => True
  | _ => True

/-- What holds while the thread with the lock is at a place. -/
structure Sound (e : Engine τ) (p : Place) : Prop where
  fence : ∀ context, e.fence context < e.fNextSeqno context
  seqno : ∀ (n : Nat) (sub : Submission τ), e.submissions[n]? = some sub →
    sub.seqno < e.fNextSeqno sub.context
  complete : ∀ (n : Nat) (sub : Submission τ), e.submissions[n]? = some sub →
    sub.IsComplete ∨ e.schedulerFaulted ∨ p.submission = some n
  expired : e.expired → e.schedulerFaulted ∨ ∃ n context, p = .failing n context
  faulted : e.schedulerFaulted → p.tested = false
  here : At e p

namespace Sound

theorem start : Sound (.start : Engine τ) .outside where
  fence _ := Nat.zero_lt_one
  seqno _ _ h := nomatch h
  complete _ _ h := nomatch h
  expired h := nomatch h
  faulted h := nomatch h
  here := trivial

/-- Where the thread with the lock goes does not matter to the rest, if it waits for nothing. -/
theorem move (H : Sound e p) (hc : p.submission = none ∨ q.submission = p.submission)
    (hf : q.tested → p.tested ∨ e.schedulerFaulted = false) (hp : ∀ n context,
    p ≠ .failing n context) (h : At e q) : Sound e q where
  fence := H.fence
  seqno := H.seqno
  complete n sub hn := (H.complete n sub hn).imp_right fun he => he.imp_right fun hs => by
    rcases hc with hc | hc
    · rw [hc] at hs
      cases hs
    · rw [hc, hs]
  expired he := .inl ((H.expired he).resolve_right fun ⟨n, context, hn⟩ => hp n context hn)
  faulted hs := by
    cases hq : q.tested with
    | false => rfl
    | true =>
      rcases hf hq with ht | hfree
      · exact ht.symm.trans (H.faulted hs)
      · exact Bool.noConfusion (hs.symm.trans hfree)
  here := h

theorem not_faulted (H : Sound e p) (ht : p.tested) : e.schedulerFaulted = false := by
  cases hf : e.schedulerFaulted with
  | false => rfl
  | true =>
    rw [H.faulted hf] at ht
    cases ht

/-- A thread that has found the engine not faulted, and has not timed out, is in no engine where
something has. -/
theorem not_expired (H : Sound e p) (ht : p.tested) (hp : ∀ n context, p ≠ .failing n context) :
    e.expired = false := by
  cases he : e.expired with
  | false => rfl
  | true =>
    rcases H.expired he with hf | ⟨n, context, hn⟩
    · rw [H.not_faulted ht] at hf
      cases hf
    · exact absurd hn (hp n context)

/-- A submission that is not complete is the one that the thread has made. -/
theorem mine (H : Sound e p) (ht : p.tested) (hn : e.submissions[n]? = some sub)
    (hc : ¬ sub.IsComplete) : p.submission = some n := by
  rcases H.complete n sub hn with hcomplete | hfaulted | hmine
  · exact absurd hcomplete hc
  · rw [H.not_faulted ht] at hfaulted
    cases hfaulted
  · exact hmine

/-- Before a thread has made its submission, those before it are complete. -/
theorem all_complete (H : Sound e p) (ht : p.tested) (hs : p.submission = none)
    (hn : e.submissions[n]? = some sub) : sub.IsComplete := by
  by_contra hc
  rw [H.mine ht hn hc] at hs
  cases hs

theorem number (H : Sound e (.filling c)) :
    Sound (e.number c) (.clearing c (e.fNextSeqno c)) := by
  have hle (context : Nat) : e.fNextSeqno context ≤ (e.number c).fNextSeqno context := by
    rcases eq_or_ne context c with rfl | hne
    · refine Nat.le_trans (Nat.le_succ _) (Nat.le_of_eq ?_)
      exact (Function.update_self context (e.fNextSeqno context + 1) e.fNextSeqno).symm
    · exact Nat.le_of_eq (Function.update_of_ne hne ..).symm
  exact {
    fence := fun context => Nat.lt_of_lt_of_le (H.fence context) (hle context)
    seqno := fun n sub hn => Nat.lt_of_lt_of_le (H.seqno n sub hn) (hle sub.context)
    complete := fun _ _ hn => .inl (H.all_complete rfl rfl hn)
    expired := fun he => .inl ((H.expired he).resolve_right nofun)
    faulted := fun hf => absurd (H.faulted hf) nofun
    here := ⟨Function.update_self .., H.fence c⟩ }

theorem clearStatus (H : Sound e (.clearing c k)) : Sound (e.clearStatus c) (.pointing c k) where
  fence := H.fence
  seqno := H.seqno
  complete _ _ hn := .inl (H.all_complete rfl rfl hn)
  expired he := .inl ((H.expired he).resolve_right nofun)
  faulted hf := absurd (H.faulted hf) nofun
  here := by
    refine ⟨⟨H.here.next, H.here.fence⟩, fun i => ?_⟩
    change ¬ (Function.update e.status c _ c i).isSaved
    rw [Function.update_self]
    decide

theorem point (H : Sound e (.pointing c k)) : Sound (e.point c) (.porting c k 0) where
  fence := H.fence
  seqno := H.seqno
  complete _ _ hn := .inl (H.all_complete rfl rfl hn)
  expired he := .inl ((H.expired he).resolve_right nofun)
  faulted hf := absurd (H.faulted hf) nofun
  here := ⟨⟨H.here.1.next, H.here.1.fence⟩, H.here.2, rfl⟩

theorem submit {count : Nat} (H : Sound e (.porting c k count)) :
    Sound (e.submit t c k) (.executing e.submissions.length c k) := by
  obtain ⟨hnumbered, hcleared, hpage⟩ := H.here
  have hnew {n : Nat} {sub : Submission τ} (hn : (e.submit t c k).submissions[n]? = some sub) :
      e.submissions[n]? = some sub ∨ n = e.submissions.length ∧ sub = ⟨t, c, k, false, none⟩ := by
    change (e.submissions ++ [_])[n]? = some sub at hn
    rw [List.getElem?_append] at hn
    split at hn
    case isTrue => exact .inl hn
    case isFalse hlt =>
      obtain ⟨hi, hsub⟩ := List.getElem?_eq_some_iff.1 hn
      rw [List.length_singleton] at hi
      refine .inr ⟨by omega, ?_⟩
      rw [← hsub, List.getElem_singleton]
  refine ⟨H.fence, fun n sub hn => ?_, fun n sub hn => ?_, ?_, ?_, ?_⟩
  · rcases hnew hn with hn | ⟨-, rfl⟩
    · exact H.seqno n sub hn
    · exact Nat.lt_of_lt_of_le (Nat.lt_succ_self k) (Nat.le_of_eq hnumbered.next.symm)
  · rcases hnew hn with hn | ⟨rfl, -⟩
    · exact .inl (H.all_complete rfl rfl hn)
    · exact .inr (.inr rfl)
  · exact fun he => .inl ((H.expired he).resolve_right nofun)
  · exact fun hf => absurd (H.faulted hf) nofun
  · exact ⟨(e.length_submit t c k).symm, ⟨t, c, k, false, none⟩, List.getElem?_concat_length, rfl,
      rfl, hpage, hnumbered.next, fun _ => hnumbered.fence, nofun, fun _ => hcleared, nofun⟩

/-- The engine is faulted on the way out of a submission that has timed out. -/
theorem fault (H : Sound e (.failing n c)) : Sound (e.fault c) .outside where
  fence := H.fence
  seqno := H.seqno
  complete _ _ _ := .inr (.inl rfl)
  expired _ := .inl rfl
  faulted _ := rfl
  here := trivial

theorem expire {P : Submission τ → Prop} (H : Sound e p) (hp : p.tested)
    (hs : p.submission = some n) (h : Made e n c k P) : Sound e.expire (.failing n c) where
  fence := H.fence
  seqno := H.seqno
  complete m sub' hm := (H.complete m sub' hm).imp_right fun h => h.imp_right hs.symm.trans
  expired _ := .inr ⟨n, c, rfl⟩
  faulted hf := Bool.noConfusion ((H.not_faulted hp).symm.trans hf)
  here := ⟨k, h.1, h.2.imp fun _ hsub => ⟨hsub.1, hsub.2.1, hsub.2.2.1, trivial⟩⟩

/-- The thread returns from a submission that the hardware is through with. -/
theorem finish (H : Sound e (.saving n c k)) {index : Fin 6} (h : (e.status c index).isSaved) :
    Sound e .outside where
  fence := H.fence
  seqno := H.seqno
  complete m sub' hm := by
    rcases H.complete m sub' hm with hc | he | hmine
    · exact .inl hc
    · exact .inr (.inl he)
    · cases hmine
      obtain ⟨-, sub, hn, rfl, -, hr, hf⟩ := H.here
      cases hn.symm.trans hm
      exact .inl ⟨hf, by rw [hr.saved_of h]; rfl⟩
  expired he := .inl ((H.expired he).resolve_right nofun)
  faulted _ := rfl
  here := trivial

/-- What the hardware does about a submission that it is not through with. -/
private theorem set_cases {m : Nat} {sub' sub'' : Submission τ} (hn : n < e.submissions.length)
    (hm : (e.submissions.set n sub')[m]? = some sub'') :
    n = m ∧ sub'' = sub' ∨ n ≠ m ∧ e.submissions[m]? = some sub'' := by
  rcases eq_or_ne n m with rfl | hne
  · rw [List.getElem?_set_self hn] at hm
    exact .inl ⟨rfl, (Option.some.inj hm).symm⟩
  · rw [List.getElem?_set_ne hne] at hm
    exact .inr ⟨hne, hm⟩

theorem writeFence (H : Sound e p) (hn : e.submissions[n]? = some sub) (hf : sub.fenced = false) :
    Sound (e.writeFence n sub) p := by
  have hlt := (List.getElem?_eq_some_iff.1 hn).1
  have hfence (context : Nat) : (e.writeFence n sub).fence context = e.fence context ∨
      context = sub.context ∧ (e.writeFence n sub).fence context = sub.seqno := by
    rcases eq_or_ne context sub.context with rfl | hne
    · exact .inr ⟨rfl, Function.update_self ..⟩
    · exact .inl (Function.update_of_ne hne ..)
  have hmine : p.tested → p.submission = some n := fun ht =>
    H.mine ht hn fun hc => Bool.noConfusion (hf.symm.trans hc.1)
  have hrunning (hr : Running e sub) :
      Running (e.writeFence n sub) { sub with fenced := true } :=
    ⟨hr.page, hr.next, nofun, fun _ => Function.update_self .., hr.status, hr.saved⟩
  refine ⟨fun context => ?_, fun m sub' hm => ?_, fun m sub' hm => ?_, H.expired, H.faulted, ?_⟩
  · rcases hfence context with he | ⟨rfl, he⟩
    · rw [he]
      exact H.fence context
    · rw [he]
      exact H.seqno n sub hn
  · rcases set_cases hlt hm with ⟨-, rfl⟩ | ⟨-, hm⟩
    · exact H.seqno n sub hn
    · exact H.seqno m sub' hm
  · rcases set_cases hlt hm with ⟨rfl, rfl⟩ | ⟨-, hm⟩
    · exact (H.complete _ sub hn).imp_left fun hc => ⟨rfl, hc.2⟩
    · exact H.complete m sub' hm
  · cases p with
    | clearing | pointing | porting =>
      exact absurd (hmine rfl) nofun
    | executing m =>
      cases hmine rfl
      exact H.here.set hn rfl rfl rfl hrunning
    | saving m =>
      cases hmine rfl
      exact H.here.set hn rfl rfl rfl fun hr => ⟨hrunning hr.1, rfl⟩
    | failing m =>
      cases hmine rfl
      exact H.here.imp fun _ h => h.set hn rfl rfl rfl id
    | _ => trivial

/-- The context of the submission that is waited for is saved, in its own page. -/
theorem save (H : Sound e p) (hn : e.submissions[n]? = some sub) (hs : sub.saved = none)
    (index : Fin 6) (entry : Entry) : Sound (e.save n sub index entry) p := by
  obtain ⟨status, hstatus, -⟩ := e.writeEntry_eq index entry
  have hlt := (List.getElem?_eq_some_iff.1 hn).1
  have hnot : ¬ sub.IsComplete := fun hc => by
    rw [Submission.IsComplete, hs] at hc
    exact Bool.noConfusion hc.2
  have hmine : p.tested → p.submission = some n := fun ht => H.mine ht hn hnot
  unfold Engine.save
  rw [hstatus]
  have hrunning (hr : Running e sub) (submissions : List (Submission τ)) :
      Running { e with status := status, submissions := submissions }
        { sub with saved := e.hardwareStatusPage } := by
    refine ⟨hr.page, hr.next, hr.fence, hr.reached, fun h => ?_, fun page h => ?_⟩
    · rw [hr.page] at h
      cases h
    · rw [hr.page] at h
      exact (Option.some.inj h).symm
  refine ⟨H.fence, fun m sub' hm => ?_, fun m sub' hm => ?_, H.expired, H.faulted, ?_⟩
  · rcases set_cases hlt hm with ⟨-, rfl⟩ | ⟨-, hm⟩
    · exact H.seqno n sub hn
    · exact H.seqno m sub' hm
  · rcases set_cases hlt hm with ⟨rfl, rfl⟩ | ⟨-, hm⟩
    · exact .inr ((H.complete _ sub hn).resolve_left hnot)
    · exact H.complete m sub' hm
  · cases p with
    | clearing | pointing | porting =>
      exact absurd (hmine rfl) nofun
    | executing m =>
      cases hmine rfl
      exact H.here.set hn rfl rfl rfl fun hr => hrunning hr _
    | saving m =>
      cases hmine rfl
      exact H.here.set hn rfl rfl rfl fun hr => ⟨hrunning hr.1 _, hr.2⟩
    | failing m =>
      cases hmine rfl
      exact H.here.imp fun _ h => h.set hn rfl rfl rfl id
    | _ => trivial

/-- An event that does not say that the context is saved. -/
theorem report (H : Sound e p) (hn : e.submissions[n]? = some sub) (hs : sub.saved = none)
    (index : Fin 6) {entry : Entry} (hentry : ¬ entry.isSaved) :
    Sound (e.writeEntry index entry) p := by
  obtain ⟨status, hstatus, hpage⟩ := e.writeEntry_eq index entry
  have hmine : p.tested → p.submission = some n := fun ht => H.mine ht hn fun hc => by
      rw [Submission.IsComplete, hs] at hc
      exact Bool.noConfusion hc.2
  have hrunning (hr : Running e sub) : Running { e with status := status } sub := by
    refine ⟨hr.page, hr.next, hr.fence, hr.reached, fun h i => ?_, hr.saved⟩
    change ¬ (status sub.context i).isSaved
    rw [hpage _ hr.page]
    rcases eq_or_ne i index with rfl | hne
    · rw [Function.update_self]
      exact hentry
    · rw [Function.update_of_ne hne]
      exact hr.status h i
  rw [hstatus]
  refine ⟨H.fence, H.seqno, H.complete, H.expired, H.faulted, ?_⟩
  cases p with
  | clearing | pointing | porting =>
    exact absurd (hmine rfl) nofun
  | executing m =>
    cases hmine rfl
    obtain ⟨hlast, sub', hm, hcontext, hseqno, hr⟩ := H.here
    cases hn.symm.trans hm
    exact ⟨hlast, sub, hn, hcontext, hseqno, hrunning hr⟩
  | saving m =>
    cases hmine rfl
    obtain ⟨hlast, sub', hm, hcontext, hseqno, hr, hfenced⟩ := H.here
    cases hn.symm.trans hm
    exact ⟨hlast, sub, hn, hcontext, hseqno, hrunning hr, hfenced⟩
  | failing m => exact H.here
  | _ => trivial

theorem hardware (H : Sound e p) (id : Nat → BitVec 32) (h : Hardware) :
    Sound (e.hardware id h) p := by
  cases h with
  | writeFence n =>
    simp only [Engine.hardware]
    split
    · exact H
    · rename_i sub hn
      split
      · exact H
      · rename_i hf
        exact H.writeFence hn (Bool.eq_false_iff.2 hf)
  | save n index status =>
    simp only [Engine.hardware]
    split
    · exact H
    · rename_i sub hn
      split
      · rename_i hs
        exact H.save hn hs.1 index _
      · exact H
  | report n index status =>
    simp only [Engine.hardware]
    split
    · exact H
    · rename_i sub hn
      split
      · rename_i hs
        exact H.report hn hs.1 index hs.2
      · exact H

end Sound

end engine

variable {τ : Type*}

/-- Where the thread with the lock is. -/
def State.critical (s : State τ) : Place := s.holder.elim .outside s.place

namespace State
variable [DecidableEq τ] {s : State τ} {t : τ} {p : Place}

theorem critical_move (h : s.holder = some t) : (s.move t p).critical = p := by
  rw [critical, show (s.move t p).holder = some t from h]
  exact Function.update_self ..

theorem critical_move_of_ne (h : s.holder ≠ some t) : (s.move t p).critical = s.critical := by
  unfold critical
  change s.holder.elim .outside (Function.update s.place t p) = _
  cases hholder : s.holder with
  | none => rfl
  | some u =>
    refine Function.update_of_ne ?_ ..
    rintro rfl
    exact h hholder

end State

/-- The lock is held by the one thread inside, and the engine is sound for it. -/
structure Inv (s : State τ) : Prop where
  holder : ∀ t, (s.place t).inside ↔ s.holder = some t
  sound : Sound s.engine s.critical
  own : ∀ t n, (s.place t).submission = some n → s.engine.Owns t n

namespace Inv
variable [DecidableEq τ] {s : State τ} {t u : τ} {p : Place}

omit [DecidableEq τ] in
theorem start : Inv (start : State τ) := ⟨fun _ => ⟨nofun, nofun⟩, .start, nofun⟩

omit [DecidableEq τ] in
theorem sound_at (H : Inv s) (ht : (s.place t).inside) : Sound s.engine (s.place t) := by
  have := H.sound
  rwa [State.critical, (H.holder t).1 ht] at this

omit [DecidableEq τ] in
theorem unique (H : Inv s) (ht : (s.place t).inside) (hu : (s.place u).inside) : u = t :=
  Option.some.inj (((H.holder u).1 hu).symm.trans ((H.holder t).1 ht))

/-- The thread with the lock goes on, and keeps it. -/
theorem turn {e : Engine τ} (H : Inv s) (ht : (s.place t).inside) (hp : p.inside) (he : Sound e p)
    (ho : ∀ n, p.submission = some n → e.Owns t n) : Inv ({ s with engine := e }.move t p) := by
  have hholder := (H.holder t).1 ht
  refine ⟨fun u => ?_, ?_, fun u n hu => ?_⟩
  · rcases eq_or_ne u t with rfl | hne
    · change (Function.update s.place u p u).inside ↔ _
      rw [Function.update_self]
      exact ⟨fun _ => hholder, fun _ => hp⟩
    · change (Function.update s.place t p u).inside ↔ _
      rw [Function.update_of_ne hne]
      exact H.holder u
  · rw [State.critical_move (s := { s with engine := e }) hholder]
    exact he
  · change (Function.update s.place t p u).submission = some n at hu
    rcases eq_or_ne u t with rfl | hne
    · rw [Function.update_self] at hu
      exact ho n hu
    · rw [Function.update_of_ne hne] at hu
      exact absurd (H.unique ht (Place.inside_of_submission hu)) hne

/-- The thread with the lock returns. -/
theorem leave {e : Engine τ} (H : Inv s) (ht : (s.place t).inside) (he : Sound e .outside) :
    Inv ({ s with engine := e }.leave t) := by
  refine ⟨fun u => ?_, he, fun u n hu => ?_⟩
  · rcases eq_or_ne u t with rfl | hne
    · change (Function.update s.place u .outside u).inside ↔ _
      rw [Function.update_self]
      exact ⟨nofun, nofun⟩
    · change (Function.update s.place t .outside u).inside ↔ _
      rw [Function.update_of_ne hne]
      exact ⟨fun hu => absurd (H.unique ht hu) hne, nofun⟩
  · change (Function.update s.place t .outside u).submission = some n at hu
    rcases eq_or_ne u t with rfl | hne
    · rw [Function.update_self] at hu
      cases hu
    · rw [Function.update_of_ne hne] at hu
      exact absurd (H.unique ht (Place.inside_of_submission hu)) hne

/-- Threads that wait for no submission may move. -/
private theorem own_move (H : Inv s) (hp : p.submission = none) (u : τ) (n : Nat)
    (hu : ((s.move t p).place u).submission = some n) : s.engine.Owns u n := by
  change (Function.update s.place t p u).submission = some n at hu
  rcases eq_or_ne u t with rfl | hne
  · rw [Function.update_self, hp] at hu
    cases hu
  · rw [Function.update_of_ne hne] at hu
    exact H.own u n hu

/-- A thread without the lock calls `Submit`. -/
theorem call (H : Inv s) (ht : s.place t = .outside) (context : Nat) :
    Inv (s.move t (.entering context)) := by
  have hne {u : τ} (hu : s.holder = some u) : u ≠ t := fun h => by
    have := (H.holder u).2 hu
    rw [h, ht] at this
    cases this
  refine ⟨fun u => ?_, ?_, H.own_move rfl⟩
  · rcases eq_or_ne u t with rfl | hut
    · change (Function.update s.place u _ u).inside ↔ _
      rw [Function.update_self]
      exact ⟨nofun, fun h => absurd rfl (hne h)⟩
    · change (Function.update s.place t _ u).inside ↔ _
      rw [Function.update_of_ne hut]
      exact H.holder u
  · rw [State.critical_move_of_ne fun hu => hne hu rfl]
    exact H.sound

/-- A thread takes the lock. -/
theorem enter {context : Nat} (H : Inv s) (h : s.holder = none) :
    Inv { s.move t (.entered context) with holder := some t } := by
  have hsound := H.sound
  unfold State.critical at hsound
  rw [h] at hsound
  refine ⟨fun u => ?_, ?_, H.own_move rfl⟩
  · rcases eq_or_ne u t with rfl | hne
    · change (Function.update s.place u _ u).inside ↔ _
      rw [Function.update_self]
      exact ⟨fun _ => rfl, fun _ => rfl⟩
    · change (Function.update s.place t _ u).inside ↔ some t = some u
      rw [Function.update_of_ne hne, H.holder u, h]
      exact ⟨nofun, fun h => absurd (Option.some.inj h).symm hne⟩
  · change Sound s.engine (Function.update s.place t _ t)
    rw [Function.update_self]
    exact hsound.move (.inl rfl) nofun nofun trivial

omit [DecidableEq τ] in
theorem hardware (H : Inv s) (id : Nat → BitVec 32) (h : Hardware) :
    Inv { s with engine := s.engine.hardware id h } :=
  ⟨H.holder, H.sound.hardware id h, fun t n hn => (H.own t n hn).hardware id h⟩

/-- One step of a thread, from each place where it may be. -/
theorem run (H : Inv s) (id : Nat → BitVec 32) (t : τ) (input : Input) :
    Inv (s.run id t input (s.place t)).2 := by
  have here {p : Place} (hplace : s.place t = p) (hp : p.inside) : Sound s.engine p :=
    hplace ▸ H.sound_at (hplace ▸ hp)
  have turn {p q : Place} {e : Engine τ} (hplace : s.place t = p) (hp : p.inside) (hq : q.inside)
      (he : Sound e q) (ho : ∀ n, q.submission = some n → e.Owns t n) :
      Inv ({ s with engine := e }.move t q) := H.turn (hplace ▸ hp) hq he ho
  have leave {p : Place} {e : Engine τ} (hplace : s.place t = p) (hp : p.inside)
      (he : Sound e .outside) : Inv ({ s with engine := e }.leave t) := H.leave (hplace ▸ hp) he
  cases hplace : s.place t with
  | outside => exact H.call hplace input.context
  | entering context =>
    simp only [State.run]
    split
    · rename_i hfree
      exact H.enter hfree
    · exact H
  | entered context =>
    have hsound := here hplace rfl
    have hleave := leave hplace rfl (hsound.move (.inl rfl) nofun nofun trivial)
    simp only [State.run]
    split
    · exact hleave
    · rename_i hfaulted
      have hfree : s.engine.schedulerFaulted = false := by
        cases hf : s.engine.schedulerFaulted with
        | false => rfl
        | true => exact absurd (by rw [hf]; rfl) hfaulted
      have hgo {q : Place} (hq : q.inside) (hs : q.submission = none) (hat : At s.engine q) :=
        turn hplace rfl hq (hsound.move (.inl rfl) (fun _ => .inr hfree) nofun hat)
          fun n hn => nomatch hs.symm.trans hn
      split
      · exact hleave
      · split
        · exact hgo rfl rfl trivial
        · exact hgo rfl rfl trivial
  | idling context =>
    have hsound := here hplace rfl
    simp only [State.run]
    split
    · exact turn hplace rfl rfl (hsound.move (.inl rfl) (fun _ => .inl rfl) nofun trivial) nofun
    · split
      · exact leave hplace rfl (hsound.move (.inl rfl) nofun nofun trivial)
      · exact H
  | waking context =>
    have hsound := here hplace rfl
    simp only [State.run]
    split
    · exact leave hplace rfl (hsound.move (.inl rfl) nofun nofun trivial)
    · exact turn hplace rfl rfl (hsound.move (.inl rfl) (fun _ => .inl rfl) nofun trivial) nofun
  | filling context => exact turn hplace rfl rfl (here hplace rfl).number nofun
  | clearing context seqno => exact turn hplace rfl rfl (here hplace rfl).clearStatus nofun
  | pointing context seqno => exact turn hplace rfl rfl (here hplace rfl).point nofun
  | porting context seqno count =>
    have hsound := here hplace rfl
    simp only [State.run, State.port]
    split
    · exact turn hplace rfl rfl (hsound.move (.inl rfl) (fun _ => .inl rfl) nofun hsound.here)
        nofun
    · refine turn hplace rfl rfl hsound.submit fun n hn => ?_
      cases hn
      exact Engine.owns_submit ..
  | executing n context seqno =>
    have hsound := here hplace rfl
    obtain ⟨hlast, sub, hn, rfl, rfl, hr⟩ := hsound.here
    have hown (m : Nat) (hm : some n = some m) : s.engine.Owns t m := H.own t m (hplace ▸ hm)
    simp only [State.run]
    split
    · rename_i hfence
      refine turn hplace rfl rfl (hsound.move (.inr rfl) (fun _ => .inl rfl) nofun
        ⟨hlast, sub, hn, rfl, rfl, hr, ?_⟩) hown
      cases hf : sub.fenced with
      | false => exact absurd (hr.fence hf) (Nat.not_lt.2 hfence)
      | true => rfl
    · split
      · exact turn hplace rfl rfl (hsound.expire rfl rfl hsound.here) hown
      · exact H
  | saving n context seqno =>
    have hsound := here hplace rfl
    have hown (m : Nat) (hm : some n = some m) : s.engine.Owns t m := H.own t m (hplace ▸ hm)
    simp only [State.run]
    split
    · rename_i hsaved
      exact leave hplace rfl (hsound.finish hsaved.1)
    · split
      · exact turn hplace rfl rfl (hsound.expire rfl rfl hsound.here) hown
      · exact H
  | failing n context => exact leave hplace rfl (here hplace rfl).fault

theorem step (H : Inv s) (id : Nat → BitVec 32) (event : Event τ) :
    Inv (Scheduler.step id event s) := by
  cases event with
  | software t input => exact H.run id t input
  | hardware h => exact H.hardware id h

omit [DecidableEq τ] in
/-- A thread between its first write to the port and its return is alone with the port. -/
theorem alone (H : Inv s) (ht : (s.place t).submitted) (hu : (s.place u).writes) : u = t :=
  H.unique (Place.inside_of_submitted ht) (Place.inside_of_tested (Place.tested_of_writes hu))

/-- `Submit` succeeds for what it has submitted itself, when the hardware is through with it. -/
theorem returned (H : Inv s) (id : Nat → BitVec 32) (input : Input) {fence : Nat}
    (h : (s.next id (.software t input)).1 = some (.ok fence)) :
    ∃ n sub, s.engine.submissions[n]? = some sub ∧ n + 1 = s.engine.submissions.length ∧
      sub.thread = t ∧ sub.seqno = fence ∧ sub.fenced ∧ sub.saved = some sub.context := by
  have here {p : Place} (hplace : s.place t = p) (hp : p.inside) : Sound s.engine p :=
    hplace ▸ H.sound_at (hplace ▸ hp)
  simp only [State.next] at h
  cases hplace : s.place t with
  | saving n context seqno =>
    obtain ⟨hlast, sub, hn, rfl, rfl, hr, hfenced⟩ := (here hplace rfl).here
    obtain ⟨own, hown, hthread⟩ := H.own t n (hplace ▸ rfl)
    cases hn.symm.trans hown
    simp only [hplace, State.run] at h
    split at h
    · rename_i hsaved
      cases h
      exact ⟨n, sub, hn, hlast, hthread, rfl, hfenced, hr.saved_of hsaved.1⟩
    · split at h <;> cases h
  | outside | filling | clearing | pointing | porting | failing =>
    rw [hplace] at h
    cases h
  | entering | waking =>
    rw [hplace] at h
    simp only [State.run] at h
    split at h <;> cases h
  | entered | idling =>
    rw [hplace] at h
    simp only [State.run] at h
    repeat' split at h
    all_goals cases h
  | executing n context seqno =>
    simp only [hplace, State.run] at h
    split at h
    · cases h
    · split at h <;> cases h

omit [DecidableEq τ] in
/-- No thread is at the port of an engine where a submission has timed out. -/
theorem stopped (H : Inv s) (h : s.engine.expired) (t : τ) : ¬ (s.place t).writes := fun ht => by
  have htested := Place.tested_of_writes ht
  have hlive :=
      (H.sound_at (Place.inside_of_tested htested)).not_expired htested fun n context hn => by
    rw [hn] at ht
    cases ht
  rw [h] at hlive
  cases hlive

end Inv

section run
variable [DecidableEq τ]

theorem inv_run (id : Nat → BitVec 32) (events : List (Event τ)) :
    Inv (Run.exec (step id) start events) :=
  Run.invariant_of_step (fun _ event H => H.step id event) events .start

omit [DecidableEq τ] in
theorem Engine.hardware_expired {e : Engine τ} (id : Nat → BitVec 32) (h : Hardware) :
    (e.hardware id h).expired = e.expired := by
  have hentry (index : Fin 6) (entry : Entry) : (e.writeEntry index entry).expired = e.expired := by
    obtain ⟨status, hstatus, -⟩ := e.writeEntry_eq index entry
    rw [hstatus]
  cases h with
  | writeFence n =>
    simp only [Engine.hardware]
    split
    · rfl
    · split <;> rfl
  | save n index status =>
    simp only [Engine.hardware]
    split
    · rfl
    · split
      · exact hentry ..
      · rfl
  | report n index status =>
    simp only [Engine.hardware]
    split
    · rfl
    · split
      · exact hentry ..
      · rfl

/-- A timeout is never forgotten. -/
theorem step_expired {s : State τ} (id : Nat → BitVec 32) (event : Event τ)
    (h : s.engine.expired) : (step id event s).engine.expired := by
  cases event with
  | hardware hw => exact (Engine.hardware_expired id hw).trans h
  | software t input =>
    simp only [step, State.next]
    cases s.place t with
    | outside | filling | clearing | pointing | failing => exact h
    | entering | waking | entered | idling | porting =>
      simp only [State.run, State.port]
      repeat' split
      all_goals exact h
    | executing | saving =>
      simp only [State.run]
      repeat' split
      all_goals first | exact h | rfl

/-- In every run: while a thread is between its first write to the port and its return, the port
is its own; a thread that succeeds has made the last submission, of which the hardware has written
the fence and reported the context in the context's own status page; and once a submission has
timed out no thread comes to the port again. -/
theorem run_serialised (id : Nat → BitVec 32) (events more : List (Event τ)) :
    let s := Run.exec (step id) start events
    let s' := Run.exec (step id) s more
    (∀ t u, (s.place t).submitted → (s.place u).writes → u = t) ∧
    (∀ t input fence, (s.next id (.software t input)).1 = some (.ok fence) →
      ∃ n sub, s.engine.submissions[n]? = some sub ∧ n + 1 = s.engine.submissions.length ∧
        sub.thread = t ∧ sub.seqno = fence ∧ sub.fenced ∧ sub.saved = some sub.context) ∧
    (s.engine.expired → ∀ t, ¬ (s'.place t).writes) := by
  have H := inv_run id events
  refine ⟨fun t u => H.alone, fun t input fence => H.returned id input, fun hexpired => ?_⟩
  have H' := inv_run id (events ++ more)
  rw [Run.exec_append] at H'
  have hstep (s : State τ) (event : Event τ) (h : s.engine.expired) :
      (step id event s).engine.expired := step_expired id event h
  exact H'.stopped (Run.invariant_of_step hstep more hexpired)

example :
    let call := List.replicate 13 (Event.software () ⟨0, false, 0⟩)
    let s := Run.exec (step fun _ => 7) start
      (call ++ [.hardware (.writeFence 0), .hardware (.save 0 0 24), .software () ⟨0, false, 0⟩])
    (s.next (fun _ => 7) (.software () ⟨0, false, 0⟩)).1 = some (.ok 1) := by
  decide +kernel

end run

end Scheduler

end IntelGfx
