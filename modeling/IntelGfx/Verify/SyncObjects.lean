import IntelGfx.Mesa.SyncObjects

/-!
# The sync object table holds the created objects

Every call but an execbuffer changes the map as the ledger says. An execbuffer sets the flags of
its SIGNAL fences without looking them up again, which is in order as long as they are still
there: those from the fence it waited on to the end of the array it has just looked up, and those
before it were looked up when the call began.
-/

namespace IntelGfx

namespace SyncObjects
variable {τ : Type*} [DecidableEq τ] {s : State τ} {fd : Int} {h k : Nat} {fences : List Fence}

/-- The keys of the map are the handles that are created and not destroyed, each owned by the
descriptor that created it. -/
def Exact (s : System τ) : Prop := ∀ h, (s.state.syncs h).map (·.fd) = s.ledger h

/-- The fence arrays of the execbuffer that an event starts or resumes. -/
def execFences (s : State τ) : Event τ → List Fence
  | .execbuffer _ _ _ fences _ _ => fences
  | .wake t _ _ =>
    match s.place t with
    | .executing _ fences _ => fences
    | _ => []
  | _ => []

/-- An execbuffer, and a wait, change the flags of SIGNAL fences of the execbuffer at most. -/
def Signals (s : State τ) (event : Event τ) : Prop :=
  match event with
  | .wait .. | .execbuffer .. | .wake .. => ∀ h, (s.step event).2.syncs h = s.syncs h ∨
      (∃ fence ∈ execFences s event, fence.signal ∧ fence.handle = h) ∧
        ((s.step event).2.syncs h).map (·.fd) = (s.syncs h).map (·.fd)
  | _ => True

/-- When an execbuffer that has waited for a fence goes on to submit, the SIGNAL fences before
that fence have not been destroyed. -/
def Intact (s : System τ) : Event τ → Prop
  | .wake t _ buffers =>
    match s.state.place t with
    | .executing _ fences index => buffers = .ok () →
        ∀ fence ∈ fences.take index, fence.signal → (s.state.syncs fence.handle).isSome
    | _ => True
  | _ => True

theorem Checked.afterWait_passed {result : Result} {rest : Checked}
    (hp : Checked.afterWait result i rest = .passed) :
    result ≠ .fail .EINVAL ∧ rest = .passed := by
  cases result with
  | fail error => cases hp
  | blocked => cases hp
  | ok | handle | first => exact ⟨nofun, hp⟩

namespace State

omit [DecidableEq τ] in
theorem find_isSome (hf : s.find fd h = some sync) : (s.syncs h).isSome := by
  rw [find, Option.filter_eq_some_iff] at hf
  rw [hf.1]
  rfl

omit [DecidableEq τ] in
theorem setSignaled_of_ne (b : Bool) (hk : k ≠ h) : (setSignaled b s h).syncs k = s.syncs k :=
  Function.update_of_ne hk ..

omit [DecidableEq τ] in
/-- Where the handle is in the map, only the flag changes. -/
theorem setSignaled_fd (b : Bool) (hh : (s.syncs h).isSome) (k : Nat) :
    ((setSignaled b s h).syncs k).map (·.fd) = (s.syncs k).map (·.fd) := by
  rcases eq_or_ne k h with rfl | hk
  · obtain ⟨sync, hs⟩ := Option.isSome_iff_exists.1 hh
    simp only [setSignaled, Function.update_self, hs]
    rfl
  · rw [setSignaled_of_ne b hk]

omit [DecidableEq τ] in
theorem foldl_setSignaled_of_not_mem (b : Bool) {handles : List Nat} (hk : k ∉ handles) :
    (handles.foldl (setSignaled b) s).syncs k = s.syncs k := by
  induction handles generalizing s with
  | nil => rfl
  | cons h handles ih =>
    obtain ⟨hne, hrest⟩ := not_or.1 (mt List.mem_cons.2 hk)
    rw [List.foldl_cons, ih hrest, setSignaled_of_ne b hne]

omit [DecidableEq τ] in
theorem foldl_setSignaled_fd (b : Bool) {handles : List Nat}
    (hh : ∀ h ∈ handles, (s.syncs h).isSome) (k : Nat) :
    ((handles.foldl (setSignaled b) s).syncs k).map (·.fd) = (s.syncs k).map (·.fd) := by
  induction handles generalizing s with
  | nil => rfl
  | cons h handles ih =>
    obtain ⟨hfirst, hrest⟩ := List.forall_mem_cons.1 hh
    have hfd := setSignaled_fd b hfirst
    rw [List.foldl_cons, ih fun h' hh' => ?_, hfd]
    have := hrest h' hh'
    rw [← Option.isSome_map, hfd, Option.isSome_map]
    exact this

omit [DecidableEq τ] in
theorem scan_isSome {expired : Bool} (hf : s.scan fd waitAll expired [h] i b ≠ .fail .EINVAL) :
    (s.syncs h).isSome := by
  rw [scan] at hf
  split at hf
  case h_1 => exact absurd rfl hf
  case h_2 sync hfind => exact find_isSome hfind

omit [DecidableEq τ] in
/-- A fence array that passes has been looked up fence by fence. -/
theorem checkFences_isSome {expired : Bool} (hp : s.checkFences fd expired fences i = .passed) :
    ∀ fence ∈ fences, (s.syncs fence.handle).isSome := by
  induction fences generalizing i with
  | nil => simp
  | cons fence fences ih =>
    rw [checkFences] at hp
    split at hp
    case h_1 => cases hp
    case h_2 sync hfind =>
      refine List.forall_mem_cons.2 ⟨find_isSome hfind, ih (i := i + 1) ?_⟩
      dsimp only at hp
      split at hp
      case isFalse => exact hp
      case isTrue => exact (Checked.afterWait_passed hp).2

/-- A wait changes nothing, an execbuffer that submits changes flags of its SIGNAL fences. -/
theorem afterFences_syncs {t : τ} {buffers : Except Errno Unit} {checked : Checked}
    (hh : checked = .passed → buffers = .ok () → ∀ fence ∈ fences, fence.signal →
      (s.syncs fence.handle).isSome) (h : Nat) :
    let s' := (s.afterFences t fd fences buffers checked).2
    (s'.syncs h).map (·.fd) = (s.syncs h).map (·.fd) ∧
      (s'.syncs h = s.syncs h ∨ ∃ fence ∈ fences, fence.signal ∧ fence.handle = h) := by
  cases checked with
  | failed error => exact ⟨rfl, .inl rfl⟩
  | blockedAt index => exact ⟨rfl, .inl rfl⟩
  | passed =>
    cases buffers with
    | error error => exact ⟨rfl, .inl rfl⟩
    | ok _ =>
      have hmem {k : Nat} (hk : k ∈ (fences.filter (·.signal)).map (·.handle)) :
          ∃ fence ∈ fences, fence.signal ∧ fence.handle = k := by
        obtain ⟨fence, hf, rfl⟩ := List.mem_map.1 hk
        exact ⟨fence, (List.mem_filter.1 hf).1, (List.mem_filter.1 hf).2, rfl⟩
      refine ⟨foldl_setSignaled_fd true (fun k hk => ?_) h, ?_⟩
      · obtain ⟨fence, hf, hsignal, rfl⟩ := hmem hk
        exact hh rfl rfl fence hf hsignal
      · by_cases hk : h ∈ (fences.filter (·.signal)).map (·.handle)
        · exact .inr (hmem hk)
        · exact .inl (foldl_setSignaled_of_not_mem true hk)

end State

omit [DecidableEq τ] in
/-- What an execbuffer that goes on after a wait has looked up again. -/
theorem wake_isSome {index : Nat} {expired : Bool} (hp : Checked.afterWait
      (s.waitSyncs fd ((fences[index]?).map (·.handle)).toList false expired) index
      (s.checkFences fd expired (fences.drop (index + 1)) (index + 1)) = .passed) :
    ∀ fence ∈ fences.drop index, (s.syncs fence.handle).isSome := by
  obtain ⟨hwait, hrest⟩ := Checked.afterWait_passed hp
  intro fence hf
  cases hget : fences[index]? with
  | none =>
    rw [hget] at hwait
    exact absurd rfl hwait
  | some first =>
    obtain ⟨hlt, hfirst⟩ := List.getElem?_eq_some_iff.1 hget
    rw [List.drop_eq_getElem_cons hlt, hfirst] at hf
    rcases List.mem_cons.1 hf with rfl | hf
    · rw [hget] at hwait
      exact State.scan_isSome hwait
    · exact State.checkFences_isSome hrest fence hf

/-- An event that keeps the owner of every handle, and that the ledger takes no notice of. -/
theorem Exact.of_fd {s : System τ} (H : Exact s) {event : Event τ}
    (hledger : ∀ result, s.ledger.after event result = s.ledger)
    (hfd : ∀ h, ((s.state.step event).2.syncs h).map (·.fd) = (s.state.syncs h).map (·.fd)) :
    Exact (s.step event) := fun h => by
  change ((s.state.step event).2.syncs h).map (·.fd) = s.ledger.after event _ h
  rw [hfd, H h, hledger]

theorem create_exact {s : System τ} (H : Exact s) (fd : Int) (signaled : Bool) :
    Exact (s.step (.create fd signaled)) := by
  simp only [System.step, State.step, State.create]
  split
  case isTrue => exact H
  case isFalse =>
    intro k
    change (Function.update s.state.syncs s.state.nextSync (some ⟨fd, signaled⟩) k).map (·.fd) =
      Function.update s.ledger s.state.nextSync (some fd) k
    rcases eq_or_ne k s.state.nextSync with rfl | hk
    · rw [Function.update_self, Function.update_self]
      rfl
    · rw [Function.update_of_ne hk, Function.update_of_ne hk]
      exact H k

theorem destroy_exact {s : System τ} (H : Exact s) (fd : Int) (handle : Nat) :
    Exact (s.step (.destroy fd handle)) := by
  simp only [System.step, State.step, State.destroy]
  split
  case h_1 => exact H
  case h_2 =>
    intro k
    change (Function.update s.state.syncs handle none k).map (·.fd) =
      Function.update s.ledger handle none k
    rcases eq_or_ne k handle with rfl | hk
    · rw [Function.update_self, Function.update_self]
      rfl
    · rw [Function.update_of_ne hk, Function.update_of_ne hk]
      exact H k

omit [DecidableEq τ] in
theorem signal_fd (s : State τ) (fd : Int) (handles : List Nat) (signaled : Bool) (h : Nat) :
    ((s.signal fd handles signaled).2.syncs h).map (·.fd) = (s.syncs h).map (·.fd) := by
  rw [State.signal]
  split
  case isTrue => rfl
  case isFalse =>
    split
    case isTrue => rfl
    case isFalse hall =>
      refine State.foldl_setSignaled_fd signaled (fun k hk => ?_) h
      by_contra hnone
      refine hall (List.any_eq_true.2 ⟨k, hk, ?_⟩)
      rw [Option.isNone_iff_eq_none, State.find, Option.not_isSome_iff_eq_none.1 hnone]
      rfl

/-- What a step of an execbuffer does to the map. -/
theorem exec_spec {s : System τ} {event : Event τ} {t : τ} {buffers : Except Errno Unit}
    {checked : Checked} (H : Exact s)
    (hledger : ∀ result, s.ledger.after event result = s.ledger)
    (hstep : s.state.step event = s.state.afterFences t fd fences buffers checked)
    (hfences : execFences s.state event = fences)
    (hh : checked = .passed → buffers = .ok () → ∀ fence ∈ fences, fence.signal →
      (s.state.syncs fence.handle).isSome) :
    Exact (s.step event) ∧ ∀ h, (s.state.step event).2.syncs h = s.state.syncs h ∨
      (∃ fence ∈ execFences s.state event, fence.signal ∧ fence.handle = h) ∧
        ((s.state.step event).2.syncs h).map (·.fd) = (s.state.syncs h).map (·.fd) := by
  have hspec (h : Nat) : (((s.state.afterFences t fd fences buffers checked).2.syncs h).map (·.fd) =
      (s.state.syncs h).map (·.fd) ∧ _) := State.afterFences_syncs hh h
  rw [hstep, hfences]
  refine ⟨H.of_fd hledger fun h => ?_, fun h => (hspec h).2.imp_right fun hs => ⟨hs, (hspec h).1⟩⟩
  rw [hstep]
  exact (hspec h).1

theorem step_spec (s : System τ) (event : Event τ) (H : Exact s) (h : Intact s event) :
    Exact (s.step event) ∧ Signals s.state event := by
  cases event with
  | create fd signaled => exact ⟨create_exact H fd signaled, trivial⟩
  | destroy fd handle => exact ⟨destroy_exact H fd handle, trivial⟩
  | signal fd handles signaled =>
    exact ⟨H.of_fd (fun _ => rfl) (signal_fd s.state fd handles signaled), trivial⟩
  | wait t fd handles waitAll expired =>
    have hsyncs : (s.state.step (.wait t fd handles waitAll expired)).2.syncs = s.state.syncs := by
      rw [State.step]
      split <;> rfl
    exact ⟨H.of_fd (fun _ => rfl) fun h => by rw [hsyncs], fun h => .inl (by rw [hsyncs])⟩
  | execbuffer t fd valid fences expired buffers =>
    have hsame {r : Result}
        (hs : s.state.step (.execbuffer t fd valid fences expired buffers) = (r, s.state)) :
        Exact (s.step (.execbuffer t fd valid fences expired buffers)) ∧
          Signals s.state (.execbuffer t fd valid fences expired buffers) :=
      ⟨H.of_fd (fun _ => rfl) fun h => by rw [hs], fun h => .inl (by rw [hs])⟩
    by_cases hbusy : s.state.place t ≠ .outside
    case pos => exact hsame (if_pos hbusy)
    case neg =>
      cases valid with
      | false => exact hsame (by rw [State.step, if_neg hbusy]; rfl)
      | true =>
        have hs : s.state.step (.execbuffer t fd true fences expired buffers) =
            s.state.afterFences t fd fences buffers (s.state.checkFences fd expired fences 0) := by
          rw [State.step, if_neg hbusy]
          rfl
        exact exec_spec H (fun _ => rfl) hs rfl fun hp _ fence hf _ =>
          State.checkFences_isSome hp fence hf
  | wake t expired buffers =>
    cases hplace : s.state.place t with
    | outside =>
      have hs : s.state.step (.wake t expired buffers) = (.ok, s.state) := by
        rw [State.step, State.wake, hplace]
      exact ⟨H.of_fd (fun _ => rfl) fun h => by rw [hs], fun h => .inl (by rw [hs])⟩
    | waiting fd handles waitAll =>
      have hs : (s.state.step (.wake t expired buffers)).2.syncs = s.state.syncs := by
        rw [State.step, State.wake, hplace]
        rfl
      exact ⟨H.of_fd (fun _ => rfl) fun h => by rw [hs], fun h => .inl (by rw [hs])⟩
    | executing fd fences index =>
      rw [Intact, hplace] at h
      refine exec_spec H (fun _ => rfl) (by rw [State.step, State.wake, hplace])
        (by rw [execFences, hplace]) fun hp hb fence hf hsignal => ?_
      rw [← List.take_append_drop index fences] at hf
      rcases List.mem_append.1 hf with hf | hf
      · exact h hb fence hf hsignal
      · exact wake_isSome hp fence hf

/-- In every run in which the fences of a blocked execbuffer stay `Intact`, the map is exact, and
an execbuffer changes the flags of its own SIGNAL fences only. -/
theorem run_syncs {τ : Type*} [DecidableEq τ] (events : List (Event τ))
    (h : Run.Along System.step Intact System.start events) :
    Exact (Run.exec System.step System.start events) ∧
    ∀ event, Intact (Run.exec System.step System.start events) event →
      Signals (Run.exec System.step System.start events).state event := by
  have hstart : Exact (System.start : System τ) := fun _ => rfl
  have H := Run.invariant (I := Exact) (fun s e H h => (step_spec s e H h).1) h hstart
  exact ⟨H, fun event he => (step_spec _ event H he).2⟩

/-- An execbuffer waits for the second fence, is woken when it is signaled, and signals the first,
which is destroyed afterwards. -/
theorem run_syncs_wait :
    Exact (Run.exec System.step (System.start : System Bool) [.create 3 false, .create 3 false,
      .execbuffer false 3 true [⟨1, false, true⟩, ⟨2, true, false⟩] false (.ok ()),
      .signal 3 [2] true, .wake false false (.ok ()), .destroy 3 1]) := by
  refine And.left (run_syncs _ ⟨trivial, trivial, trivial, trivial, fun _ fence hf _ => ?_,
    trivial, trivial⟩)
  cases List.mem_singleton.1 hf
  decide

/-- Destroyed while the execbuffer waits, the first fence comes back, owned by nobody. -/
theorem not_exact_of_destroy :
    ¬ Exact (Run.exec System.step (System.start : System Bool) [.create 3 false, .create 3 false,
      .execbuffer false 3 true [⟨1, false, true⟩, ⟨2, true, false⟩] false (.ok ()),
      .destroy 3 1, .signal 3 [2] true, .wake false false (.ok ())]) := fun h =>
  absurd (h 1) (by decide)

end SyncObjects

end IntelGfx
