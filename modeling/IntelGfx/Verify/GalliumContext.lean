import IntelGfx.Mesa.GalliumContext

/-!
# Lifetime of the shared GL display

While no object whose `CreateDisplay` failed is deleted, the count is the number of objects that
use the display, and the one screen and the one display live exactly as long as there is such an
object. The destructor takes no notice of the failure and lowers the count once more.
-/

namespace IntelGfx

namespace Gallium
variable {env : Env} {s : State} {n : Nat} {o : Option Context} {context : Context}

/-- What the count, the display and the contexts owe to each other. -/
structure Balanced (s : State) : Prop where
  count : s.fDisplayRefCount = users s.objects
  display : s.fDisplay.isSome ↔ 0 < users s.objects
  screens : s.screens.length ≤ 1
  contexts : ∀ context, some context ∈ s.objects → ∀ d ∈ context.fContext, d ∈ s.displays

/-- Neither a display nor a screen goes while an object still uses it. -/
def Keeps (s s' : State) : Prop :=
  0 < users s'.objects → (∀ d ∈ s.displays, d ∈ s'.displays) ∧ ∀ d ∈ s.screens, d ∈ s'.screens

/-- The call deletes no object whose `CreateDisplay` failed and gives none of them a context of
its neighbours' display, and it is not the one that overflows the `int32`. -/
def Sound (s : State) : Call → Prop
  | .construct _ _ => users s.objects + 1 < 2 ^ 31
  | .destruct n => (s.object n).all (·.created)
  | .createContext n _ => (s.object n).all (·.created) ∨ s.fDisplay = none

instance (call : Call) : Decidable (Sound s call) :=
  match call with
  | .construct _ _ => inferInstanceAs (Decidable (_ < _))
  | .destruct _ => inferInstanceAs (Decidable (_ = _))
  | .createContext _ _ => inferInstanceAs (Decidable (_ ∨ _))

/-- The one screen and the one display exist while there is a user, and every context was made by
a user with them. -/
structure Inv (s : State) : Prop where
  count : s.fDisplayRefCount = users s.objects
  limit : users s.objects < 2 ^ 31
  display : s.fDisplay.isSome ↔ 0 < users s.objects
  screens : s.screens = s.fDisplay.toList.map (·.screen)
  displays : s.displays = s.fDisplay.toList.map (·.id)
  contexts : ∀ context, some context ∈ s.objects → ∀ d ∈ context.fContext,
    context.created ∧ d ∈ s.displays

theorem atomicAdd_eq {v d : Int} (h : -2 ^ 31 ≤ v + d) (h' : v + d < 2 ^ 31) :
    atomicAdd v d = v + d := by
  refine Int.bmod_eq_of_le ?_ ?_ <;> omega

namespace State

theorem object_eq_some : s.object n = some context ↔ s.objects[n]? = some (some context) := by
  rw [object, Option.join_eq_some_iff]

theorem mem_of_object (h : s.object n = some context) : some context ∈ s.objects :=
  List.mem_of_getElem? (object_eq_some.1 h)

end State

theorem users_pos (h : some context ∈ objects) (hc : context.created) : 0 < users objects :=
  List.countP_pos_iff.2 ⟨_, h, hc⟩

theorem users_append (created : Bool) : users (objects ++ [some ⟨created, []⟩]) =
    users objects + if created then 1 else 0 := by
  rw [users, List.countP_append, List.countP_singleton]
  rfl

/-- The users after the object of number `n` has become `o`. -/
theorem users_set (h : s.object n = some context) :
    users (s.objects.set n o) + (if context.created then 1 else 0) =
      users s.objects + if o.any (·.created) then 1 else 0 := by
  obtain ⟨hn, hx⟩ := List.getElem?_eq_some_iff.1 (State.object_eq_some.1 h)
  have hle : (if context.created then 1 else 0) ≤ users s.objects := by
    split
    case isFalse => exact Nat.zero_le _
    case isTrue hc => exact users_pos (State.mem_of_object h) hc
  rw [users] at hle ⊢
  rw [users, List.countP_set hn, hx, Option.any_some]
  omega

namespace Inv

theorem start : Inv start where
  count := rfl
  limit := by decide
  display := by decide
  screens := rfl
  displays := rfl
  contexts := by simp [Gallium.start]

theorem balanced (H : Inv s) : Balanced s where
  count := H.count
  display := H.display
  screens := by
    rw [H.screens, List.length_map]
    exact Option.length_toList_le
  contexts c hc d hd := (H.contexts c hc d hd).2

/-- With no user there is no display, and no object has a context. -/
theorem idle (H : Inv s) (h : users s.objects = 0) : s.fDisplay = none ∧
    ∀ context, some context ∈ s.objects → context.fContext = [] := by
  have hnone : s.fDisplay = none := by
    rw [← Option.not_isSome_iff_eq_none, H.display, h]
    exact Nat.lt_irrefl 0
  refine ⟨hnone, fun c hc => List.eq_nil_iff_forall_not_mem.2 fun d hd => ?_⟩
  have hmem := (H.contexts c hc d hd).2
  rw [H.displays, hnone] at hmem
  cases hmem

end Inv

theorem Keeps.of_eq {s' : State} (hd : s'.displays = s.displays) (hs : s'.screens = s.screens) :
    Keeps s s' := fun _ => by simp [hd, hs]

/-- A new object has no context yet. -/
theorem contexts_append (created : Bool) {displays : List Nat}
    (H : ∀ context, some context ∈ s.objects → ∀ d ∈ context.fContext,
      context.created ∧ d ∈ displays) :
    ∀ context, some context ∈ s.objects ++ [some (⟨created, []⟩ : Context)] →
      ∀ d ∈ context.fContext, context.created ∧ d ∈ displays := by
  intro c hc d hd
  rcases List.mem_append.1 hc with hc | hc
  · exact H c hc d hd
  · cases List.mem_singleton.1 hc
    cases hd

/-- An object that could not make its display leaves everything as it was. -/
theorem construct_failed {s' : State} (H : Inv s) (hs : s' = { s with
      fDisplayRefCount := s'.fDisplayRefCount
      objects := s.objects ++ [some ⟨false, []⟩]
      next := s'.next }) (hc : s'.fDisplayRefCount = s.fDisplayRefCount) :
    Inv s' ∧ Keeps s s' := by
  have hu : users s'.objects = users s.objects := by
    rw [hs]
    exact users_append false
  refine ⟨⟨?_, ?_, ?_, ?_, ?_, ?_⟩, Keeps.of_eq (by rw [hs]) (by rw [hs])⟩
  · rw [hc, H.count, hu]
  · rw [hu]
    exact H.limit
  · rw [hu, hs]
    exact H.display
  · rw [hs]
    exact H.screens
  · rw [hs]
    exact H.displays
  · rw [hs]
    exact contexts_append false H.contexts

theorem construct_inv (H : Inv s) (screen display : Bool)
    (hl : users s.objects + 1 < 2 ^ 31) :
    Inv (s.construct screen display) ∧ Keeps s (s.construct screen display) := by
  have hcount := H.count
  have hadd : atomicAdd s.fDisplayRefCount 1 = s.fDisplayRefCount + 1 :=
    atomicAdd_eq (by omega) (by omega)
  have hsub : atomicAdd (s.fDisplayRefCount + 1) (-1) = s.fDisplayRefCount := by
    rw [atomicAdd_eq (by omega) (by omega)]
    omega
  have husers : users (s.objects ++ [some ⟨true, []⟩]) = _ := users_append true
  rw [if_pos rfl] at husers
  by_cases hpos : s.fDisplayRefCount > 0
  case pos =>
    -- the display exists already
    simp only [State.construct, State.createDisplay, if_pos hpos, hadd]
    refine ⟨⟨?_, ?_, ?_, H.screens, H.displays, contexts_append true H.contexts⟩,
      Keeps.of_eq rfl rfl⟩
    all_goals simp only [husers]
    · omega
    · exact hl
    · exact iff_of_true (H.display.2 (by omega)) (Nat.succ_pos _)
  case neg =>
    have hzero : users s.objects = 0 := by omega
    obtain ⟨hnone, hempty⟩ := H.idle hzero
    have hscreens := H.screens
    have hdisplays := H.displays
    rw [hnone] at hscreens hdisplays
    simp only [State.construct, State.createDisplay, if_neg hpos, hadd]
    cases screen with
    | false =>
      refine construct_failed H ?_ ?_
      · simp
      · simp [hsub]
    | true =>
      cases display with
      | false =>
        refine construct_failed H ?_ ?_
        · simp [State.newScreen, hnone]
        · simp [State.newScreen, hsub]
      | true =>
        simp only [State.newScreen, State.newDisplay, if_true]
        refine ⟨⟨?_, ?_, ?_, ?_, ?_, contexts_append true fun c hc d hd => ?_⟩, fun _ => ?_⟩
        · simp only [husers]
          omega
        · simp only [husers]
          exact hl
        · simp only [husers]
          exact iff_of_true rfl (Nat.succ_pos _)
        · simp [hscreens]
        · simp [hdisplays]
        · rw [hempty c hc] at hd
          cases hd
        · exact ⟨fun d hd => .tail _ hd, fun d hd => .tail _ hd⟩

/-- The last user takes the display along; until then it stays. -/
theorem destruct_inv (H : Inv s) (h : s.object n = some context) (hc : context.created) :
    Inv (s.destruct ⟨false, k⟩ n) ∧ Keeps s (s.destruct ⟨false, k⟩ n) := by
  have hcount := H.count
  have hlimit := H.limit
  have hpos := users_pos (State.mem_of_object h) hc
  have husers := users_set h (o := none)
  rw [if_pos hc, Option.any_none, if_neg Bool.false_ne_true] at husers
  have hadd : atomicAdd s.fDisplayRefCount (-1) = s.fDisplayRefCount - 1 :=
    atomicAdd_eq (by omega) (by omega)
  have hmem (c) (hc : some c ∈ s.objects.set n none) : some c ∈ s.objects :=
    (List.mem_or_eq_of_mem_set hc).resolve_right nofun
  obtain ⟨display, hd⟩ := Option.isSome_iff_exists.1 (H.display.2 hpos)
  simp only [State.destruct, State.destroyDisplay, hd, hadd]
  split
  case isTrue hmore =>
    refine ⟨⟨?_, ?_, ?_, H.screens.trans (by rw [hd]), H.displays.trans (by rw [hd]), fun c hc =>
      H.contexts c (hmem c hc)⟩, Keeps.of_eq rfl rfl⟩
    all_goals dsimp only
    · omega
    · omega
    · exact iff_of_true rfl (by omega)
  case isFalse hlast =>
    simp only [Bool.false_eq_true, if_false]
    have hzero : users (s.objects.set n none) = 0 := by omega
    refine ⟨⟨?_, ?_, ?_, ?_, ?_, fun c hc' d hd' => ?_⟩, fun hpos' => ?_⟩
    · simp only [hzero]
      omega
    · simp only [hzero]
      decide
    · simp only [hzero]
      decide
    · simp [H.screens, hd]
    · simp [H.displays, hd]
    · exact absurd hzero (Nat.ne_of_gt (users_pos hc' (H.contexts c (hmem c hc') d hd').1))
    · exact absurd hzero (Nat.ne_of_gt hpos')

theorem createContext_inv (H : Inv s) (h : s.object n = some context) (made : Bool)
    (hc : context.created ∨ s.fDisplay = none) :
    Inv (s.createContext env n context made) ∧ Keeps s (s.createContext env n context made) := by
  rw [State.createContext]
  split
  case h_1 => exact ⟨H, .of_eq rfl rfl⟩
  case h_2 display hd =>
    have hcreated := hc.resolve_right (by simp [hd])
    split
    case isFalse => exact ⟨H, .of_eq rfl rfl⟩
    case isTrue =>
      have husers := users_set h (o := some { context with
        fContext := context.fContext ++ [display.id] })
      rw [Option.any_some, Nat.add_right_cancel_iff] at husers
      refine ⟨⟨?_, ?_, ?_, H.screens, H.displays, fun c hmem d hd' => ?_⟩, Keeps.of_eq rfl rfl⟩
      · exact H.count.trans (by rw [husers])
      · exact husers ▸ H.limit
      · exact husers ▸ H.display
      · rcases List.mem_or_eq_of_mem_set hmem with hmem | hmem
        · exact H.contexts c hmem d hd'
        · cases hmem
          refine ⟨hcreated, ?_⟩
          rcases List.mem_append.1 hd' with hd' | hd'
          · exact (H.contexts context (State.mem_of_object h) d hd').2
          · simp [List.mem_singleton.1 hd', H.displays, hd]

theorem step_inv (s : State) (call : Call) (H : Inv s) (h : Sound s call) :
    Inv (step ⟨false, k⟩ call s) ∧ Keeps s (step ⟨false, k⟩ call s) := by
  cases call with
  | construct screen display => exact construct_inv H screen display h
  | destruct n =>
    simp only [step]
    split
    case h_1 => exact ⟨H, .of_eq rfl rfl⟩
    case h_2 context hobject =>
      rw [Sound, hobject] at h
      exact destruct_inv H hobject h
  | createContext n made =>
    simp only [step]
    split
    case h_1 => exact ⟨H, .of_eq rfl rfl⟩
    case h_2 context hobject =>
      rw [Sound, hobject] at h
      exact createContext_inv H hobject made h

/-- In every run of calls that are `Sound`, the count and the display are what they should be, and
no further call takes a display or a screen away while an object uses it. -/
theorem run_counted (contextMax : Nat) (calls : List Call)
    (h : Run.Along (step ⟨false, contextMax⟩) Sound start calls) :
    Balanced (Run.exec (step ⟨false, contextMax⟩) start calls) ∧
    ∀ call, Sound (Run.exec (step ⟨false, contextMax⟩) start calls) call →
      Keeps (Run.exec (step ⟨false, contextMax⟩) start calls)
        (step ⟨false, contextMax⟩ call (Run.exec (step ⟨false, contextMax⟩) start calls)) := by
  have H := Run.invariant (I := Inv) (fun s call H h => (step_inv s call H h).1) h .start
  exact ⟨H.balanced, fun call hcall => (step_inv _ call H hcall).2⟩

/-- Two objects share the display; the second keeps it when the first goes, and takes it along. -/
theorem run_counted_shared :
    Balanced (Run.exec (step ⟨false, 32⟩) start
      [.construct true true, .createContext 0 true, .construct false false, .destruct 0]) ∧
    Keeps (Run.exec (step ⟨false, 32⟩) start
      [.construct true true, .createContext 0 true, .construct false false, .destruct 0])
      (Run.exec (step ⟨false, 32⟩) start
      [.construct true true, .createContext 0 true, .construct false false, .destruct 0,
        .destruct 1]) := by
  have h := run_counted 32
    [.construct true true, .createContext 0 true, .construct false false, .destruct 0]
    ⟨by decide, by decide, by decide, by decide, trivial⟩
  exact ⟨h.1, h.2 (.destruct 1) (by decide)⟩

/-- One failed object, deleted as `instantiate_gl_renderer` deletes it, leaves the count at -1;
the next two objects then create a screen each. -/
theorem not_balanced_of_failed :
    ¬ Balanced (Run.exec (step ⟨false, 32⟩) start [.construct false false, .destruct 0]) ∧
    ¬ Balanced (Run.exec (step ⟨false, 32⟩) start
      [.construct false false, .destruct 0, .construct true true, .construct true true]) := by
  constructor
  · intro h
    exact absurd h.count (by decide)
  · intro h
    exact absurd h.screens (by decide)

end Gallium

end IntelGfx
