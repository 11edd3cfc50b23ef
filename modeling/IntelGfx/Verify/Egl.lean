import IntelGfx.Mesa.Egl

/-!
# Reference balance of the EGL driver

Between two calls nobody owes a reference. Within one, the references of the previous binding are
owed, until `haiku_make_current` has dropped them: it drops one when the draw and the read surface
are the same, where two are owed, and none when the state tracker has refused the binding.
-/

namespace IntelGfx

namespace Egl
variable {τ : Type*} [Fintype τ] {s : State τ} {x : Resource} {b new : Binding}
variable {debt : Resource → Nat}

/-- One reference for the owner and one for each slot of a binding; what has none is freed, and
its wl_egl_window is free for another surface. -/
structure Balanced (s : State τ) : Prop where
  count : ∀ x, s.refCount x = (if s.owned x then 1 else 0) + s.named x
  freed : ∀ x, s.freed x ↔ s.created x ∧ s.owned x = false ∧ s.named x = 0
  window : ∀ window surface, s.driverPrivate window = some surface →
    s.freed (.surface surface) = false

/-- The binding that an accepted call replaces names no surface as both, and a binding that the
state tracker refuses, and the one before it, name nothing. -/
def Settled (s : State τ) : Call τ → Prop
  | .makeCurrent t new bound ok undone =>
    s.admits new → bound →
      if ok then (s.current t).draw = none ∨ (s.current t).draw ≠ (s.current t).read
      else s.current t = .none ∧ (undone → new = .none)
  | _ => True

/-- Balanced, but for references that the call under way has still to drop. -/
structure Owes (s : State τ) (debt : Resource → Nat) : Prop where
  count : ∀ x, s.refCount x = (if s.owned x then 1 else 0) + s.named x + debt x
  freed : ∀ x, s.freed x ↔ s.created x ∧ s.owned x = false ∧ s.named x = 0 ∧ debt x = 0
  created : ∀ x, s.created x = false → s.refCount x = 0
  next : ∀ x, s.created x → x.id < s.next
  window : ∀ window surface, s.driverPrivate window = some surface →
    s.created (.surface surface) ∧ s.wlWindow surface = some window ∧
      s.freed (.surface surface) = false

/-- The reference of one slot. -/
def slot (kind : Nat → Resource) (o : Option Nat) (x : Resource) : Nat :=
  if o.map kind = some x then 1 else 0

@[simp] theorem slot_none (kind : Nat → Resource) : slot kind none = 0 := rfl

theorem slot_some (kind : Nat → Resource) (id : Nat) (x : Resource) :
    slot kind (some id) x = if x = kind id then 1 else 0 := by
  simp [slot, eq_comm]

theorem slots_eq (b : Binding) :
    b.slots = slot .context b.ctx + slot .surface b.draw + slot .surface b.read := rfl

theorem slots_none : Binding.none.slots = 0 := rfl

namespace State

omit [Fintype τ] in
/-- A binding that the application may ask for names only what it owns. -/
theorem slots_of_admits (h : s.admits b) (hx : s.owned x = false) : b.slots x = 0 := by
  simp only [admits, Bool.and_eq_true, Option.all_eq_true] at h
  obtain ⟨⟨hctx, hdraw⟩, hread⟩ := h
  have none {kind : Nat → Resource} {o : Option Nat} (ho : ∀ id, o = some id → s.owned (kind id)) :
      slot kind o x = 0 := by
    cases o with
    | none => rfl
    | some id =>
      rw [slot_some, if_neg]
      rintro rfl
      rw [ho id rfl] at hx
      cases hx
  rw [slots_eq, Pi.add_apply, Pi.add_apply, none hctx, none hdraw, none hread]

omit [Fintype τ] in
/-- Only the window of the surface itself is released. -/
theorem releaseWindow_eq (s : State τ) (id : Nat) : ∃ driverPrivate,
    s.releaseWindow id = { s with driverPrivate } ∧
    ∀ window surface, driverPrivate window = some surface →
      s.driverPrivate window = some surface ∧ (surface = id → s.wlWindow id ≠ some window) := by
  rw [releaseWindow]
  split
  case h_1 hnone => exact ⟨_, rfl, fun w n h => ⟨h, fun _ => by simp [hnone]⟩⟩
  case h_2 window hsome =>
    split
    case isTrue hmine =>
      refine ⟨_, rfl, fun w n h => ?_⟩
      rcases eq_or_ne w window with rfl | hne
      · rw [Function.update_self] at h
        cases h
      · rw [Function.update_of_ne hne] at h
        exact ⟨h, fun _ => by simpa [hsome] using hne.symm⟩
    case isFalse hother =>
      refine ⟨_, rfl, fun w n h => ⟨h, ?_⟩⟩
      rintro rfl hw
      cases hsome.symm.trans hw
      exact hother h

end State

namespace Owes

theorem start : Owes (start : State τ) 0 where
  count x := by
    have h : (Egl.start : State τ).named x = 0 := Finset.sum_eq_zero fun _ _ => rfl
    rw [h]
    rfl
  freed x := by simp [Egl.start]
  created _ _ := rfl
  next _ h := nomatch h
  window _ _ h := nomatch h

theorem balanced (H : Owes s 0) : Balanced s where
  count x := by simpa using H.count x
  freed x := by simpa using H.freed x
  window w n h := (H.window w n h).2.2

/-- What was never created has no reference at all. -/
theorem absent (H : Owes s debt) (h : s.created x = false) :
    s.owned x = false ∧ s.named x = 0 ∧ debt x = 0 ∧ s.freed x = false := by
  have hcount := H.count x
  have hfreed := H.freed x
  rw [H.created x h] at hcount
  rw [h] at hfreed
  refine ⟨?_, ?_, ?_, by simpa using hfreed⟩
  · by_contra hx
    rw [if_pos (by simpa using hx)] at hcount
    omega
  · split at hcount <;> omega
  · split at hcount <;> omega

/-- The owner's reference becomes one that is to be dropped. -/
theorem disown (H : Owes s 0) {kind : Nat → Resource} {id : Nat} (hx : s.owned (kind id)) :
    Owes (s.disown (kind id)) (0 + slot kind (some id)) where
  count x := by
    have hcount := H.count x
    rw [Pi.add_apply, slot_some]
    change s.refCount x = (if Function.update s.owned (kind id) false x then 1 else 0) +
      (s.named x : Int) + _
    rcases eq_or_ne x (kind id) with rfl | hne
    · rw [hcount, if_pos hx, Function.update_self, if_pos rfl]
      simp [add_comm]
    · rw [hcount, Function.update_of_ne hne, if_neg hne, add_zero]
  freed x := by
    rw [Pi.add_apply, slot_some]
    change s.freed x ↔ s.created x ∧ Function.update s.owned (kind id) false x = false ∧
      s.named x = 0 ∧ _
    rcases eq_or_ne x (kind id) with rfl | hne
    · have hfreed := H.freed (kind id)
      rw [if_pos rfl]
      simp_all
    · rw [Function.update_of_ne hne, if_neg hne, add_zero]
      exact H.freed x
  created := H.created
  next := H.next
  window := H.window

/-- A reference less: the resource is freed with the last one. -/
theorem drop {s' : State τ} {kind : Nat → Resource} {id : Nat}
    (H : Owes s (debt + slot kind (some id)))
    (hcount : s'.refCount = Function.update s.refCount (kind id) (s.refCount (kind id) - 1))
    (hfreed : s'.freed = if s.refCount (kind id) - 1 = 0 then
      Function.update s.freed (kind id) true else s.freed)
    (hcreated : s'.created = s.created) (howned : s'.owned = s.owned)
    (hcurrent : s'.current = s.current) (hnext : s'.next = s.next)
    (hwindow : ∀ window surface, s'.driverPrivate window = some surface →
      s.driverPrivate window = some surface ∧ s'.wlWindow surface = s.wlWindow surface ∧
        (s.refCount (kind id) - 1 = 0 → kind id ≠ .surface surface)) : Owes s' debt := by
  have hnamed (x) : s'.named x = s.named x := by rw [State.named, State.named, hcurrent]
  -- a resource that owes a reference was created and is not freed yet
  have hself := H.count (kind id)
  have hnot := H.freed (kind id)
  rw [Pi.add_apply, slot_some, if_pos rfl] at hself hnot
  have halive : s.freed (kind id) = false := by simp_all
  have hmade : s.created (kind id) := by
    by_contra hno
    have habs := (H.absent (by simpa using hno)).2.2.1
    rw [Pi.add_apply, slot_some, if_pos rfl] at habs
    omega
  refine ⟨fun x => ?_, fun x => ?_, fun x hx => ?_, ?_, fun w n hw => ?_⟩
  · have hx := H.count x
    rw [hcount, howned, hnamed]
    rcases eq_or_ne x (kind id) with rfl | hne
    · rw [Function.update_self]
      omega
    · rw [Pi.add_apply, slot_some, if_neg hne] at hx
      rw [Function.update_of_ne hne, hx]
      omega
  · rw [hcreated, howned, hnamed, hfreed]
    have hx := H.freed x
    rcases eq_or_ne x (kind id) with rfl | hne
    · -- the last reference is gone exactly when nothing else is left of it
      have hlast : s.refCount (kind id) - 1 = 0 ↔ s.owned (kind id) = false ∧
          s.named (kind id) = 0 ∧ debt (kind id) = 0 := by
        rw [hself]
        cases s.owned (kind id) with
        | false => simp; omega
        | true => simp; omega
      split
      case isTrue h => simpa [hmade] using hlast.1 h
      case isFalse h => simpa [halive, hmade] using mt hlast.2 h
    · rw [Pi.add_apply, slot_some, if_neg hne, add_zero] at hx
      split
      · rw [Function.update_of_ne hne]
        exact hx
      · exact hx
  · rw [hcreated] at hx
    have hne : x ≠ kind id := by
      rintro rfl
      rw [hmade] at hx
      cases hx
    rw [hcount, Function.update_of_ne hne]
    exact H.created x hx
  · rw [hcreated, hnext]
    exact H.next
  · obtain ⟨hold, hwl, hne⟩ := hwindow w n hw
    obtain ⟨hc, hs, hf⟩ := H.window w n hold
    refine ⟨by rw [hcreated, hc], hwl.trans hs, ?_⟩
    rw [hfreed]
    split
    case isTrue h => rw [Function.update_of_ne (hne h).symm, hf]
    case isFalse => exact hf

theorem destroyContext {id : Nat} (H : Owes s (debt + slot .context (some id))) :
    Owes (s.destroyContext id) debt := by
  rw [State.destroyContext]
  have hput : (s.put (.context id)).refCount (.context id) = s.refCount (.context id) - 1 :=
    Function.update_self ..
  split
  case isTrue h =>
    rw [hput] at h
    exact H.drop rfl (by rw [if_pos h]; rfl) rfl rfl rfl rfl fun w n hw => ⟨hw, rfl, nofun⟩
  case isFalse h =>
    rw [hput] at h
    exact H.drop rfl (by rw [if_neg h]; rfl) rfl rfl rfl rfl fun w n hw => ⟨hw, rfl, nofun⟩

theorem destroySurface {id : Nat} (H : Owes s (debt + slot .surface (some id))) :
    Owes (s.destroySurface id) debt := by
  rw [State.destroySurface]
  have hput : (s.put (.surface id)).refCount (.surface id) = s.refCount (.surface id) - 1 :=
    Function.update_self ..
  split
  case isTrue h =>
    rw [hput] at h
    obtain ⟨driverPrivate, hrelease, hkeeps⟩ := State.releaseWindow_eq (s.put (.surface id)) id
    rw [hrelease]
    refine H.drop rfl (by rw [if_pos h]; rfl) rfl rfl rfl rfl fun w n hw => ?_
    obtain ⟨hold, hne⟩ := hkeeps w n hw
    refine ⟨hold, rfl, fun _ heq => ?_⟩
    cases heq
    exact hne rfl (H.window w id hold).2.1
  case isFalse h =>
    rw [hput] at h
    exact H.drop rfl (by rw [if_neg h]; rfl) rfl rfl rfl rfl fun w n hw =>
      ⟨hw, rfl, fun h' => absurd h' h⟩

theorem init (H : Owes s 0) (hx : s.created x = false) (hid : x.id = s.next) :
    Owes (s.init x) 0 := by
  obtain ⟨-, hnamed, -, hfreed⟩ := H.absent hx
  refine ⟨fun y => ?_, fun y => ?_, fun y hy => ?_, fun y hy => ?_, fun w n hw => ?_⟩
  · change Function.update s.refCount x 1 y = (if Function.update s.owned x true y then 1 else 0) +
      (s.named y : Int) + _
    rcases eq_or_ne y x with rfl | hne
    · simp [hnamed]
    · rw [Function.update_of_ne hne, Function.update_of_ne hne]
      exact H.count y
  · change s.freed y ↔ Function.update s.created x true y ∧
      Function.update s.owned x true y = false ∧ _
    rcases eq_or_ne y x with rfl | hne
    · simp [hfreed]
    · rw [Function.update_of_ne hne, Function.update_of_ne hne]
      exact H.freed y
  · change Function.update s.created x true y = false at hy
    change Function.update s.refCount x 1 y = 0
    rcases eq_or_ne y x with rfl | hne
    · simp at hy
    · rw [Function.update_of_ne hne] at hy ⊢
      exact H.created y hy
  · change Function.update s.created x true y at hy
    change y.id < s.next + 1
    rcases eq_or_ne y x with rfl | hne
    · omega
    · rw [Function.update_of_ne hne] at hy
      exact Nat.lt_succ_of_lt (H.next y hy)
  · obtain ⟨hc, hs, hf⟩ := H.window w n hw
    refine ⟨?_, hs, hf⟩
    change Function.update s.created x true (.surface n)
    rcases eq_or_ne (Resource.surface n) x with rfl | hne
    · simp
    · rw [Function.update_of_ne hne]
      exact hc

/-- The next name is new for surfaces and contexts alike. -/
theorem created_next (H : Owes s debt) (h : x.id = s.next) : s.created x = false := by
  by_contra hx
  have := H.next x (by simpa using hx)
  omega

theorem createContext (H : Owes s 0) : Owes s.createContext 0 :=
  H.init (H.created_next rfl) rfl

theorem createSurface (H : Owes s 0) (window : Option Nat) : Owes (s.createSurface window) 0 := by
  have hnew : s.created (.surface s.next) = false := H.created_next rfl
  have hinit := H.init hnew rfl
  cases window with
  | none => exact hinit
  | some window =>
    rw [State.createSurface]
    split
    case isTrue => exact H
    case isFalse =>
      refine ⟨hinit.count, hinit.freed, hinit.created, hinit.next, fun w n hw => ?_⟩
      change Function.update s.driverPrivate window (some s.next) w = some n at hw
      change Function.update s.created (.surface s.next) true (.surface n) ∧
        Function.update s.wlWindow s.next (some window) n = some w ∧ s.freed (.surface n) = false
      rcases eq_or_ne w window with rfl | hne
      · rw [Function.update_self] at hw
        cases hw
        simp [(H.absent hnew).2.2.2]
      · rw [Function.update_of_ne hne] at hw
        obtain ⟨hc, hs, hf⟩ := H.window w n hw
        have hn : n ≠ s.next := by
          rintro rfl
          rw [hnew] at hc
          cases hc
        rw [Function.update_of_ne (by simpa using hn), Function.update_of_ne hn]
        exact ⟨hc, hs, hf⟩

theorem windowDestroyed (H : Owes s debt) (window : Nat) :
    Owes (s.windowDestroyed window) debt := by
  rw [State.windowDestroyed]
  split
  case h_1 => exact H
  case h_2 surface hsurface =>
    refine ⟨H.count, H.freed, H.created, H.next, fun w n hw => ?_⟩
    change Function.update s.driverPrivate window none w = some n at hw
    change s.created (.surface n) ∧ Function.update s.wlWindow surface none n = some w ∧ _
    rcases eq_or_ne w window with rfl | hne
    · rw [Function.update_self] at hw
      cases hw
    · rw [Function.update_of_ne hne] at hw
      obtain ⟨hc, hs, hf⟩ := H.window w n hw
      have hn : n ≠ surface := by
        rintro rfl
        exact hne (Option.some.inj (hs.symm.trans (H.window window n hsurface).2.1))
      rw [Function.update_of_ne hn]
      exact ⟨hc, hs, hf⟩

theorem unlessNull {destroy : State τ → Nat → State τ} {kind : Nat → Resource}
    (hd : ∀ {s : State τ} {debt : Resource → Nat} {id : Nat}, Owes s (debt + slot kind (some id)) →
      Owes (destroy s id) debt) {o : Option Nat} (H : Owes s (debt + slot kind o)) :
    Owes (s.unlessNull destroy o) debt := by
  cases o with
  | none => exact H
  | some id => exact hd H

end Owes

variable [DecidableEq τ]

/-- The slots of the new binding in place of those of the old one. -/
theorem State.named_bindContext (t : τ) (x : Resource) :
    (s.bindContext t new).named x + (s.current t).slots x = s.named x + new.slots x := by
  have hrest : ∑ u ∈ Finset.univ.erase t, (Function.update s.current t new u).slots x =
      ∑ u ∈ Finset.univ.erase t, (s.current u).slots x :=
    Finset.sum_congr rfl fun u hu => by rw [Function.update_of_ne (Finset.ne_of_mem_erase hu)]
  have hnew := Finset.add_sum_erase Finset.univ
    (fun u => (Function.update s.current t new u).slots x) (Finset.mem_univ t)
  have hold := Finset.add_sum_erase Finset.univ (fun u => (s.current u).slots x)
    (Finset.mem_univ t)
  rw [hrest, Function.update_self] at hnew
  simp only [State.named, State.bindContext]
  omega

/-- The new binding has its references, those of the old one are to be dropped. -/
theorem Owes.bindContext (H : Owes s 0) (t : τ) (h : s.admits new) :
    Owes (s.bindContext t new) (s.current t).slots where
  count x := by
    have hcount := H.count x
    have hnamed : (s.bindContext t new).named x + _ = _ := State.named_bindContext t x
    have howned : (s.bindContext t new).owned = s.owned := rfl
    rw [Pi.zero_apply] at hcount
    change s.refCount x + new.slots x = _
    rw [hcount, howned]
    omega
  freed x := by
    have hnamed : (s.bindContext t new).named x + _ = _ := State.named_bindContext t x
    refine (H.freed x).trans (and_congr_right fun _ => and_congr_right fun hx => ?_)
    rw [State.slots_of_admits h hx, add_zero] at hnamed
    rw [← hnamed, Nat.add_eq_zero_iff]
    simp
  created x hx := by
    have hslots := State.slots_of_admits h (H.absent hx).1
    simp only [State.bindContext, H.created x hx, hslots]
    rfl
  next := H.next
  window := H.window

omit [Fintype τ] in
theorem State.bindContext_current (t : τ) : (s.bindContext t new).current t = new :=
  Function.update_self ..

theorem Owes.makeCurrent (H : Owes s 0) (t : τ) (bound ok undone : Bool) (hnew : s.admits new)
    (h : Settled s (.makeCurrent t new bound ok undone)) :
    Owes (s.makeCurrent t new bound ok undone) 0 := by
  rw [State.makeCurrent]
  cases bound with
  | false => exact H
  | true =>
    have hbind := H.bindContext t hnew
    have h := h hnew rfl
    cases ok with
    | false =>
      obtain ⟨hold, hundo⟩ := h
      rw [hold, slots_none] at hbind
      cases undone with
      | false => exact hbind
      | true =>
        cases hundo rfl
        have hagain := hbind.bindContext t hnew
        rw [State.bindContext_current, slots_none] at hagain
        simpa [hold] using hagain
    | true =>
      have hslots : (s.current t).slots = 0 + slot .surface (s.current t).read +
          slot .surface (s.current t).draw + slot .context (s.current t).ctx := by
        funext x
        simp only [slots_eq, Pi.add_apply, Pi.zero_apply]
        omega
      rw [hslots] at hbind
      have hdraw := (hbind.unlessNull .destroyContext).unlessNull .destroySurface
      simp only [Bool.not_true, Bool.false_eq_true, if_false]
      split
      case isTrue => exact hdraw.unlessNull .destroySurface
      case isFalse heq =>
        -- both slots are null: of a surface in both, two references would be owed
        have hsame := not_not.1 heq
        have hnone := h.resolve_right (not_not.2 hsame.symm)
        rw [hsame, hnone, slot_none] at hdraw
        rw [hnone]
        exact hdraw

theorem step_owes (s : State τ) (call : Call τ) (H : Owes s 0) (h : Settled s call) :
    Owes (step call s) 0 := by
  cases call with
  | createContext => exact H.createContext
  | createSurface window => exact H.createSurface window
  | windowDestroyed window => exact H.windowDestroyed window
  | destroyContext id =>
    simp only [step]
    split
    case isTrue hx => exact (H.disown hx).destroyContext
    case isFalse => exact H
  | destroySurface id =>
    simp only [step]
    split
    case isTrue hx => exact (H.disown hx).destroySurface
    case isFalse => exact H
  | makeCurrent t new bound ok undone =>
    simp only [step]
    split
    case isTrue hnew => exact H.makeCurrent t bound ok undone hnew h
    case isFalse => exact H

/-- The references balance after every run of calls that are `Settled`. -/
theorem run_balanced {τ : Type*} [Fintype τ] [DecidableEq τ] (calls : List (Call τ))
    (h : Run.Along step Settled start calls) : Balanced (Run.exec step start calls) :=
  (Run.invariant (I := fun s => Owes s 0) step_owes h .start).balanced

/-- A surface that is read from and another that is drawn to are replaced by nothing, and then
destroyed. -/
theorem run_balanced_unbind :
    Balanced (Run.exec step (start : State (Fin 2)) [.createContext, .createSurface (some 7),
      .createSurface none, .makeCurrent 0 ⟨some 0, some 1, some 2⟩ true true true,
      .destroySurface 1, .makeCurrent 0 .none true true true, .createSurface (some 7)]) :=
  run_balanced _ ⟨trivial, trivial, trivial, fun _ _ => .inl rfl, trivial,
    fun _ _ => .inr (by decide), trivial, trivial⟩

/-- With one surface for both, the destroyed surface is never freed and keeps its window; and a
binding that the state tracker refuses keeps a reference to each of its three. -/
theorem not_balanced_of_same :
    ¬ Balanced (Run.exec step (start : State (Fin 1)) [.createContext, .createSurface (some 7),
      .makeCurrent 0 ⟨some 0, some 1, some 1⟩ true true true,
      .makeCurrent 0 .none true true true, .destroySurface 1]) ∧
    ¬ Balanced (Run.exec step (start : State (Fin 1)) [.createContext, .createSurface none,
      .makeCurrent 0 ⟨some 0, some 1, some 1⟩ true false true]) := by
  constructor
  · intro h
    exact absurd (h.count (.surface 1)) (by decide)
  · intro h
    exact absurd (h.count (.context 0)) (by decide)

end Egl

end IntelGfx
