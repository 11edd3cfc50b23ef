import IntelGfx.Mesa.Presentation

/-!
# A buffer is not written while the compositor holds it

`Inv`: every mark is the one that the trace asks for, a release in the queue answers the last commit
of its buffer, and the buffers of a surface lie side by side in a map of their own.
-/

namespace IntelGfx

namespace Presentation
variable {s s' : State} {k : Nat} {i : Fin 3} {p : Nat}

/-- No write of the trace falls into a buffer that the compositor holds; each is the whole memory of
one buffer. -/
def Clean : List Event → Prop
  | [] => True
  | .write memory :: earlier =>
    (∃ p m, memory = some m ∧ .create p m ∈ earlier ∧
      ∀ q b, .create q b ∈ earlier → m.Overlaps b → held q earlier = false) ∧ Clean earlier
  | _ :: earlier => Clean earlier

theorem Clean.split {later earlier : List Event} {memory : Option Span}
    (h : Clean (later ++ .write memory :: earlier)) :
    ∃ p m, memory = some m ∧ .create p m ∈ earlier ∧
      ∀ q b, .create q b ∈ earlier → m.Overlaps b → held q earlier = false := by
  induction later with
  | nil => exact h.1
  | cons e later ih =>
    cases e with
    | write => exact ih h.2
    | _ => exact ih h

namespace Surface

/-- The size of a buffer in bytes. -/
def oneSize (surface : Surface) : Nat := surface.wlStride * surface.wlHeight

/-- The bytes of a buffer in a map. -/
def span (surface : Surface) (map : Nat) (i : Fin 3) : Span :=
  ⟨map, surface.oneSize * i, surface.oneSize⟩

/-- The same buffers in the same places; their marks may differ. -/
structure Layout (a b : Surface) : Prop where
  proxy : ∀ i, b.proxy i = a.proxy i
  data : ∀ i, (b.wlBuffers i).data = (a.wlBuffers i).data
  wlMap : b.wlMap = a.wlMap
  wlStride : b.wlStride = a.wlStride
  wlWidth : b.wlWidth = a.wlWidth
  wlHeight : b.wlHeight = a.wlHeight

theorem Layout.rfl {a : Surface} : Layout a a :=
  ⟨fun _ => Eq.refl _, fun _ => Eq.refl _, Eq.refl _, Eq.refl _, Eq.refl _, Eq.refl _⟩

theorem Layout.oneSize {a b : Surface} (L : Layout a b) : b.oneSize = a.oneSize := by
  rw [Surface.oneSize, Surface.oneSize, L.wlStride, L.wlHeight]

theorem Layout.span {a b : Surface} (L : Layout a b) (m : Nat) (i : Fin 3) :
    b.span m i = a.span m i := by
  rw [Surface.span, Surface.span, L.oneSize]

theorem Layout.trans {a b c : Surface} (h : Layout a b) (h' : Layout b c) : Layout a c :=
  ⟨fun i => (h'.proxy i).trans (h.proxy i), fun i => (h'.data i).trans (h.data i),
    h'.wlMap.trans h.wlMap, h'.wlStride.trans h.wlStride, h'.wlWidth.trans h.wlWidth,
    h'.wlHeight.trans h.wlHeight⟩

end Surface

/-! ## The invariant -/

/-- The marks and the proxies. -/
structure Marks (s : State) : Prop where
  fresh : ∀ {k i p}, (s.surfaces k).proxy i = some p → p < s.nextProxy
  one : ∀ {k i k' i' p}, (s.surfaces k).proxy i = some p → (s.surfaces k').proxy i' = some p →
    k = k' ∧ i = i'
  listens : ∀ {k i p}, s.listener p = some (k, i) → (s.surfaces k).proxy i = some p
  busy : ∀ {k i p}, (s.surfaces k).proxy i = some p →
    ((s.surfaces k).wlBuffers i).busy = unanswered p s.trace
  committed : ∀ {p}, unanswered p s.trace = true → p < s.nextProxy
  answered : ∀ {p}, held p s.trace = true → unanswered p s.trace = true
  queued : ∀ {p}, p ∈ s.queue → held p s.trace = false ∧ unanswered p s.trace = true
  nodup : s.queue.Nodup

/-- The buffers in memory. -/
structure Memory (s : State) : Prop where
  fresh : ∀ {k m}, (s.surfaces k).wlMap = some m → m < s.nextMap
  one : ∀ {k k' m}, (s.surfaces k).wlMap = some m → (s.surfaces k').wlMap = some m → k = k'
  size : ∀ {k m}, (s.surfaces k).wlMap = some m →
    (s.surfaces k).wlStride = (s.surfaces k).wlWidth * 4 ∧ 0 < (s.surfaces k).wlHeight
  slots : ∀ {k m}, (s.surfaces k).wlMap = some m → ∀ i,
    ((s.surfaces k).wlBuffers i).data = some (m, (s.surfaces k).oneSize * i) ∧
      ∃ p, (s.surfaces k).proxy i = some p ∧ .create p ((s.surfaces k).span m i) ∈ s.trace
  created : ∀ {p b}, .create p b ∈ s.trace → p < s.nextProxy ∧ b.map < s.nextMap ∧
    ∀ k, (s.surfaces k).wlMap = some b.map →
      ∃ i, (s.surfaces k).proxy i = some p ∧ b = (s.surfaces k).span b.map i
  clean : Clean s.trace

structure Inv (s : State) : Prop where
  marks : Marks s
  memory : Memory s

theorem Memory.of_layout (M : Memory s) (L : ∀ k, Surface.Layout (s.surfaces k) (s'.surfaces k))
    (hp : s'.nextProxy = s.nextProxy) (hm : s'.nextMap = s.nextMap)
    (hc : ∀ {p b}, .create p b ∈ s'.trace ↔ .create p b ∈ s.trace) (clean : Clean s'.trace) :
    Memory s' := by
  refine ⟨?_, ?_, ?_, ?_, ?_, clean⟩
  · intro k m h
    rw [(L k).wlMap] at h
    rw [hm]
    exact M.fresh h
  · intro k k' m h h'
    rw [(L k).wlMap] at h
    rw [(L k').wlMap] at h'
    exact M.one h h'
  · intro k m h
    rw [(L k).wlMap] at h
    rw [(L k).wlStride, (L k).wlWidth, (L k).wlHeight]
    exact M.size h
  · intro k m h i
    rw [(L k).wlMap] at h
    rw [(L k).data, (L k).oneSize, (L k).proxy, (L k).span]
    obtain ⟨hd, p, hp, h⟩ := M.slots h i
    exact ⟨hd, p, hp, hc.mpr h⟩
  · intro p b h
    obtain ⟨h₁, h₂, h₃⟩ := M.created (hc.mp h)
    rw [hp, hm]
    refine ⟨h₁, h₂, fun k hk => ?_⟩
    rw [(L k).wlMap] at hk
    obtain ⟨i, hi, hb⟩ := h₃ k hk
    exact ⟨i, ((L k).proxy i).trans hi, hb.trans ((L k).span b.map i).symm⟩

theorem start_inv : Inv start := by
  refine ⟨⟨nofun, nofun, nofun, nofun, nofun, nofun, nofun, .nil⟩,
    ⟨nofun, nofun, nofun, nofun, nofun, trivial⟩⟩

/-! ## Destruction -/

theorem destroyWaylandBuffers_eq (k : Nat) (s : State) :
    destroyWaylandBuffers k s = { s with
      surfaces := Function.update s.surfaces k (.blank (s.surfaces k).wlWindow)
      listener := fun p => if p ∈ (s.surfaces k).proxies then none else s.listener p
      trace := (s.surfaces k).proxies.map .destroy ++ s.trace } := by
  have hb : ∀ f : Fin 3 → Buffer, Function.update (Function.update (Function.update f
      0 ⟨none, none, false⟩) 1 ⟨none, none, false⟩) 2 ⟨none, none, false⟩ =
      fun _ => ⟨none, none, false⟩ := by
    intro f
    funext i
    match i with
    | 0 => rfl
    | 1 => rfl
    | 2 => rfl
  rcases h0 : ((s.surfaces k).wlBuffers 0).proxy with _ | p0 <;>
  rcases h1 : ((s.surfaces k).wlBuffers 1).proxy with _ | p1 <;>
  rcases h2 : ((s.surfaces k).wlBuffers 2).proxy with _ | p2 <;>
  simp [destroyWaylandBuffers, destroyBuffer, State.setBuffer, State.setSurface, State.log,
    Surface.proxies, Surface.proxy, Surface.blank, h0, h1, h2, hb] <;>
  grind

@[simp] theorem held_destroy (l : List Nat) (t : List Event) :
    held p (l.map .destroy ++ t) = held p t := by
  induction l with
  | nil => rfl
  | cons q l ih => exact ih

@[simp] theorem unanswered_destroy (l : List Nat) (t : List Event) :
    unanswered p (l.map .destroy ++ t) = unanswered p t := by
  induction l with
  | nil => rfl
  | cons q l ih => exact ih

theorem clean_destroy (l : List Nat) {t : List Event} (h : Clean t) :
    Clean (l.map .destroy ++ t) := by
  induction l with
  | nil => exact h
  | cons q l ih => exact ih

theorem mem_destroy {l : List Nat} {t : List Event} {m : Span} :
    .create p m ∈ l.map .destroy ++ t ↔ .create p m ∈ t := by
  simp

theorem Surface.mem_proxies {surface : Surface} : p ∈ surface.proxies ↔
    ∃ i, surface.proxy i = some p := by
  rw [Surface.proxies, List.mem_filterMap]
  constructor
  · rintro ⟨i, -, h⟩
    exact ⟨i, h⟩
  · rintro ⟨i, h⟩
    refine ⟨i, ?_, h⟩
    match i with
    | 0 => simp
    | 1 => simp
    | 2 => simp

/-- The surfaces other than `k` are as they were; `k` has no buffers. -/
theorem destroyed_proxy {k' : Nat}
    (h : ((destroyWaylandBuffers k s).surfaces k').proxy i = some p) :
    k' ≠ k ∧ (s.surfaces k').proxy i = some p := by
  rw [destroyWaylandBuffers_eq] at h
  dsimp only at h
  by_cases hk : k' = k
  · subst hk
    rw [Function.update_self] at h
    exact nomatch h
  · rw [Function.update_of_ne hk] at h
    exact ⟨hk, h⟩

theorem destroyed_map {k' m : Nat} (h : ((destroyWaylandBuffers k s).surfaces k').wlMap = some m) :
    k' ≠ k ∧ (destroyWaylandBuffers k s).surfaces k' = s.surfaces k' := by
  rw [destroyWaylandBuffers_eq] at h ⊢
  dsimp only at h ⊢
  by_cases hk : k' = k
  · subst hk
    rw [Function.update_self] at h
    exact nomatch h
  · exact ⟨hk, Function.update_of_ne hk ..⟩

theorem destroyed_surface (k : Nat) (s : State) :
    (destroyWaylandBuffers k s).surfaces k = .blank (s.surfaces k).wlWindow := by
  rw [destroyWaylandBuffers_eq]
  exact Function.update_self ..

theorem Inv.destroy (I : Inv s) (k : Nat) : Inv (destroyWaylandBuffers k s) := by
  have hs {k' : Nat} (hk : k' ≠ k) :
      (destroyWaylandBuffers k s).surfaces k' = s.surfaces k' := by
    rw [destroyWaylandBuffers_eq]
    exact Function.update_of_ne hk ..
  have ht : (destroyWaylandBuffers k s).trace =
      (s.surfaces k).proxies.map .destroy ++ s.trace := by
    rw [destroyWaylandBuffers_eq]
  have hq : (destroyWaylandBuffers k s).queue = s.queue := by rw [destroyWaylandBuffers_eq]
  have hn : (destroyWaylandBuffers k s).nextProxy = s.nextProxy := by rw [destroyWaylandBuffers_eq]
  have hm : (destroyWaylandBuffers k s).nextMap = s.nextMap := by rw [destroyWaylandBuffers_eq]
  refine ⟨⟨?_, ?_, ?_, ?_, ?_, ?_, ?_, ?_⟩, ⟨?_, ?_, ?_, ?_, ?_, ?_⟩⟩
  · intro k' i p h
    rw [hn]
    exact I.marks.fresh (destroyed_proxy h).2
  · intro k₁ i₁ k₂ i₂ p h₁ h₂
    exact I.marks.one (destroyed_proxy h₁).2 (destroyed_proxy h₂).2
  · intro k' i p h
    rw [destroyWaylandBuffers_eq] at h
    dsimp only at h
    split at h
    · exact nomatch h
    · rename_i hp
      have hl := I.marks.listens h
      have hk : k' ≠ k := by
        rintro rfl
        exact hp (Surface.mem_proxies.mpr ⟨i, hl⟩)
      rw [hs hk]
      exact hl
  · intro k' i p h
    obtain ⟨hk, h⟩ := destroyed_proxy h
    rw [hs hk, ht, unanswered_destroy]
    exact I.marks.busy h
  · intro p
    rw [ht, unanswered_destroy, hn]
    exact I.marks.committed
  · intro p
    rw [ht, held_destroy, unanswered_destroy]
    exact I.marks.answered
  · intro p
    rw [hq, ht, held_destroy, unanswered_destroy]
    exact I.marks.queued
  · rw [hq]
    exact I.marks.nodup
  · intro k' m h
    obtain ⟨-, e⟩ := destroyed_map h
    rw [e] at h
    rw [hm]
    exact I.memory.fresh h
  · intro k₁ k₂ m h₁ h₂
    obtain ⟨-, e₁⟩ := destroyed_map h₁
    obtain ⟨-, e₂⟩ := destroyed_map h₂
    rw [e₁] at h₁
    rw [e₂] at h₂
    exact I.memory.one h₁ h₂
  · intro k' m h
    obtain ⟨-, e⟩ := destroyed_map h
    rw [e] at h ⊢
    exact I.memory.size h
  · intro k' m h i
    obtain ⟨-, e⟩ := destroyed_map h
    rw [e] at h ⊢
    obtain ⟨hd, p, hp, hc⟩ := I.memory.slots h i
    rw [ht]
    exact ⟨hd, p, hp, mem_destroy.mpr hc⟩
  · intro p b h
    rw [ht, mem_destroy] at h
    obtain ⟨hp, hb, h⟩ := I.memory.created h
    rw [hn, hm]
    refine ⟨hp, hb, fun k' hk' => ?_⟩
    obtain ⟨-, e⟩ := destroyed_map hk'
    rw [e] at hk' ⊢
    exact h k' hk'
  · rw [ht]
    exact clean_destroy _ I.memory.clean

/-! ## The queue -/

theorem held_release (q : Nat) (t : List Event) :
    held p (.release q :: t) = (decide (q ≠ p) && held p t) := rfl

theorem unanswered_dispatch (q : Nat) (t : List Event) :
    unanswered p (.dispatch q :: t) = (decide (q ≠ p) && unanswered p t) := rfl

theorem Inv.release (I : Inv s) (p : Nat) : Inv (s.release p) := by
  rw [State.release]
  split
  · rename_i hp
    refine ⟨{ I.marks with answered := ?_, queued := ?_, nodup := ?_ },
      { I.memory with slots := ?_, created := ?_ }⟩
    · intro q hq
      change held q (.release p :: s.trace) = true at hq
      rw [held_release, Bool.and_eq_true] at hq
      exact I.marks.answered hq.2
    · intro q hq
      change held q (.release p :: s.trace) = false ∧ unanswered q s.trace = true
      rw [held_release]
      rcases List.mem_append.mp hq with hq | hq
      · obtain ⟨h, h'⟩ := I.marks.queued hq
        exact ⟨by rw [h, Bool.and_false], h'⟩
      · obtain rfl := List.mem_singleton.mp hq
        exact ⟨by simp, I.marks.answered hp⟩
    · refine List.nodup_append.mpr ⟨I.marks.nodup, List.nodup_cons.mpr ⟨nofun, .nil⟩, ?_⟩
      rintro q hq _ hp' rfl
      obtain rfl := List.mem_singleton.mp hp'
      exact absurd hp (by simp [(I.marks.queued hq).1])
    · intro k m h i
      obtain ⟨hd, q, hq, hc⟩ := I.memory.slots h i
      exact ⟨hd, q, hq, List.mem_cons_of_mem _ hc⟩
    · intro q b h
      exact I.memory.created (by simpa using h)
  · exact I

theorem release_surfaces (s : State) (p : Nat) : (s.release p).surfaces = s.surfaces := by
  rw [State.release]
  split
  · rfl
  · rfl

theorem mark_layout (k : Nat) (i : Fin 3) (b : Bool) (k' : Nat) : Surface.Layout (s.surfaces k')
    ((s.setBuffer k i { (s.surfaces k).wlBuffers i with busy := b }).surfaces k') := by
  rw [State.setBuffer, State.setSurface]
  dsimp only
  by_cases hk : k' = k
  · subst hk
    rw [Function.update_self]
    refine ⟨fun j => ?_, fun j => ?_, Eq.refl _, Eq.refl _, Eq.refl _, Eq.refl _⟩
    · by_cases hj : j = i
      · subst hj
        simp [Surface.proxy]
      · simp [Surface.proxy, hj]
    · by_cases hj : j = i
      · subst hj
        simp
      · simp [hj]
  · rw [Function.update_of_ne hk]
    exact .rfl

theorem mark_busy (k : Nat) (i : Fin 3) (b : Bool) (k' : Nat) (j : Fin 3) :
    (((s.setBuffer k i { (s.surfaces k).wlBuffers i with busy := b }).surfaces
    k').wlBuffers j).busy =
      if k' = k ∧ j = i then b else ((s.surfaces k').wlBuffers j).busy := by
  rw [State.setBuffer, State.setSurface]
  dsimp only
  by_cases hk : k' = k
  · subst hk
    rw [Function.update_self]
    by_cases hj : j = i
    · subst hj
      simp
    · simp [hj]
  · rw [Function.update_of_ne hk, if_neg (fun h => hk h.1)]

/-- An event that is taken off the queue and delivered. -/
theorem Inv.deliver {queue : List Nat} (I : Inv s) (h : s.queue = p :: queue) :
    Inv ({ s with queue := queue }.deliver p) := by
  have hn := I.marks.nodup
  rw [h, List.nodup_cons] at hn
  have hq : ∀ {q}, q ∈ queue → q ∈ s.queue := fun hq => h ▸ List.mem_cons_of_mem _ hq
  have hp : held p s.trace = false := (I.marks.queued (h ▸ List.mem_cons_self)).1
  rw [State.deliver]
  split
  · exact ⟨{ I.marks with queued := fun h => I.marks.queued (hq h), nodup := hn.2 },
      { I.memory with }⟩
  · rename_i k i hl
    have hl := I.marks.listens hl
    refine ⟨?_,
    I.memory.of_layout (mark_layout k i false) (Eq.refl _) (Eq.refl _)
    (by simp [State.log, State.setBuffer, State.setSurface]) I.memory.clean⟩
    have L := mark_layout (s := s) k i false
    refine ⟨?_, ?_, ?_, ?_, ?_, ?_, ?_, hn.2⟩
    · intro k' j q h
      exact I.marks.fresh (((L k').proxy j).symm.trans h)
    · intro k₁ i₁ k₂ i₂ q h₁ h₂
      exact I.marks.one (((L k₁).proxy i₁).symm.trans h₁) (((L k₂).proxy i₂).symm.trans h₂)
    · intro k' j q h
      exact ((L k').proxy j).trans (I.marks.listens h)
    · intro k' j q h
      have h' : (s.surfaces k').proxy j = some q := ((L k').proxy j).symm.trans h
      refine (mark_busy ..).trans ?_
      change _ = unanswered q (.dispatch p :: s.trace)
      rw [unanswered_dispatch]
      split
      · rename_i e
        obtain ⟨rfl, rfl⟩ := e
        have e : p = q := Option.some.inj (hl.symm.trans h')
        simp [e]
      · rename_i e
        have hne : p ≠ q := by
          rintro rfl
          exact e (I.marks.one h' hl)
        rw [decide_eq_true hne, Bool.true_and]
        exact I.marks.busy h'
    · intro q hq
      change unanswered q (.dispatch p :: s.trace) = true at hq
      rw [unanswered_dispatch, Bool.and_eq_true] at hq
      exact I.marks.committed hq.2
    · intro q hq
      change unanswered q (.dispatch p :: s.trace) = true
      rw [unanswered_dispatch, Bool.and_eq_true]
      refine ⟨?_, I.marks.answered hq⟩
      have hne : p ≠ q := by
        rintro rfl
        exact absurd (hp.symm.trans hq) (by simp)
      exact decide_eq_true hne
    · intro q hqq
      change held q s.trace = false ∧ unanswered q (.dispatch p :: s.trace) = true
      obtain ⟨h₁, h₂⟩ := I.marks.queued (hq hqq)
      have hne : p ≠ q := by
        rintro rfl
        exact hn.1 hqq
      exact ⟨h₁, by rw [unanswered_dispatch, decide_eq_true hne, Bool.true_and, h₂]⟩

/-- What a dispatch and a round trip leave as it was. -/
structure Waited (s s' : State) : Prop where
  inv : Inv s'
  layout : ∀ k, Surface.Layout (s.surfaces k) (s'.surfaces k)
  window : ∀ k, (s'.surfaces k).wlWindow = (s.surfaces k).wlWindow

theorem Waited.refl (I : Inv s) : Waited s s := ⟨I, fun _ => .rfl, fun _ => rfl⟩

theorem Waited.trans {s'' : State} (W : Waited s s') (W' : Waited s' s'') : Waited s s'' :=
  ⟨W'.inv, fun k => (W.layout k).trans (W'.layout k), fun k => (W'.window k).trans (W.window k)⟩

theorem setSurface_self (s : State) (k : Nat) (surface : Surface) :
    (s.setSurface k surface).surfaces k = surface := Function.update_self ..

theorem setSurface_of_ne {k' : Nat} (h : k' ≠ k) (s : State) (surface : Surface) :
    (s.setSurface k surface).surfaces k' = s.surfaces k' := Function.update_of_ne h ..

theorem deliver_layout (s : State) (p k : Nat) :
    Surface.Layout (s.surfaces k) ((s.deliver p).surfaces k) := by
  rw [State.deliver]
  split
  · exact .rfl
  · exact mark_layout ..

theorem deliver_window (s : State) (p k : Nat) :
    ((s.deliver p).surfaces k).wlWindow = (s.surfaces k).wlWindow := by
  rw [State.deliver]
  split
  · rfl
  · rename_i k' i _
    by_cases hk : k = k'
    · subst hk
      exact (congrArg Surface.wlWindow (setSurface_self ..)).trans rfl
    · exact congrArg Surface.wlWindow (setSurface_of_ne hk ..)

theorem Inv.dispatch (I : Inv s) (count : Nat) : Waited s (s.dispatch count) := by
  induction count generalizing s with
  | zero => exact .refl I
  | succ count ih =>
    rw [State.dispatch]
    split
    · exact .refl I
    · rename_i p queue hq
      have I' := I.deliver hq
      exact Waited.trans ⟨I', deliver_layout { s with queue := queue } p,
        deliver_window { s with queue := queue } p⟩ (ih I')

theorem Inv.releases (I : Inv s) (releases : List Nat) :
    Waited s (releases.foldl State.release s) := by
  induction releases generalizing s with
  | nil => exact .refl I
  | cons p releases ih =>
    have h : Waited s (s.release p) :=
      ⟨I.release p, fun k => by rw [release_surfaces]; exact .rfl,
        fun k => by rw [release_surfaces]⟩
    exact h.trans (ih h.inv)

theorem Inv.roundtripQueue {b : Bool} (I : Inv s) (trip : Trip)
    (h : roundtripQueue trip s = (b, s')) : Waited s s' := by
  have W := I.releases trip.releases
  rw [Presentation.roundtripQueue] at h
  split at h
  · obtain ⟨-, rfl⟩ := Prod.mk.inj h
    exact W.trans (W.inv.dispatch _)
  · obtain ⟨-, rfl⟩ := Prod.mk.inj h
    exact W.trans (W.inv.dispatch _)

/-! ## Changes of one surface -/

theorem setSurface_layout {surface : Surface} (L : Surface.Layout (s.surfaces k) surface)
    (k' : Nat) : Surface.Layout (s.surfaces k') ((s.setSurface k surface).surfaces k') := by
  by_cases hk : k' = k
  · subst hk
    rw [setSurface_self]
    exact L
  · rw [setSurface_of_ne hk]
    exact .rfl

theorem Inv.setSurface (I : Inv s) {surface : Surface} (L : Surface.Layout (s.surfaces k) surface)
    (hb : surface.wlBuffers = (s.surfaces k).wlBuffers) : Inv (s.setSurface k surface) := by
  have L' := setSurface_layout L
  have hb' (k' : Nat) : ((s.setSurface k surface).surfaces k').wlBuffers =
      (s.surfaces k').wlBuffers := by
    by_cases hk : k' = k
    · subst hk
      rw [setSurface_self, hb]
    · rw [setSurface_of_ne hk]
  refine ⟨{ I.marks with fresh := ?_, one := ?_, listens := ?_, busy := ?_ },
    I.memory.of_layout L' rfl rfl Iff.rfl I.memory.clean⟩
  · intro k' i p h
    exact I.marks.fresh (((L' k').proxy i).symm.trans h)
  · intro k₁ i₁ k₂ i₂ p h₁ h₂
    exact I.marks.one (((L' k₁).proxy i₁).symm.trans h₁) (((L' k₂).proxy i₂).symm.trans h₂)
  · intro k' i p h
    exact ((L' k').proxy i).trans (I.marks.listens h)
  · intro k' i p h
    rw [hb']
    exact I.marks.busy (((L' k').proxy i).symm.trans h)

theorem Inv.setWindow (I : Inv s) (k : Nat) (window : Option Window) :
    Inv (s.setSurface k { s.surfaces k with wlWindow := window }) :=
  I.setSurface ⟨fun _ => rfl, fun _ => rfl, rfl, rfl, rfl, rfl⟩ rfl

/-! ## The search -/

theorem freeBuffer_some {surface : Surface} (h : freeBuffer surface = some i) :
    (surface.wlBuffers i).busy = false := by
  have h := List.find?_some h
  simpa using h

theorem freeBuffer_none {surface : Surface} (h : freeBuffer surface = none) (i : Fin 3) :
    (surface.wlBuffers i).busy = true := by
  rw [freeBuffer, List.find?_eq_none] at h
  have hi : i ∈ [0, 1, 2].map (surface.wlNextBuffer + ·) := by
    refine List.mem_map.mpr ⟨i - surface.wlNextBuffer, ?_, ?_⟩
    · generalize i - surface.wlNextBuffer = j
      match j with
      | 0 => simp
      | 1 => simp
      | 2 => simp
    · have h : ∀ a b : Fin 3, a + (b - a) = b := by decide
      exact h ..
  simpa using h i hi

/-- The search waits, and the buffer it finds is not busy. -/
theorem findBuffer_spec {trips : List Trip} {r : Except Outcome (Fin 3)} (I : Inv s)
    (h : findBuffer k trips s = (r, s')) :
    Waited s s' ∧ ∀ i, r = .ok i → ((s'.surfaces k).wlBuffers i).busy = false := by
  induction trips generalizing s with
  | nil =>
    obtain ⟨rfl, rfl⟩ := Prod.mk.inj h
    exact ⟨.refl I, nofun⟩
  | cons trip trips ih =>
    rw [findBuffer] at h
    split at h
    · rename_i j hj
      obtain ⟨rfl, rfl⟩ := Prod.mk.inj h
      have L : Surface.Layout (s.surfaces k) { s.surfaces k with wlNextBuffer := j + 1 } :=
        ⟨fun _ => rfl, fun _ => rfl, rfl, rfl, rfl, rfl⟩
      refine ⟨⟨I.setSurface L rfl, setSurface_layout L, fun k' => ?_⟩, ?_⟩
      · by_cases hk : k' = k
        · subst hk
          rw [setSurface_self]
        · rw [setSurface_of_ne hk]
      · intro i hi
        obtain rfl := Except.ok.inj hi
        rw [setSurface_self]
        change ((s.surfaces k).wlBuffers j).busy = false
        exact freeBuffer_some hj
    · cases hr : roundtripQueue trip s with
      | mk b s₁ =>
        rw [hr] at h
        have W := I.roundtripQueue trip hr
        cases b with
        | false =>
          obtain ⟨rfl, rfl⟩ := Prod.mk.inj h
          exact ⟨W, nofun⟩
        | true =>
          obtain ⟨W', hb⟩ := ih W.inv h
          exact ⟨W.trans W', hb⟩

/-! ## Creation -/

/-- The buffers of `k` that are still to be made in a new map are `is`. -/
structure Building (s : State) (k map oneSize : Nat) (is : List (Fin 3)) : Prop where
  inv : Inv s
  own : (s.surfaces k).wlMap = none
  fresh : map < s.nextMap ∧ ∀ k', (s.surfaces k').wlMap ≠ some map
  todo : ∀ i ∈ is, (s.surfaces k).proxy i = none
  made : ∀ i, i ∉ is → ((s.surfaces k).wlBuffers i).data = some (map, oneSize * i) ∧
    ∃ p, (s.surfaces k).proxy i = some p ∧ .create p ⟨map, oneSize * i, oneSize⟩ ∈ s.trace
  only : ∀ {p b}, .create p b ∈ s.trace → b.map = map →
    ∃ i, i ∉ is ∧ (s.surfaces k).proxy i = some p ∧ b = ⟨map, oneSize * i, oneSize⟩

theorem setBuffer_surface (s : State) (k : Nat) (i : Fin 3) (b : Buffer) :
    (s.setBuffer k i b).surfaces k = { s.surfaces k with
      wlBuffers := Function.update (s.surfaces k).wlBuffers i b } := setSurface_self ..

theorem setBuffer_map (s : State) (k : Nat) (i : Fin 3) (b : Buffer) (k' : Nat) :
    ((s.setBuffer k i b).surfaces k').wlMap = (s.surfaces k').wlMap := by
  by_cases hk : k' = k
  · subst hk
    rw [setBuffer_surface]
  · rw [State.setBuffer, setSurface_of_ne hk]

theorem setBuffer_proxy (s : State) (k : Nat) (i : Fin 3) (b : Buffer) (k' : Nat) (j : Fin 3) :
    ((s.setBuffer k i b).surfaces k').proxy j =
      if k' = k ∧ j = i then b.proxy else (s.surfaces k').proxy j := by
  by_cases hk : k' = k
  · subst hk
    rw [setBuffer_surface, Surface.proxy]
    by_cases hj : j = i
    · subst hj
      simp
    · simp [hj, Surface.proxy]
  · rw [State.setBuffer, setSurface_of_ne hk, if_neg (fun h => hk h.1)]

theorem Memory.setBuffer (M : Memory s) (hm : (s.surfaces k).wlMap = none) (i : Fin 3)
    (b : Buffer) :
    Memory (s.setBuffer k i b) := by
  -- what has a map is another surface
  have hs {k' m : Nat} (h : ((s.setBuffer k i b).surfaces k').wlMap = some m) :
      (s.setBuffer k i b).surfaces k' = s.surfaces k' := by
    rw [setBuffer_map] at h
    refine setSurface_of_ne ?_ ..
    rintro rfl
    exact nomatch hm.symm.trans h
  refine ⟨?_, ?_, ?_, ?_, ?_, M.clean⟩
  · intro k' m h
    rw [hs h] at h
    exact M.fresh h
  · intro k₁ k₂ m h₁ h₂
    rw [hs h₁] at h₁
    rw [hs h₂] at h₂
    exact M.one h₁ h₂
  · intro k' m h
    have e := hs h
    rw [e] at h ⊢
    exact M.size h
  · intro k' m h j
    have e := hs h
    rw [e] at h ⊢
    exact M.slots h j
  · intro p m h
    obtain ⟨hp, hb, h⟩ := M.created h
    refine ⟨hp, hb, fun k' hk => ?_⟩
    have e := hs hk
    rw [e] at hk ⊢
    exact h k' hk

/-- The request for a buffer in a map that is no surface's yet. -/
theorem Memory.create (M : Memory s) {m : Span} (hm : m.map < s.nextMap)
    (hn : ∀ k', (s.surfaces k').wlMap ≠ some m.map) :
    Memory ({ s with nextProxy := s.nextProxy + 1 }.log (.create s.nextProxy m)) := by
  refine { M with slots := ?_, created := ?_ }
  · intro k' m' h j
    obtain ⟨hd, p, hp, hc⟩ := M.slots h j
    exact ⟨hd, p, hp, List.mem_cons_of_mem _ hc⟩
  · intro p b h
    rcases List.mem_cons.mp h with e | h
    · obtain ⟨rfl, rfl⟩ := Event.create.inj e
      exact ⟨Nat.lt_succ_self _, hm, fun k' hk => absurd hk (hn k')⟩
    · obtain ⟨hp, hb, h⟩ := M.created h
      exact ⟨Nat.lt_succ_of_lt hp, hb, h⟩

theorem Marks.create (M : Marks s) (m : Span) :
    Marks ({ s with nextProxy := s.nextProxy + 1 }.log (.create s.nextProxy m)) :=
  { M with
    fresh := fun h => Nat.lt_succ_of_lt (M.fresh h)
    committed := fun h => Nat.lt_succ_of_lt (M.committed h) }

/-- An empty slot takes a proxy that is known nowhere else, or none. -/
theorem Marks.setBuffer (M : Marks s) (hi : (s.surfaces k).proxy i = none) {b : Buffer}
    (hb : b.busy = false) (hp : ∀ {p}, b.proxy = some p → p < s.nextProxy ∧
      (∀ k' j, (s.surfaces k').proxy j ≠ some p) ∧ unanswered p s.trace = false) :
    Marks (s.setBuffer k i b) := by
  refine { M with fresh := ?_, one := ?_, listens := ?_, busy := ?_ }
  · intro k' j p h
    rw [setBuffer_proxy] at h
    split at h
    · exact (hp h).1
    · exact M.fresh h
  · intro k₁ i₁ k₂ i₂ p h₁ h₂
    rw [setBuffer_proxy] at h₁ h₂
    split at h₁ <;> split at h₂
    · rename_i e₁ e₂
      exact ⟨e₁.1.trans e₂.1.symm, e₁.2.trans e₂.2.symm⟩
    · exact absurd h₂ ((hp h₁).2.1 k₂ i₂)
    · exact absurd h₁ ((hp h₂).2.1 k₁ i₁)
    · exact M.one h₁ h₂
  · intro k' j p h
    have hl := M.listens h
    rw [setBuffer_proxy, if_neg]
    · exact hl
    · rintro ⟨rfl, rfl⟩
      exact nomatch hi.symm.trans hl
  · intro k' j p h
    rw [setBuffer_proxy] at h
    split at h
    · rename_i e
      obtain ⟨rfl, rfl⟩ := e
      rw [setBuffer_surface]
      dsimp only
      rw [Function.update_self, hb]
      exact (hp h).2.2.symm
    · rename_i e
      refine Eq.trans ?_ (M.busy h)
      by_cases hk : k' = k
      · subst hk
        rw [setBuffer_surface]
        dsimp only
        rw [Function.update_of_ne fun hj => e ⟨rfl, hj⟩]
      · rw [State.setBuffer, setSurface_of_ne hk]

theorem Inv.listen (I : Inv s) (h : (s.surfaces k).proxy i = some p) :
    Inv { s with listener := Function.update s.listener p (some (k, i)) } := by
  refine ⟨{ I.marks with listens := ?_ }, { I.memory with }⟩
  intro k' j q hq
  change Function.update s.listener p (some (k, i)) q = some (k', j) at hq
  by_cases e : q = p
  · subst e
    rw [Function.update_self] at hq
    obtain ⟨rfl, rfl⟩ := Prod.mk.inj (Option.some.inj hq)
    exact h
  · rw [Function.update_of_ne e] at hq
    exact I.marks.listens hq

/-- The slot of a buffer that has got a proxy. -/
theorem Building.create {map oneSize : Nat} {is : List (Fin 3)} (hn : (i :: is).Nodup)
    (B : Building s k map oneSize (i :: is)) :
    Building (({ s with nextProxy := s.nextProxy + 1 }.log
      (.create s.nextProxy ⟨map, oneSize * i, oneSize⟩)).setBuffer k i
        ⟨some s.nextProxy, some (map, oneSize * i), false⟩) k map oneSize is := by
  have hi := B.todo i List.mem_cons_self
  have hn := List.nodup_cons.mp hn
  have hnp : ∀ k' j, (s.surfaces k').proxy j ≠ some s.nextProxy :=
    fun k' j h => absurd (B.inv.marks.fresh h) (Nat.lt_irrefl _)
  refine ⟨⟨(B.inv.marks.create _).setBuffer hi rfl ?_,
    (B.inv.memory.create B.fresh.1 B.fresh.2).setBuffer B.own ..⟩, ?_, ?_, ?_, ?_, ?_⟩
  · intro p h
    obtain rfl := Option.some.inj h
    refine ⟨Nat.lt_succ_self _, hnp, ?_⟩
    change unanswered s.nextProxy s.trace = false
    refine Bool.eq_false_iff.mpr fun h => ?_
    exact absurd (B.inv.marks.committed h) (Nat.lt_irrefl _)
  · rw [setBuffer_map]
    exact B.own
  · refine ⟨B.fresh.1, fun k' => ?_⟩
    rw [setBuffer_map]
    exact B.fresh.2 k'
  · intro j hj
    rw [setBuffer_proxy, if_neg]
    · exact B.todo j (List.mem_cons_of_mem _ hj)
    · rintro ⟨-, rfl⟩
      exact hn.1 hj
  · intro j hj
    rw [setBuffer_proxy]
    by_cases e : j = i
    · subst e
      refine ⟨?_, s.nextProxy, if_pos ⟨rfl, rfl⟩, List.mem_cons_self⟩
      rw [setBuffer_surface]
      dsimp only
      rw [Function.update_self]
    · obtain ⟨hd, p, hp, hc⟩ := B.made j (by simp [e, hj])
      refine ⟨?_, p, ?_, List.mem_cons_of_mem _ hc⟩
      · rw [setBuffer_surface]
        dsimp only
        rw [Function.update_of_ne e]
        exact hd
      · rw [if_neg fun h => e h.2]
        exact hp
  · intro p b h hb
    rcases List.mem_cons.mp h with e | h
    · obtain ⟨rfl, rfl⟩ := Event.create.inj e
      refine ⟨i, hn.1, ?_, rfl⟩
      rw [setBuffer_proxy, if_pos ⟨rfl, rfl⟩]
    · obtain ⟨j, hj, hp, e⟩ := B.only h hb
      rw [List.mem_cons, not_or] at hj
      refine ⟨j, hj.2, ?_, e⟩
      rw [setBuffer_proxy, if_neg fun h => hj.1 h.2]
      exact hp

theorem createBuffers_spec {answers : Fin 3 → Bool × Bool} {map oneSize : Nat} {is : List (Fin 3)}
    {b : Bool} (hn : is.Nodup) (B : Building s k map oneSize is)
    (h : createBuffers answers k map oneSize is s = (b, s')) :
    Inv s' ∧ (b = true → Building s' k map oneSize []) := by
  induction is generalizing s with
  | nil =>
    obtain ⟨rfl, rfl⟩ := Prod.mk.inj h
    exact ⟨B.inv, fun _ => B⟩
  | cons i is ih =>
    rw [createBuffers] at h
    split at h
    · obtain ⟨rfl, rfl⟩ := Prod.mk.inj h
      have hi := B.todo i List.mem_cons_self
      exact ⟨⟨B.inv.marks.setBuffer hi rfl nofun, B.inv.memory.setBuffer B.own ..⟩, nofun⟩
    · have B' := B.create hn
      dsimp only at h
      split at h
      · obtain ⟨rfl, rfl⟩ := Prod.mk.inj h
        exact ⟨B'.inv, nofun⟩
      · refine ih (List.nodup_cons.mp hn).2 ?_ h
        have hp : (((({ s with nextProxy := s.nextProxy + 1 } : State).log
            (.create s.nextProxy ⟨map, oneSize * i, oneSize⟩)).setBuffer k i
            ⟨some s.nextProxy, some (map, oneSize * i), false⟩).surfaces k).proxy i =
            some s.nextProxy := by
          rw [setBuffer_proxy, if_pos ⟨rfl, rfl⟩]
        exact { B' with inv := B'.inv.listen hp }

/-- The map of a surface makes no difference to its destruction. -/
theorem destroyWaylandBuffers_setMap (k : Nat) (s : State) (map : Option Nat) (size : Nat) :
    destroyWaylandBuffers k (s.setSurface k { s.surfaces k with wlMap := map, wlMapSize := size }) =
      destroyWaylandBuffers k s := by
  rw [destroyWaylandBuffers_eq, destroyWaylandBuffers_eq, setSurface_self]
  simp only [State.setSurface, Function.update_idem, Surface.proxies]
  rfl

/-- The three buffers have been made, so the surface gets their map. -/
theorem Building.finish {map stride height width size : Nat}
    (B : Building s k map (stride * height) []) (hs : stride = width * 4) (hh : 0 < height) :
    Inv (s.setSurface k { s.surfaces k with
      wlMap := some map, wlMapSize := size, wlStride := stride, wlWidth := width,
      wlHeight := height }) := by
  set surface : Surface := { s.surfaces k with
      wlMap := some map, wlMapSize := size, wlStride := stride, wlWidth := width,
      wlHeight := height } with hd
  have hb (k' : Nat) : ((s.setSurface k surface).surfaces k').wlBuffers =
      (s.surfaces k').wlBuffers := by
    by_cases hk : k' = k
    · subst hk
      rw [setSurface_self]
    · rw [setSurface_of_ne hk]
  have hp (k' : Nat) (i : Fin 3) : ((s.setSurface k surface).surfaces k').proxy i =
      (s.surfaces k').proxy i := by
    rw [Surface.proxy, hb, Surface.proxy]
  refine ⟨{ B.inv.marks with fresh := ?_, one := ?_, listens := ?_, busy := ?_ },
    ⟨?_, ?_, ?_, ?_, ?_, B.inv.memory.clean⟩⟩
  · intro k' i p h
    exact B.inv.marks.fresh ((hp k' i).symm.trans h)
  · intro k₁ i₁ k₂ i₂ p h₁ h₂
    exact B.inv.marks.one ((hp k₁ i₁).symm.trans h₁) ((hp k₂ i₂).symm.trans h₂)
  · intro k' i p h
    exact (hp k' i).trans (B.inv.marks.listens h)
  · intro k' i p h
    rw [hb]
    exact B.inv.marks.busy ((hp k' i).symm.trans h)
  · intro k' m h
    by_cases hk : k' = k
    · subst hk
      rw [setSurface_self] at h
      obtain rfl := Option.some.inj h
      exact B.fresh.1
    · rw [setSurface_of_ne hk] at h
      exact B.inv.memory.fresh h
  · intro k₁ k₂ m h₁ h₂
    by_cases hk₁ : k₁ = k <;> by_cases hk₂ : k₂ = k
    · exact hk₁.trans hk₂.symm
    · subst hk₁
      rw [setSurface_self] at h₁
      rw [setSurface_of_ne hk₂] at h₂
      exact absurd (h₂.trans h₁.symm) (B.fresh.2 k₂)
    · subst hk₂
      rw [setSurface_self] at h₂
      rw [setSurface_of_ne hk₁] at h₁
      exact absurd (h₁.trans h₂.symm) (B.fresh.2 k₁)
    · rw [setSurface_of_ne hk₁] at h₁
      rw [setSurface_of_ne hk₂] at h₂
      exact B.inv.memory.one h₁ h₂
  · intro k' m h
    by_cases hk : k' = k
    · subst hk
      rw [setSurface_self]
      exact ⟨hs, hh⟩
    · rw [setSurface_of_ne hk] at h ⊢
      exact B.inv.memory.size h
  · intro k' m h i
    by_cases hk : k' = k
    · subst hk
      rw [setSurface_self] at h ⊢
      obtain rfl := Option.some.inj h
      exact B.made i List.not_mem_nil
    · rw [setSurface_of_ne hk] at h ⊢
      exact B.inv.memory.slots h i
  · intro p b h
    obtain ⟨h₁, h₂, h₃⟩ := B.inv.memory.created h
    refine ⟨h₁, h₂, fun k' hk' => ?_⟩
    by_cases hk : k' = k
    · subst hk
      rw [setSurface_self] at hk' ⊢
      have hm : b.map = map := (Option.some.inj hk').symm
      obtain ⟨i, -, hi, e⟩ := B.only h hm
      exact ⟨i, hi, e.trans (by rw [hm]; rfl)⟩
    · rw [setSurface_of_ne hk] at hk' ⊢
      exact h₃ k' hk'

/-- `create_wayland_buffers` gives the surface buffers of the size, or none. -/
theorem createWaylandBuffers_spec {answers : Creation} {width height : Nat} {b : Bool} (I : Inv s)
    (h : createWaylandBuffers answers k width height s = (b, s')) :
    Inv s' ∧ (b = true → (s'.surfaces k).wlMap ≠ none ∧ (s'.surfaces k).wlWidth = width ∧
      (s'.surfaces k).wlHeight = height) := by
  have I₁ := I.destroy k
  have hk := destroyed_surface k s
  rw [createWaylandBuffers] at h
  generalize destroyWaylandBuffers k s = s₁ at I₁ hk h
  dsimp only at h
  split at h
  · obtain ⟨rfl, rfl⟩ := Prod.mk.inj h
    exact ⟨I₁, nofun⟩
  rename_i hsize
  split at h
  · obtain ⟨rfl, rfl⟩ := Prod.mk.inj h
    exact ⟨I₁, nofun⟩
  split at h
  · obtain ⟨rfl, rfl⟩ := Prod.mk.inj h
    exact ⟨I₁, nofun⟩
  have I₂ : Inv { s₁ with nextMap := s₁.nextMap + 1 } :=
    ⟨{ I₁.marks with }, { I₁.memory with
      fresh := fun h => Nat.lt_succ_of_lt (I₁.memory.fresh h)
      created := fun h => ⟨(I₁.memory.created h).1, Nat.lt_succ_of_lt (I₁.memory.created h).2.1,
        (I₁.memory.created h).2.2⟩ }⟩
  split at h
  · obtain ⟨rfl, rfl⟩ := Prod.mk.inj h
    exact ⟨I₂, nofun⟩
  have B : Building { s₁ with nextMap := s₁.nextMap + 1 } k s₁.nextMap (width * 4 * height)
      [0, 1, 2] := by
    refine ⟨I₂, ?_, ⟨Nat.lt_succ_self _, ?_⟩, ?_, ?_, ?_⟩
    · change (s₁.surfaces k).wlMap = none
      rw [hk, Surface.blank]
    · intro k' e
      exact absurd (I₁.memory.fresh e) (Nat.lt_irrefl _)
    · intro i _
      change (s₁.surfaces k).proxy i = none
      rw [hk]
      rfl
    · intro i hi
      refine absurd ?_ hi
      match i with
      | 0 => simp
      | 1 => simp
      | 2 => simp
    · intro p b hc hm
      have hl := (I₁.memory.created hc).2.1
      rw [hm] at hl
      exact absurd hl (Nat.lt_irrefl _)
  generalize hc : createBuffers answers.buffers k s₁.nextMap (width * 4 * height) [0, 1, 2]
    { s₁ with nextMap := s₁.nextMap + 1 } = r at h
  obtain ⟨b', s₂⟩ := r
  obtain ⟨I₃, B'⟩ := createBuffers_spec (by decide) B hc
  cases b' with
  | false =>
    obtain ⟨rfl, rfl⟩ := Prod.mk.inj h
    rw [destroyWaylandBuffers_setMap]
    exact ⟨I₃.destroy k, nofun⟩
  | true =>
    obtain ⟨rfl, rfl⟩ := Prod.mk.inj h
    refine ⟨(B' rfl).finish rfl (by omega), fun _ => ?_⟩
    rw [setSurface_self]
    exact ⟨nofun, rfl, rfl⟩

/-! ## `present_wayland` -/

theorem prepare_spec {call : Call} {r : Except Outcome (Nat × Nat)} (I : Inv s)
    (h : prepare k call s = (r, s')) :
    Inv s' ∧ ∀ {width height}, r = .ok (width, height) → (s'.surfaces k).wlMap ≠ none ∧
      (s'.surfaces k).wlWidth = width ∧ (s'.surfaces k).wlHeight = height := by
  rw [prepare] at h
  split at h
  · obtain ⟨rfl, rfl⟩ := Prod.mk.inj h
    exact ⟨I, nofun⟩
  split at h
  · obtain ⟨rfl, rfl⟩ := Prod.mk.inj h
    exact ⟨I, nofun⟩
  rename_i resource _
  split at h
  · obtain ⟨rfl, rfl⟩ := Prod.mk.inj h
    exact ⟨I, nofun⟩
  have I' := (I.dispatch call.pending.1).inv
  generalize s.dispatch call.pending.1 = s₁ at I' h
  dsimp only at h
  split at h
  · obtain ⟨rfl, rfl⟩ := Prod.mk.inj h
    exact ⟨I', nofun⟩
  split at h
  · generalize hc : createWaylandBuffers call.creation k resource.width0.toNat
      resource.height0.toNat s₁ = c at h
    obtain ⟨b, s₂⟩ := c
    obtain ⟨I₂, hb⟩ := createWaylandBuffers_spec I' hc
    cases b with
    | false =>
      obtain ⟨rfl, rfl⟩ := Prod.mk.inj h
      exact ⟨I₂, nofun⟩
    | true =>
      obtain ⟨rfl, rfl⟩ := Prod.mk.inj h
      refine ⟨I₂, fun e => ?_⟩
      obtain ⟨rfl, rfl⟩ := Prod.mk.inj (Except.ok.inj e)
      exact hb rfl
  · rename_i hsize
    obtain ⟨rfl, rfl⟩ := Prod.mk.inj h
    refine ⟨I', fun e => ?_⟩
    obtain ⟨rfl, rfl⟩ := Prod.mk.inj (Except.ok.inj e)
    simpa [not_or] using hsize

/-- The buffers of a surface lie side by side. -/
theorem Surface.span_overlaps {surface : Surface} {m : Nat} {i j : Fin 3}
    (h : (surface.span m i).Overlaps (surface.span m j)) : i = j := by
  obtain ⟨-, byte, ⟨h₁, h₂⟩, h₃, h₄⟩ := h
  simp only [Surface.span] at h₁ h₂ h₃ h₄
  generalize surface.oneSize = n at h₁ h₂ h₃ h₄
  rw [← Nat.mul_succ] at h₂ h₄
  have hij : i.val < j.val + 1 := Nat.lt_of_mul_lt_mul_left (Nat.lt_of_le_of_lt h₁ h₄)
  have hji : j.val < i.val + 1 := Nat.lt_of_mul_lt_mul_left (Nat.lt_of_le_of_lt h₃ h₂)
  exact Fin.ext (by omega)

theorem Inv.writePixels {m width height : Nat} (I : Inv s) (hm : (s.surfaces k).wlMap = some m)
    (hw : (s.surfaces k).wlWidth = width) (hh : (s.surfaces k).wlHeight = height)
    (hb : ((s.surfaces k).wlBuffers i).busy = false) : Inv (writePixels k width height i s) := by
  obtain ⟨hs, hpos⟩ := I.memory.size hm
  obtain ⟨hd, p, hp, hc⟩ := I.memory.slots hm i
  have hsize : (s.surfaces k).wlStride * (height - 1) + width * 4 = (s.surfaces k).oneSize := by
    rw [← hw, ← hs, ← hh, Surface.oneSize, ← Nat.mul_succ, Nat.succ_eq_add_one,
      Nat.sub_add_cancel hpos]
  have hmem : ((s.surfaces k).wlBuffers i).data.map (fun data : Nat × Nat =>
      (⟨data.1, data.2, (s.surfaces k).wlStride * (height - 1) + width * 4⟩ : Span)) =
      some ((s.surfaces k).span m i) := by
    rw [hd, hsize]
    rfl
  rw [Presentation.writePixels, hmem]
  refine ⟨{ I.marks with }, { I.memory with slots := ?_, created := ?_, clean := ?_ }⟩
  · intro k' m' h j
    obtain ⟨hd, q, hq, hc⟩ := I.memory.slots h j
    exact ⟨hd, q, hq, List.mem_cons_of_mem _ hc⟩
  · intro q b h
    exact I.memory.created (by simpa [State.log] using h)
  · refine ⟨⟨p, _, rfl, hc, fun q b hq ho => ?_⟩, I.memory.clean⟩
    -- what overlaps the buffer is the buffer, which is not marked
    obtain ⟨-, -, h⟩ := I.memory.created hq
    have hbm : b.map = m := ho.1.symm
    rw [hbm] at h
    obtain ⟨j, hj, rfl⟩ := h k hm
    obtain rfl := Surface.span_overlaps ho
    have hu : unanswered q s.trace = false := (I.marks.busy hj).symm.trans hb
    exact Bool.eq_false_iff.mpr fun hh => Bool.eq_false_iff.mp hu (I.marks.answered hh)

theorem Inv.commitBuffer {width height : Nat} {window : Window} (I : Inv s)
    (hp : (s.surfaces k).proxy i = some p) (hb : ((s.surfaces k).wlBuffers i).busy = false) :
    Inv (commitBuffer k width height i window s) := by
  have hu : unanswered p s.trace = false := (I.marks.busy hp).symm.trans hb
  have hun (q : Nat) : unanswered q (.commit ((s.surfaces k).wlBuffers i).proxy window.dx window.dy
      (4 ≤ window.surfaceVersion) width height :: s.trace) =
      (decide (p = q) || unanswered q s.trace) := by
    rw [show ((s.surfaces k).wlBuffers i).proxy = some p from hp]
    rfl
  have hhe (q : Nat) : held q (.commit ((s.surfaces k).wlBuffers i).proxy window.dx window.dy
      (4 ≤ window.surfaceVersion) width height :: s.trace) =
      (decide (p = q) || held q s.trace) := by
    rw [show ((s.surfaces k).wlBuffers i).proxy = some p from hp]
    rfl
  have L := mark_layout (s := s) k i true
  suffices I' : Inv ((s.setBuffer k i { (s.surfaces k).wlBuffers i with busy := true }).log
      (.commit ((s.surfaces k).wlBuffers i).proxy window.dx window.dy (4 ≤ window.surfaceVersion)
        width height)) from I'.setWindow k _
  refine ⟨⟨?_, ?_, ?_, ?_, ?_, ?_, ?_, I.marks.nodup⟩,
    I.memory.of_layout L rfl rfl ?_ I.memory.clean⟩
  · intro k' j q h
    exact I.marks.fresh (((L k').proxy j).symm.trans h)
  · intro k₁ i₁ k₂ i₂ q h₁ h₂
    exact I.marks.one (((L k₁).proxy i₁).symm.trans h₁) (((L k₂).proxy i₂).symm.trans h₂)
  · intro k' j q h
    exact ((L k').proxy j).trans (I.marks.listens h)
  · intro k' j q h
    have h' : (s.surfaces k').proxy j = some q := ((L k').proxy j).symm.trans h
    refine (mark_busy ..).trans ?_
    refine Eq.trans ?_ (hun q).symm
    split
    · rename_i e
      obtain ⟨rfl, rfl⟩ := e
      have e : p = q := Option.some.inj (hp.symm.trans h')
      rw [decide_eq_true e, Bool.true_or]
    · rename_i e
      have hne : p ≠ q := by
        rintro rfl
        exact e (I.marks.one h' hp)
      rw [decide_eq_false hne, Bool.false_or]
      exact I.marks.busy h'
  · intro q hq
    have hq := (hun q).symm.trans hq
    rw [Bool.or_eq_true, decide_eq_true_iff] at hq
    rcases hq with rfl | hq
    · exact I.marks.fresh hp
    · exact I.marks.committed hq
  · intro q hq
    have hq := (hhe q).symm.trans hq
    refine (hun q).trans ?_
    rw [Bool.or_eq_true] at hq ⊢
    exact hq.imp_right I.marks.answered
  · intro q hq
    obtain ⟨h₁, h₂⟩ := I.marks.queued hq
    have hne : p ≠ q := by
      rintro rfl
      exact absurd (hu.symm.trans h₂) (by simp)
    refine ⟨(hhe q).trans ?_, (hun q).trans ?_⟩
    · rw [decide_eq_false hne, Bool.false_or, h₁]
    · rw [decide_eq_false hne, Bool.false_or, h₂]
  · intro q m
    refine ⟨fun h => ?_, fun h => List.mem_cons_of_mem _ h⟩
    rcases List.mem_cons.mp h with h | h
    · exact nomatch h
    · exact h

theorem Inv.presentWayland (I : Inv s) (k : Nat) (call : Call) :
    Inv (presentWayland k call s).2 := by
  rw [Presentation.presentWayland]
  generalize hr : prepare k call s = r
  obtain ⟨r, s₁⟩ := r
  obtain ⟨I₁, hsize⟩ := prepare_spec I hr
  cases r with
  | error => exact I₁
  | ok size =>
    obtain ⟨width, height⟩ := size
    obtain ⟨hm, hw, hh⟩ := hsize rfl
    dsimp only
    generalize hf : findBuffer k [call.trips 0, call.trips 1] s₁ = r
    obtain ⟨r, s₂⟩ := r
    obtain ⟨W, hb⟩ := findBuffer_spec I₁ hf
    cases r with
    | error => exact W.inv
    | ok index =>
      dsimp only
      split
      · exact W.inv
      have hb := hb index rfl
      obtain ⟨m, hm⟩ := Option.ne_none_iff_exists'.mp hm
      have hm : (s₂.surfaces k).wlMap = some m := ((W.layout k).wlMap).trans hm
      have I₂ := W.inv.writePixels hm (((W.layout k).wlWidth).trans hw)
        (((W.layout k).wlHeight).trans hh) hb
      split
      · exact I₂
      · obtain ⟨-, p, hp, -⟩ := I₂.memory.slots hm index
        exact I₂.commitBuffer hp hb

/-! ## Runs -/

theorem step_inv (a : Step) (I : Inv s) : Inv (step a s) := by
  cases a with
  | createSurface k window =>
    rw [step]
    split
    · exact I.setWindow k _
    · exact I
  | destroySurface k => exact (I.destroy k).setWindow k none
  | windowDestroyed k => exact I.setWindow k none
  | resize k dx dy => exact I.setWindow k _
  | present k call => exact I.presentWayland k call
  | release p => exact I.release p

theorem prepare_ne_retained {call : Call} : prepare k call s ≠ (.error .retained, s') := by
  intro h
  rw [prepare] at h
  split at h
  · exact nomatch h
  split at h
  · exact nomatch h
  split at h
  · exact nomatch h
  dsimp only at h
  split at h
  · exact nomatch h
  split at h
  · split at h
    · exact nomatch h
    · exact nomatch h
  · exact nomatch h

/-- The report that every buffer is retained follows a round trip after which all were busy. -/
theorem presentWayland_retained {call : Call} (h : presentWayland k call s = (.retained, s')) :
    ∃ size s₁ s₂, prepare k call s = (.ok size, s₁) ∧
    roundtripQueue (call.trips 0) s₁ = (true, s₂) ∧
      ∀ i, ((s₂.surfaces k).wlBuffers i).busy = true := by
  rw [presentWayland] at h
  generalize hr : prepare k call s = r at h
  obtain ⟨r, s₁⟩ := r
  cases r with
  | error outcome =>
    obtain ⟨rfl, rfl⟩ := Prod.mk.inj h
    exact absurd hr prepare_ne_retained
  | ok size =>
    refine ⟨size, s₁, ?_⟩
    obtain ⟨width, height⟩ := size
    dsimp only at h
    generalize hf : findBuffer k [call.trips 0, call.trips 1] s₁ = r at h
    obtain ⟨r, s₃⟩ := r
    cases r with
    | error outcome =>
      obtain ⟨rfl, rfl⟩ := Prod.mk.inj h
      rw [findBuffer] at hf
      split at hf
      · exact nomatch hf
      generalize hq : roundtripQueue (call.trips 0) s₁ = r at hf
      obtain ⟨b, s₂⟩ := r
      cases b with
      | false => exact nomatch hf
      | true =>
        refine ⟨s₂, rfl, rfl, freeBuffer_none ?_⟩
        dsimp only at hf
        rw [findBuffer] at hf
        split at hf
        · exact nomatch hf
        · assumption
    | ok index =>
      dsimp only at h
      split at h
      · exact nomatch h
      split at h
      · exact nomatch h
      · exact nomatch h

/-- In every run of presentations, resizes and releases: what a call writes is the memory of one
buffer, and of no buffer that was committed and not released since; a buffer is marked busy exactly
while no release of its last commit has been dispatched; and a call that reports every buffer
retained has found all of them busy after a round trip that it completed. -/
theorem exec_exclusive (steps : List Step) :
    let s := Run.exec step start steps
    (∀ later earlier memory, s.trace = later ++ .write memory :: earlier →
      ∃ p m, memory = some m ∧ .create p m ∈ earlier ∧
        ∀ q b, .create q b ∈ earlier → m.Overlaps b → held q earlier = false) ∧
      (∀ k i p, ((s.surfaces k).wlBuffers i).proxy = some p →
        ((s.surfaces k).wlBuffers i).busy = unanswered p s.trace) ∧
      ∀ k call s', presentWayland k call s = (.retained, s') →
        ∃ size s₁ s₂, prepare k call s = (.ok size, s₁) ∧
          roundtripQueue (call.trips 0) s₁ = (true, s₂) ∧
          ∀ i, ((s₂.surfaces k).wlBuffers i).busy = true := by
  intro s
  have I : Inv s := Run.invariant_of_step (fun _ a I => step_inv a I) steps start_inv
  refine ⟨fun later earlier memory h => ?_, fun k i p h => I.marks.busy h, fun k call s' h => ?_⟩
  · exact Clean.split (h ▸ I.memory.clean)
  · exact presentWayland_retained h

end Presentation

end IntelGfx
