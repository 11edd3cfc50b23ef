import IntelGfx.Verify.AddressSpace
import IntelGfx.Verify.Frame
import IntelGfx.Verify.Submission

/-!
# What the legacy page tables show

`kBindBuffer` enters a buffer into the page tables of the engines of a client, where it has an
address in the global GTT, and the other requests take it away again. So the engines show nothing
but what the client has bound, unless a `kBindBuffer` fails when an engine has mapped the buffer
already: it gives up the address, but leaves the engines as they are (`exec_isolated_iff`).
-/

namespace IntelGfx
open Memory RenderEngine

namespace Session
variable {ω : Oracle} {g : GlobalGTT} {s s' : Session} {r : Except Error Reply}

/-- `p` is the page at the address `a` of a buffer that the client has bound there. -/
def Backed (s : Session) (a p : Nat) : Prop := ∃ i o, s.client.buffers i = some o ∧
  s.mem.isBound o = true ∧ Entered (s.mem.graphicsAddress o) (s.mem.pages o) a p

/-- The engines of the client show nothing but what the client has bound. -/
def Isolated (s : Session) : Prop := ∀ e x pt, s.client.engines e = some x →
  s.mem.tables x.addressSpace = some pt → ∀ a, a < 2 ^ 48 →
    pt.translate a = pt.scratchPage ∨ s.Backed a (pt.translate a)

/-- A buffer of the client is still there, and where it was. -/
structure Stays (s s' : Session) (o : Owner) : Prop where
  slot : ∃ j, s'.client.buffers j = some o
  object : s'.mem.objects o = s.mem.objects o
  pages : s'.mem.pages o = s.mem.pages o

theorem Stays.backed {o : Owner} {a p : Nat} (h : Stays s s' o)
    (hb : s.mem.isBound o = true) (he : Entered (s.mem.graphicsAddress o) (s.mem.pages o) a p) :
    s'.Backed a p := by
  obtain ⟨j, hj⟩ := h.slot
  refine ⟨j, o, hj, ?_, ?_⟩
  · rwa [isBound, h.object]
  · rwa [Memory.graphicsAddress, h.object, h.pages]

/-- What an operation enters has to be bound, and where a buffer does not stay it has to be taken
away. -/
theorem Isolated.change {P : Owner → Nat → Nat → Nat → Prop} (L : s.Isolated)
    (hT : Retabled P s.mem s'.mem) (he : Aged s.client.engines s'.client.engines)
    (hP : ∀ {e x a t p}, s'.client.engines e = some x → P x.addressSpace a t p →
      p = t ∨ s'.Backed a p)
    (hkept : ∀ {i o}, s.client.buffers i = some o → s.mem.isBound o = true → Stays s s' o ∨
      ∀ {e x pt a p}, s'.client.engines e = some x → s'.mem.tables x.addressSpace = some pt →
        Entered (s.mem.graphicsAddress o) (s.mem.pages o) a p → pt.translate a = pt.scratchPage) :
    s'.Isolated := by
  intro e x' pt' hx' hpt' a ha
  obtain ⟨x, hx, heq, -⟩ := he.back hx'
  obtain ⟨pt, hpt, hscratch, htr⟩ := hT.back hpt'
  have hspace : x'.addressSpace = x.addressSpace := by rw [heq]
  rcases htr a ha with hsame | hp
  · rw [hspace] at hpt
    rcases L e x pt hx hpt a ha with h | ⟨i, o, ho, hb, hentered⟩
    · exact .inl (by rw [hsame, h, hscratch])
    · rcases hkept ho hb with hstays | hblank
      · exact .inr (hsame ▸ hstays.backed hb hentered)
      · exact .inl (hblank hx' hpt' hentered)
  · exact (hP hx' hp).imp_left fun h => h.trans hscratch.symm

theorem Isolated.idle (L : s.Isolated) (I : s.Inv g) (h : Idle s s') : s'.Isolated := by
  refine L.change (P := fun _ _ _ _ => False) (.of_eq h.mem.tables) (h.client ▸ .rfl)
    (fun _ => False.elim) fun {i o} ho _ =>
      .inl ⟨⟨i, by rwa [h.client]⟩, congrFun h.mem.objects o, ?_⟩
  have M : Moves g (fun _ => False) s.mem s'.mem := h.mem.moves I.mem
  exact M.pages I.mem id

/-! ## The requests -/

theorem createBuffer_isolated {size flags reserved : Nat} (I : s.Inv g) (L : s.Isolated)
    (h : s.createBuffer ω size flags reserved = (r, s')) : s'.Isolated := by
  rcases createBuffer_cases h with ⟨-, hidle⟩ | ⟨slot, m₁, r₁, m₂, hn, hpos, hmax, hlimit, hslot,
    hfree, I₁, hnew, h⟩
  · exact L.idle I hidle
  have M₁ : Moves g (· = .buffer s.client.id s.client.nextHandle) s.mem m₁ := I₁.moves I.mem
  have hfresh := I.client.holding.fresh hn
  obtain ⟨M₂, ht₂, -⟩ := newObject_spec M₁.inv (Owner.isObject_buffer _ _)
    ((congrFun I₁.objects _).trans hfresh) (pageRound_mod size) hnew
  have M₂ := M₁.trans M₂
  have ht₂ := ht₂.trans I₁.tables
  -- the buffers that were there are not the new one, and stay
  have hchange {s' : Session}
      (M : Moves g (· = .buffer s.client.id s.client.nextHandle) s.mem s'.mem)
      (ht : s'.mem.tables = s.mem.tables) (he : s'.client.engines = s.client.engines)
      (hb : ∀ {i o}, s.client.buffers i = some o → s'.client.buffers i = some o) :
      s'.Isolated := by
    refine L.change (P := fun _ _ _ _ => False) (.of_eq ht) (he ▸ .rfl) (fun _ => False.elim)
      fun {i o} ho _ => ?_
    have hne : o ≠ .buffer s.client.id s.client.nextHandle := by
      rintro rfl
      obtain ⟨-, -, -, bo, hbo, -⟩ := I.client.holding.slot ho
      cases hfresh.symm.trans hbo
    exact .inl ⟨⟨i, hb ho⟩, M.objects hne, M.pages I.mem hne⟩
  rcases h with ⟨-, rfl⟩ | ⟨-, m₃, I₃, h⟩
  · exact hchange M₂ ht₂ rfl id
  have M₃ := M₂.trans (I₃.moves M₂.inv)
  rcases h with ⟨-, rfl⟩ | ⟨-, rfl⟩
  · obtain ⟨M₄, ht₄, -⟩ := deleteObject_spec M₃.inv (.buffer s.client.id s.client.nextHandle)
    exact hchange (M₃.trans M₄) (ht₄.trans (I₃.tables.trans ht₂)) rfl id
  · refine hchange M₃ (I₃.tables.trans ht₂) rfl fun {i o} ho =>
      (Function.update_of_ne ?_ ..).trans ho
    rintro rfl
    cases hfree.symm.trans ho

/-- The engines of the client are all ready when no scheduler has faulted. -/
theorem Inv.ready (I : s.Inv g) (hf : ¬ Device.Faulted s.masters) {e : EngineId} {x : RenderEngine}
    (hx : s.client.engines e = some x) : x.isReady s.masters = true := by
  obtain ⟨-, hengine, -, hready, -⟩ := I.client.equipped.engine hx
  obtain ⟨y, hy, hxy⟩ := I.scheduled.engine hx
  have hy' : y.faulted = false := Bool.eq_false_iff.mpr fun h => hf ⟨e, y, hy, h⟩
  have hx' : x.faulted = false := Bool.eq_false_iff.mpr fun h => by
    rw [hxy h] at hy'
    cases hy'
  simp [RenderEngine.isReady, schedulerFaulted, hready, hx', hengine, hy, hy']

/-- The engines show nothing any more where a buffer was bound that has been unmapped. -/
theorem blank_of_unmapEngines {slot : Nat} {buffer : Owner} {m : Memory} (ω : Oracle) (I : s.Inv g)
    (hf : ¬ Device.Faulted s.masters) (hslot : s.client.buffers slot = some buffer)
    (hb : s.mem.isBound buffer = true) (H : m.Inv g) {e : EngineId} {x : RenderEngine}
    {pt : PageTables Owner} {a p : Nat} (hx : s.client.engines e = some x)
    (hpt : (unmapEngines ω (s.mem.graphicsAddress buffer) (s.mem.size buffer) s.readyEngines
      m).tables x.addressSpace = some pt)
    (ha : Entered (s.mem.graphicsAddress buffer) (s.mem.pages buffer) a p) :
    pt.translate a = pt.scratchPage := by
  obtain ⟨-, -, -, -, hblank⟩ := unmapEngines_spec ω s.readyEngines (s.mem.graphicsAddress buffer)
    (s.mem.size buffer) H
  obtain ⟨-, -, -, bo, hbo, hpos⟩ := I.client.holding.slot hslot
  obtain ⟨_, _, hshows⟩ := I.shown.shows hx (I.ready hf hx) hslot hb
  obtain ⟨-, -, -, hready, -⟩ := I.client.equipped.engine hx
  have hbound : bo.bound = true := by
    rw [isBound, hbo] at hb
    exact hb
  obtain ⟨first, haddr, -⟩ := I.mem.bound_at hbo hbound
  have hsize : s.mem.size buffer = (s.mem.pages buffer).length * 4096 := by
    rw [Memory.size, hbo]
    exact (I.mem.size_eq hbo).1
  have haligned : s.mem.graphicsAddress buffer % 4096 = 0 := by
    rw [Memory.graphicsAddress, hbo]
    dsimp only
    rw [haddr, Nat.mul_mod_left]
  have hpos' : 0 < s.mem.size buffer := by
    rw [Memory.size, hbo]
    exact hpos
  exact hblank x (readyEngines_mem hx (I.ready hf hx)) hready haligned hshows.limit hpos' pt hpt a
    (hsize ▸ ha.range)

theorem closeBuffer_isolated {handle reserved : Nat} (I : s.Inv g) (L : s.Isolated)
    (hf : ¬ Device.Faulted s.masters) (h : s.closeBuffer ω handle reserved = (r, s')) :
    s'.Isolated := by
  rcases closeBuffer_cases h with ⟨-, rfl⟩ | ⟨slot, buffer, r₁, s₁, hfind, hu, h⟩
  · exact L
  obtain ⟨-, -, hslot⟩ := find_some hfind
  have C := I.client
  obtain ⟨-, -, hbuffer, -⟩ := C.holding.slot hslot
  obtain ⟨hc, hm, M₁, hobj₁, hmach₁, hT₁, C₁⟩ := leaveEngines_spec ω I.mem C buffer
  have hslot₁ : (s.leaveEngines ω buffer).client.buffers slot = some buffer := by rwa [hc]
  have C₁ : (s.leaveEngines ω buffer).client.Inv (s.leaveEngines ω buffer).mem := by
    rw [hc]
    exact ⟨C₁.holding, C₁.equipped, C₁.native⟩
  obtain ⟨rfl, M₂, hobj₂, -, hc₂, -, -, -, hT₂⟩ := unmapVirtual_spec M₁.inv C₁ hslot₁ hu
  rcases h with ⟨⟨e, he, -⟩, -⟩ | ⟨-, -, rfl⟩
  · cases he
  rw [hc] at M₂ hc₂ hT₂
  obtain ⟨M₃, ht₃, hobj₃⟩ := deleteObject_spec M₂.inv buffer
  have M : Moves g (fun o => Spaces s.readyEngines o ∨ o = .vm s.client.id ∨ o = buffer) s.mem
      (s₁.mem.deleteObject buffer) :=
    (M₁.mono fun _ => .inl).trans ((M₂.mono fun _ h => .inr (.inl h)).trans
      (M₃.mono fun _ h => .inr (.inr h)))
  have hengines : s₁.client.engines = s.client.engines := by rw [hc₂]
  have hspace {e : EngineId} {x : RenderEngine} (hx : s₁.client.engines e = some x) :
      x.addressSpace ≠ .vm s.client.id := by
    obtain ⟨-, -, hspace, -⟩ := C.equipped.engine (hengines ▸ hx)
    rw [hspace]
    exact nofun
  have hT : Retabled (fun q x t p => p = t ∨ q = .vm s.client.id) s.mem
      (s₁.mem.deleteObject buffer) :=
    (hT₁.mono fun _ _ _ _ h => .inl h.2.2.2).trans
      ((hT₂.mono fun _ _ _ _ h => .inr h).trans (.of_eq ht₃))
  refine L.change hT (hengines ▸ .rfl) (fun hx h => .inl (h.resolve_right (hspace hx)))
    fun {i o} ho hb => ?_
  by_cases heq : o = buffer
  · subst heq
    refine .inr fun {e x pt a p} hx hpt ha => ?_
    rw [show (s₁.mem.deleteObject o).tables x.addressSpace = _ from (congrFun ht₃ _).trans
      (M₂.tables (hspace hx)), leaveEngines, if_pos hb] at hpt
    exact blank_of_unmapEngines ω I hf ho hb I.mem (hengines ▸ hx) hpt ha
  · have hk : ¬ (Spaces s.readyEngines o ∨ o = .vm s.client.id ∨ o = buffer) := by
      obtain ⟨-, -, howner, -⟩ := C.holding.slot ho
      rintro (h | rfl | h)
      · obtain ⟨e, he⟩ := spaces_readyEngines C h
        cases howner.symm.trans he
      · cases howner
      · exact heq h
    have hne : i ≠ slot := by
      rintro rfl
      exact heq (Option.some.inj (ho.symm.trans hslot))
    refine .inl ⟨⟨i, (Function.update_of_ne hne ..).trans ?_⟩, M.objects hk, M.pages I.mem hk⟩
    rw [hc₂]
    exact ho

theorem unbindBuffer_isolated {handle reserved : Nat} (I : s.Inv g) (L : s.Isolated)
    (hf : ¬ Device.Faulted s.masters) (h : s.unbindBuffer ω handle reserved = (r, s')) :
    s'.Isolated := by
  rcases unbindBuffer_cases h with ⟨-, rfl⟩ | ⟨slot, buffer, r₁, m₁, bound, hfind, hb,
    hu, -, rfl⟩
  · exact L
  obtain ⟨-, -, hslot⟩ := find_some hfind
  have C := I.client
  obtain ⟨-, -, -, bo, hbo, -⟩ := C.holding.slot hslot
  obtain ⟨bo', M₁, ht₁, -⟩ := unbindObject_spec I.mem hbo hu
  obtain ⟨M₂, -, -, hT₂, -⟩ := unmapEngines_spec ω s.readyEngines (s.mem.graphicsAddress buffer)
    (s.mem.size buffer) M₁.inv
  have M : Moves g (s.Around buffer) s.mem _ :=
    (M₁.mono fun _ => .inl).trans (M₂.mono fun _ => .inr)
  refine L.change ((Retabled.of_eq ht₁).trans hT₂) .rfl (fun _ h => .inl h.2.2)
    fun {i o} ho hbound => ?_
  by_cases heq : o = buffer
  · subst heq
    exact .inr fun hx hpt ha => blank_of_unmapEngines ω I hf ho hbound M₁.inv hx hpt ha
  · have hk : ¬ s.Around buffer o := by
      obtain ⟨-, -, howner, -⟩ := C.holding.slot ho
      rw [howner] at heq ⊢
      exact not_around C heq
    exact .inl ⟨⟨i, ho⟩, M.objects hk, M.pages I.mem hk⟩

theorem submit_isolated {handle flags offset length fence : Nat} (I : s.Inv g) (L : s.Isolated)
    (h : s.submit ω handle flags offset length fence = (r, s')) : s'.Isolated := by
  rcases submit_cases h with ⟨-, rfl⟩ | ⟨k, status, x', masters', m', hk, hs, -, hidle⟩
  · exact L
  obtain ⟨x, slot, buffer, hx, -, -, -, -, -, -, -, rfl⟩ := handSubmit_ok hk
  obtain ⟨e, hx, -⟩ := engine_some hx
  obtain ⟨-, -, hspace, -⟩ := I.client.equipped.engine hx
  obtain ⟨-, -, -, -, M, hobj, -, hT⟩ := submit_aged I.mem hs
  refine L.change (hT.trans (.of_eq hidle.mem.tables)) (submit_keeps I h).engines
    (fun _ => False.elim) fun {i o} ho _ => .inl ⟨⟨i, ?_⟩, ?_, ?_⟩
  · rw [hidle.client]
    exact ho
  · exact (congrFun hidle.mem.objects o).trans (congrFun hobj o)
  · have hne : o ≠ x.addressSpace := by
      obtain ⟨-, -, rfl, -⟩ := I.client.holding.slot ho
      rw [hspace]
      exact nofun
    have M' : Moves g (fun _ => False) m' s'.mem := hidle.mem.moves M.inv
    exact (M'.pages M.inv id).trans (M.pages I.mem hne)

/-! ## `kBindBuffer` -/

/-- `kBindBuffer` fails when an engine has mapped a page of the buffer: another engine cannot map it
all, or the caller cannot be told where it is. -/
def Abandons (ω : Oracle) (s : Session) (handle flags graphicsAddress : Nat) : Prop :=
  ∃ slot buffer m₁ r₂ done m₂, s.Bindable handle flags graphicsAddress slot buffer ∧
    s.mem.bindObject ω buffer = (.ok (), m₁) ∧
    mapEngines ω (m₁.area buffer) (m₁.graphicsAddress buffer) s.readyEngines m₁ =
      (r₂, done, m₂) ∧ done ≠ 0 ∧ (r₂ = .ok () → ∃ e, (m₂.userMemcpy ω).1 = .error e)

theorem bindBuffer_isolated {handle flags graphicsAddress : Nat} (I : s.Inv g) (L : s.Isolated)
    (ha : ¬ s.Abandons ω handle flags graphicsAddress)
    (h : s.bindBuffer ω handle flags graphicsAddress = (r, s')) : s'.Isolated := by
  rcases bindBuffer_cases h with ⟨-, rfl, -⟩ | ⟨slot, buffer, r₁, m₁, hbindable, hb, h⟩
  · exact L
  have hub := hbindable.unbound
  obtain ⟨-, -, hslot⟩ := find_some hbindable.found
  have C := I.client
  rcases h with ⟨⟨e, rfl, -⟩, rfl⟩ | ⟨rfl, r₂, done, m₂, m₃, hm, I₃, h⟩
  · obtain ⟨-, ht, S, herr, -⟩ := bindObject_spec I.mem hb
    exact L.idle I (idle_setMem ⟨S, (herr e rfl).1, ht, (herr e rfl).2⟩)
  obtain ⟨bo, first, B⟩ := bind_spec C I.mem hslot hb hm
  have M₃ := B.moves.trans (I₃.moves B.moves.inv)
  have hT₃ := B.tables.trans (.of_eq I₃.tables)
  have hbo₃ : m₃.objects buffer =
      some { bo with bound := true, graphicsAddress := s.mem.gtt.base + first * 4096 } := by
    rw [I₃.objects, B.objects, Function.update_self]
  have hstays {m : Memory} (M : Moves g (s.Around buffer) s.mem m) {i : Nat} {o : Owner}
      (ho : s.client.buffers i = some o) (hbound : s.mem.isBound o = true) :
      m.objects o = s.mem.objects o ∧ m.pages o = s.mem.pages o := by
    have hk : ¬ s.Around buffer o := by
      obtain ⟨-, -, howner, -⟩ := C.holding.slot ho
      rw [howner] at hbound ⊢
      refine not_around C ?_
      rintro rfl
      cases hub.symm.trans hbound
    exact ⟨M.objects hk, M.pages I.mem hk⟩
  rcases h with ⟨-, hfail, rfl⟩ | ⟨rfl, -, -, rfl⟩
  · generalize hu : m₃.unbindObject buffer = res
    obtain ⟨r₄, m₄⟩ := res
    obtain ⟨bo', M₄, ht₄, -⟩ := unbindObject_spec M₃.inv hbo₃ hu
    -- no engine has mapped anything
    have hdone : done = 0 := by
      by_contra hdone
      exact ha ⟨slot, buffer, m₁, r₂, done, m₂, hbindable, hb, hm, hdone, hfail⟩
    refine L.change (hT₃.trans (.of_eq ht₄)) .rfl (fun _ h => absurd hdone h.1)
      fun ho hbound => ?_
    obtain ⟨hobj, hpages⟩ := hstays (M₃.trans (M₄.mono fun _ => .inl)) ho hbound
    exact .inl ⟨⟨_, ho⟩, hobj, hpages⟩
  · refine L.change hT₃ .rfl (fun _ h => .inr ⟨slot, buffer, hslot, ?_, ?_⟩) fun ho hbound => ?_
    · rw [isBound, hbo₃]
      rfl
    · have hpages : m₃.pages buffer = s.mem.pages buffer := by
        rw [← B.pages]
        exact (I₃.moves (K := fun _ => False) B.moves.inv).pages B.moves.inv id
      rw [Memory.graphicsAddress, hbo₃, hpages]
      exact h.2.2
    · obtain ⟨hobj, hpages⟩ := hstays M₃ ho hbound
      exact .inl ⟨⟨_, ho⟩, hobj, hpages⟩

/-- The page is left in the page tables of an engine, and is not bound. -/
theorem not_isolated_of_abandons {handle flags graphicsAddress : Nat} (I : s.Inv g)
    (ha : s.Abandons ω handle flags graphicsAddress)
    (h : s.bindBuffer ω handle flags graphicsAddress = (r, s')) :
    s'.masters = s.masters ∧ ¬ s'.Isolated := by
  obtain ⟨slot, buffer, m₁, r₂, done, m₂, hbindable, hb, hm, hdone, hfail⟩ := ha
  rcases bindBuffer_cases h with ⟨-, -, hno⟩ | ⟨slot', buffer', r₁, m₁', hbindable', hb', h⟩
  · exact absurd hbindable (hno _ _)
  cases hbindable.found.symm.trans hbindable'.found
  cases hb.symm.trans hb'
  rcases h with ⟨⟨e, he, -⟩, -⟩ | ⟨-, r₂', done', m₂', m₃, hm', I₃, h⟩
  · cases he
  cases hm.symm.trans hm'
  rcases h with ⟨-, -, rfl⟩ | ⟨rfl, hok, -⟩
  case inr =>
    obtain ⟨e, he⟩ := hfail rfl
    cases he.symm.trans hok
  have C := I.client
  obtain ⟨-, -, hslot⟩ := find_some hbindable.found
  obtain ⟨bo, first, B⟩ := bind_spec C I.mem hslot hb hm
  obtain ⟨hlt, x, hx, pt, hpt, hentered⟩ := B.entered hdone
  obtain ⟨e, hx, -⟩ := mem_readyEngines hx
  have M₃ := B.moves.trans (I₃.moves B.moves.inv)
  have hbo₂ : m₂.objects buffer =
      some { bo with bound := true, graphicsAddress := s.mem.gtt.base + first * 4096 } := by
    rw [B.objects, Function.update_self]
  have hbo₃ := (congrFun I₃.objects buffer).trans hbo₂
  generalize hu : m₃.unbindObject buffer = res
  obtain ⟨r₄, m₄⟩ := res
  obtain ⟨bo', M₄, ht₄, -, hobj₄, hub₄, -⟩ := unbindObject_spec M₃.inv hbo₃ hu
  refine ⟨rfl, fun L => ?_⟩
  rcases L e x pt hx ((congrFun (ht₄.trans I₃.tables) _).trans hpt) _ hlt with
    hscratch | ⟨i, o, ho, hbound, ha⟩
  · have hfirst := hentered.2
    rw [Nat.sub_self, Nat.zero_div, hscratch, ← B.pages] at hfirst
    exact B.moves.inv.scratchPage_ne hpt hbo₂ hfirst
  -- no other buffer is bound there
  have hbound₄ : m₄.isBound o = true := hbound
  have hne : o ≠ buffer := by
    rintro rfl
    rw [isBound, hobj₄, Function.update_self] at hbound₄
    cases hub₄.symm.trans hbound₄
  have ho₄ : m₄.objects o = m₃.objects o := by rw [hobj₄, Function.update_of_ne hne]
  have hpages₄ : m₄.pages o = m₃.pages o := M₄.pages M₃.inv hne
  have hpages₃ : m₃.pages buffer = s.mem.pages buffer := by
    rw [← B.pages]
    exact (I₃.moves (K := fun _ => False) B.moves.inv).pages B.moves.inv id
  have hrange : Range (m₃.graphicsAddress o) (m₃.size o) (s.mem.gtt.base + first * 4096) := by
    have ha : Entered (m₄.graphicsAddress o) (m₄.pages o) _ _ := ha
    obtain ⟨bo₁, hbo₁, -⟩ := (Option.any_eq_true _ _).mp hbound₄
    rw [Memory.graphicsAddress, ho₄, hpages₄] at ha
    rw [ho₄] at hbo₁
    rw [Memory.size, hbo₁]
    dsimp only
    rw [(M₃.inv.size_eq hbo₁).1]
    exact ha.range
  refine hne (bound_apart M₃.inv (a := s.mem.gtt.base + first * 4096) ?_ ?_ hrange ?_)
  · rwa [isBound, ← ho₄]
  · rw [isBound, hbo₃]
    rfl
  · rw [Memory.graphicsAddress, Memory.size, hbo₃]
    dsimp only
    rw [(M₃.inv.size_eq hbo₃).1, hpages₃]
    exact hentered.range

end Session

/-- The requests for buffers and the submission of one. -/
def Request.ForBuffers : Request → Prop
  | createBuffer .. | closeBuffer .. | bindBuffer .. | unbindBuffer .. | submit .. => True
  | _ => False

namespace Session
variable {ω : Oracle} {g : GlobalGTT} {s s' : Session} {r : Except Error Reply} {header : Header}
  {request : Request}

/-- The request is a `kBindBuffer` that leaves a page of its buffer in the engines. -/
def Strands (ω : Oracle) (s : Session) (header : Header) (request : Request) : Prop :=
  ∃ handle flags graphicsAddress s₁, request = .bindBuffer handle flags graphicsAddress ∧
    s.readRequest ω header request.sizeof = (.ok (), s₁) ∧
    s₁.Abandons ω handle flags graphicsAddress

/-- The caller is told that such a request has failed. -/
theorem Strands.fails (hs : s.Strands ω header request)
    (h : s.ioctl ω header request = (r, s')) : ∃ e, r = .error e := by
  obtain ⟨handle, flags, graphicsAddress, s₁, rfl, hq, slot, buffer, m₁, r₂, done, m₂, hbindable,
    hb, hm, -, hfail⟩ := hs
  unfold ioctl at h
  split at h
  · next heq => cases heq
  split at h
  · cases h
    exact ⟨_, rfl⟩
  split at h
  · next hnative => cases hnative
  rw [hq] at h
  replace h : s₁.bindBuffer ω handle flags graphicsAddress = (r, s') := h
  rcases bindBuffer_cases h with ⟨he, -⟩ | ⟨slot', buffer', r₁, m₁', hbindable', hb', h⟩
  · exact he
  cases hbindable.found.symm.trans hbindable'.found
  cases hb.symm.trans hb'
  rcases h with ⟨⟨e, -, he⟩, -⟩ | ⟨-, r₂', done', m₂', m₃, hm', -, h⟩
  · exact ⟨e, he⟩
  cases hm.symm.trans hm'
  rcases h with ⟨he, -⟩ | ⟨rfl, hok, -⟩
  · exact he
  · obtain ⟨e, he⟩ := hfail rfl
    cases he.symm.trans hok

theorem ioctl_isolated_iff (I : s.Inv g) (L : s.Isolated) (hf : ¬ Device.Faulted s.masters)
    (hrequest : request.ForBuffers) (h : s.ioctl ω header request = (r, s')) :
    (¬ Device.Faulted s'.masters → s'.Isolated) ↔ ¬ s.Strands ω header request := by
  unfold ioctl at h
  split at h
  · cases hrequest
  split at h
  · next hgate =>
    obtain ⟨n, hn, hn'⟩ := (Option.any_eq_true _ _).mp (Bool.and_eq_true_iff.mp hgate).1
    obtain ⟨y, hy, hyf⟩ := I.scheduled.native hn
    exact absurd ⟨.render, y, hy, hyf hn'⟩ hf
  split at h
  · next hnative =>
    cases request <;> first | cases hrequest; done | cases hnative
  split at h
  · next e s₁ hq =>
    cases h
    refine iff_of_true (fun _ => L.idle I (readRequest_idle hq)) ?_
    rintro ⟨_, _, _, s₂, -, hq', -⟩
    cases hq.symm.trans hq'
  next s₁ hq =>
  have J := readRequest_idle hq
  have I₁ := (J.keeps I).inv
  have L₁ := L.idle I J
  have hf₁ : ¬ Device.Faulted s₁.masters := by rwa [J.masters]
  have hother (hL : s'.Isolated) (hno : ∀ a b c, request ≠ .bindBuffer a b c) :
      (¬ Device.Faulted s'.masters → s'.Isolated) ↔ ¬ s.Strands ω header request := by
    refine iff_of_true (fun _ => hL) ?_
    rintro ⟨_, _, _, _, heq, -⟩
    exact hno _ _ _ heq
  cases request with
  | createBuffer => exact hother (createBuffer_isolated I₁ L₁ h) nofun
  | closeBuffer => exact hother (closeBuffer_isolated I₁ L₁ hf₁ h) nofun
  | unbindBuffer => exact hother (unbindBuffer_isolated I₁ L₁ hf₁ h) nofun
  | submit => exact hother (submit_isolated I₁ L₁ h) nofun
  | bindBuffer =>
    constructor
    · rintro H ⟨_, _, _, s₂, heq, hq', ha⟩
      cases heq
      cases hq.symm.trans hq'
      obtain ⟨hm, hno⟩ := not_isolated_of_abandons I₁ ha h
      exact hno (H (hm ▸ hf₁))
    · exact fun hno _ => bindBuffer_isolated I₁ L₁ (fun ha => hno ⟨_, _, _, s₁, rfl, hq, ha⟩) h
  | _ => cases hrequest

end Session

namespace Device
variable {g : GlobalGTT} {d d' : Device} {c : Nat} {x : RenderClient}

/-- A new client has bound nothing, and its engines show nothing. -/
theorem openClient_isolated (I : d.Inv g) (ω : Oracle)
    (hx : (d.openClient ω).clients d.nextClient = some x) :
    ((d.openClient ω).session x).Isolated := by
  have hnone : d.clients d.nextClient = none := by
    by_contra hne
    obtain ⟨y, hy⟩ := Option.ne_none_iff_exists'.mp hne
    exact Nat.lt_irrefl _ (I.client hy).1
  rw [Device.openClient] at hx ⊢
  generalize hs : (if d.openCount = 0 then d.mem.allocate ω else (.ok (), d.mem)) = res at hx ⊢
  obtain ⟨status, m⟩ := res
  have hidle : d.mem.Idle m := by
    split at hs
    · exact allocate_idle hs
    · obtain ⟨-, rfl⟩ := Prod.mk.inj hs
      exact .rfl
  cases status with
  | error e => cases hnone.symm.trans hx
  | ok u =>
    have I₁ := I.idle hidle
    obtain ⟨hclients, hnext, -⟩ := initGTT_same ω { d with mem := m }
    obtain ⟨⟨g', I₂⟩, -⟩ := I₁.initGTT ω
    dsimp only at hx ⊢
    generalize Device.initGTT ω { d with mem := m } = d₂ at hclients hnext I₂ hx ⊢
    obtain hclients : d₂.clients = d.clients := hclients
    obtain hnext : d₂.nextClient = d.nextClient := hnext
    split at hx
    · next m₃ ha =>
      have hsame : (if d₂.openCount = 0 then uninit { d₂ with mem := m₃ }
          else { d₂ with mem := m₃ }).clients = d.clients := by
        split
        · exact (uninit_same _).clients.trans hclients
        · exact hclients
      cases hnone.symm.trans ((congrFun hsame _).symm.trans hx)
    next m₃ ha =>
    have I₃ := I₂.idle (allocate_idle ha)
    have hfree : d₂.clients d₂.nextClient = none := by
      rw [hclients, hnext]
      exact hnone
    generalize hnew : RenderClient.new ω d₂.nextClient d₂.config d₂.masters m₃ = res at hx ⊢
    obtain ⟨y, m₄⟩ := res
    obtain ⟨-, -, -, hblank⟩ := RenderClient.new_spec I₃.mem (fun o ho =>
      (I₃.gone ho hfree).resolve_right fun h => Nat.lt_irrefl _ h.1) hnew
    dsimp only at hx
    rw [← hnext, Function.update_self] at hx
    obtain rfl := Option.some.inj hx
    exact fun e z pt hz hpt a _ => .inl (hblank e z pt hz hpt a)

theorem session_isolated_of_leaves (I : d.Inv g) (hx : d.clients c = some x) (L : Leaves c d d')
    (h : (d.session x).Isolated) : (d'.session x).Isolated := by
  obtain ⟨-, hid, S⟩ := I.client hx
  have hne {o : Owner} (ho : o.client = some x.id) : ¬ o.client ≠ some c :=
    not_not.mpr (hid ▸ ho)
  intro e y pt hy hpt a ha
  obtain ⟨hyid, -, hspace, -⟩ := S.client.equipped.engine hy
  have hpt' : d.mem.tables y.addressSpace = some pt := by
    rw [← hpt]
    refine (L.mem.tables (hne ?_)).symm
    rw [hspace, hyid]
    rfl
  refine (h e y pt hy hpt' a ha).imp_right ?_
  rintro ⟨i, o, ho, hb, hentered⟩
  have howner : o.client = some x.id := by
    obtain ⟨-, -, rfl, -⟩ := S.client.holding.slot ho
    rfl
  have hobj : d'.mem.objects o = d.mem.objects o := L.mem.objects (hne howner)
  refine ⟨i, o, ho, ?_, ?_⟩
  · change d'.mem.isBound o = true
    rwa [isBound, hobj]
  · change Entered (d'.mem.graphicsAddress o) (d'.mem.pages o) a _
    rwa [Memory.graphicsAddress, hobj, L.mem.pages I.mem (hne howner)]

/-- As long as no engine has faulted, the engines of the client show nothing but what it has
bound. -/
def Isolated (c : Nat) (d : Device) : Prop :=
  ¬ Faulted d.masters → ∀ x, d.clients c = some x → (d.session x).Isolated

/-- The call is a `kBindBuffer` of the client that leaves a page of its buffer in the engines. -/
def Strands (c : Nat) (d : Device) (a : Call × Oracle) : Prop := ¬ Faulted d.masters ∧
  ∃ x header request, a.1 = .ioctl c header request ∧ d.clients c = some x ∧
    Session.Strands a.2 (d.entered x) header request

theorem isolated_of_none (h : d.clients c = none) : Isolated c d := by
  intro _ x hx
  cases h.symm.trans hx

/-- What the others do changes nothing of what the engines of the client show. -/
theorem Isolated.others (I : d.Inv g) (L : Isolated c d) (a : Call × Oracle) (h : ¬ a.1.By c) :
    Isolated c (step a d) := by
  intro hf x hx
  cases hc : d.clients c with
  | some y =>
    have hleaves := step_leaves a I (I.lasting hc) h
    obtain rfl := Option.some.inj (hx.symm.trans (hleaves.client.trans hc))
    exact session_isolated_of_leaves I hc hleaves (L (fun h => hf (step_faulted a I h)) x hc)
  | none =>
    obtain ⟨call, ω⟩ := a
    rcases step_absent (call, ω) hc with hnone | ⟨rfl, rfl⟩
    · cases hnone.symm.trans hx
    · exact openClient_isolated (I.idle (idle_enter d.mem)) ω hx

/-- A request for buffers keeps what the engines of the client show, just if it strands no page. -/
theorem step_isolated_iff (I : d.Inv g) (L : Isolated c d) (a : Call × Oracle)
    (h : ∀ header request, a.1 = .ioctl c header request → request.ForBuffers) :
    Isolated c (step a d) ↔ ¬ Strands c d a := by
  by_cases hby : a.1.By c
  case neg =>
    refine iff_of_true (L.others I a hby) ?_
    rintro ⟨-, x, header, request, heq, -⟩
    rw [heq] at hby
    exact hby rfl
  by_cases hf : Faulted d.masters
  · exact iff_of_true (fun hf' => absurd (step_faulted a I hf) hf') fun hs => hs.1 hf
  obtain ⟨call, ω⟩ := a
  cases call with
  | «open» => exact hby.elim
  | gart page entry => exact hby.elim
  | close c' =>
    obtain rfl : c' = c := hby
    refine iff_of_true (isolated_of_none (closeClient_gone ω _ c')) ?_
    rintro ⟨-, x, header, request, heq, -⟩
    cases heq
  | ioctl c' header request =>
    obtain rfl : c' = c := hby
    cases hx : d.clients c' with
    | none =>
      refine iff_of_true (isolated_of_none ?_) ?_
      · exact (step_absent (.ioctl c' header request, ω) hx).resolve_right fun h => nomatch h.1
      · rintro ⟨-, x, header, request, -, hx', -⟩
        cases hx.symm.trans hx'
    | some x =>
      have S := I.entered hx
      have hsession : (d.session x).Isolated := L hf x hx
      have hentered : (d.entered x).Isolated :=
        hsession.idle (I.client hx).2.2 ⟨rfl, rfl, idle_enter d.mem⟩
      generalize hi : (d.entered x).ioctl ω header request = res
      obtain ⟨r, s⟩ := res
      obtain ⟨hclient, hs⟩ := step_ioctl hx hi
      have hiff := Session.ioctl_isolated_iff S hentered hf (h header request rfl) hi
      have hmasters : (step (.ioctl c' header request, ω) d).masters = s.masters :=
        congrArg Session.masters hs
      constructor
      · rintro H ⟨-, y, header', request', heq, hy, hstrands⟩
        cases heq
        obtain rfl := Option.some.inj (hx.symm.trans hy)
        exact hiff.1 (fun hf' => hs ▸ H (hmasters ▸ hf') s.client hclient) hstrands
      · intro hno hf' y hy
        obtain rfl := Option.some.inj (hclient.symm.trans hy)
        rw [hs]
        exact hiff.2 (fun h => hno ⟨hf, x, header, request, rfl, hx, h⟩) (hmasters ▸ hf')

/-- In every run in which the client asks for nothing but what is about its buffers: while no engine
has faulted, its engines show nothing but what it has bound, just if no `kBindBuffer` of it fails
when an engine has mapped the buffer already. -/
theorem exec_isolated_iff (config : Config) (entries : Nat → Nat) (foreign : List Nat)
    (calls : List (Call × Oracle)) (c : Nat)
    (h : ∀ a ∈ calls, ∀ header request, a.1 = .ioctl c header request → request.ForBuffers) :
    Run.Along step (fun d a => Isolated c (step a d)) (start config entries foreign) calls ↔
      Run.Along step (fun d a => ¬ Strands c d a) (start config entries foreign) calls :=
  Run.along_iff (I := fun d => ∃ g, Inv g d) (L := Isolated c) (fun _ a ⟨_, I⟩ => (step_inv a I).1)
    (fun a ha _ ⟨_, I⟩ L => step_isolated_iff I L a (h a ha))
    ⟨_, start_inv config entries foreign⟩ (isolated_of_none rfl)

set_option maxRecDepth 10000 in
/-- A buffer of two pages is bound, and the caller is told so. -/
theorem exec_isolated_boundBuffer :
    Run.Along step (fun d a => Isolated 0 (step a d)) (start Config.blitter (fun _ => 0) [])
      boundBuffer := by
  refine (exec_isolated_iff Config.blitter (fun _ => 0) [] boundBuffer 0 ?_).mpr
    ⟨?_, ?_, ?_, trivial⟩
  · intro a ha header request heq
    simp only [boundBuffer, List.mem_cons, List.not_mem_nil, or_false] at ha
    rcases ha with rfl | rfl | rfl
    · cases heq
    · cases heq
      trivial
    · cases heq
      trivial
  · rintro ⟨-, x, header, request, heq, -⟩
    cases heq
  · rintro ⟨-, x, header, request, heq, -, handle, flags, graphicsAddress, s₁, hbind, -⟩
    cases heq
    cases hbind
  · rintro ⟨-, x, header, request, heq, hx, hs⟩
    have hok : ((Run.exec step (start Config.blitter (fun _ => 0) [])
        (boundBuffer.take 2)).clients 0).all (fun x =>
          (((Run.exec step (start Config.blitter (fun _ => 0) [])
            (boundBuffer.take 2)).entered x).ioctl .unfailing ⟨24, 8, 24⟩
              (.bindBuffer 1 0 0)).1.isOk) = true := by
      decide +kernel
    cases heq
    change (Run.exec step (start Config.blitter (fun _ => 0) []) (boundBuffer.take 2)).clients 0 = _
      at hx
    change Session.Strands _ ((Run.exec step (start Config.blitter (fun _ => 0) [])
      (boundBuffer.take 2)).entered x) _ _ at hs
    generalize Run.exec step (start Config.blitter (fun _ => 0) []) (boundBuffer.take 2) = d
      at hx hs hok
    rw [hx, Option.all_some] at hok
    obtain ⟨e, he⟩ := hs.fails Prod.mk.eta.symm
    rw [he] at hok
    cases hok

/-- A buffer of one page is bound, and the caller cannot be told where it is, so that it closes the
buffer. -/
def lostReply : List (Call × Oracle) :=
  [(.open, .unfailing), (.ioctl 0 ⟨32, 8, 32⟩ (.createBuffer 4096 0 0), .unfailing),
    (.ioctl 0 ⟨24, 8, 24⟩ (.bindBuffer 1 0 0), { Oracle.unfailing with
      fails := fun n => if n = 9 then some .badAddress else none }),
    (.ioctl 0 ⟨16, 8, 16⟩ (.closeBuffer 1 0), .unfailing)]

set_option maxRecDepth 10000 in
/-- The page has been freed, and the blitter still reaches it. -/
theorem not_isolated_of_lostReply :
    let d := Run.exec step (start Config.blitter (fun _ => 0) []) lostReply
    ¬ Faulted d.masters ∧ ¬ Isolated 0 d ∧ ∃ x e pt, d.clients 0 = some x ∧
      x.engines .blitter = some e ∧ d.mem.tables e.addressSpace = some pt ∧
      pt.translate 0x3fff4000 = 0x20000 ∧ 0x20000 ∉ d.mem.os.live := by
  intro d
  have hf : [EngineId.blitter, .render].all
      (fun e => (d.masters e).all fun y => !y.faulted) = true := by
    decide +kernel
  have hshown : (d.clients 0).any (fun x => (x.engines .blitter).any fun e =>
      (d.mem.tables e.addressSpace).any fun pt => pt.translate 0x3fff4000 == 0x20000 &&
        pt.scratchPage != 0x20000 && !d.mem.os.live.contains 0x20000 &&
        (List.range kMaxBuffers).all fun i => (x.buffers i).isNone) = true := by
    decide +kernel
  have hf : ¬ Faulted d.masters := by
    rintro ⟨e, y, hy, hyf⟩
    have h := List.all_eq_true.mp hf e (by cases e <;> simp)
    rw [hy, Option.all_some, hyf] at h
    cases h
  obtain ⟨x, hx, hshown⟩ := (Option.any_eq_true _ _).mp hshown
  obtain ⟨e, he, hshown⟩ := (Option.any_eq_true _ _).mp hshown
  obtain ⟨pt, hpt, hshown⟩ := (Option.any_eq_true _ _).mp hshown
  simp only [Bool.and_eq_true, beq_iff_eq, bne_iff_ne, Bool.not_eq_true', List.all_eq_true,
    List.mem_range, Option.isNone_iff_eq_none, List.contains_eq_mem, decide_eq_false_iff_not]
    at hshown
  obtain ⟨⟨⟨htr, hscratch⟩, hfreed⟩, hnone⟩ := hshown
  refine ⟨hf, fun L => ?_, x, e, pt, hx, he, hpt, htr, hfreed⟩
  -- it is not the scratch page, and the client has no buffer
  obtain ⟨g, I⟩ := exec_inv Config.blitter (fun _ => 0) [] lostReply
  rcases L hf x hx .blitter e pt he hpt 0x3fff4000 (by decide) with h | ⟨i, o, ho, -⟩
  · exact hscratch (h.symm.trans htr)
  · obtain ⟨-, -, S⟩ := I.client hx
    cases (hnone i (S.client.holding.slot ho).1).symm.trans ho

end Device
end IntelGfx
