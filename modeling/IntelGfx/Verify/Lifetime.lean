import IntelGfx.Kernel.Device
import IntelGfx.Verify.Ioctl

/-!
# Opening and closing

What comes and goes with a client: the global GTT and the masters with the first and the last one,
its engines when it opens the device, and all that was made for it when it closes the device,
unless something of it has hung.
-/

namespace IntelGfx
open Memory RenderEngine

/-! ## The global GTT -/

namespace Memory
variable {ω : Oracle} {g : GlobalGTT} {m m' : Memory}

/-- Nothing is bound in the global GTT. -/
def Unbound (m : Memory) : Prop := ∀ {o bo}, m.objects o = some bo → bo.bound = false

/-- The global GTT is set up or taken down while nothing is bound in it. -/
theorem Inv.moves_gtt {os' : Os Owner} {gtt' : GlobalGTT} (H : m.Inv g) (hub : m.Unbound)
    (hos : os'.WF) (C : Os.Changes (· = .gtt) m.os os')
    (hgtt : gtt'.valid = true → gtt'.WF ∧ ∀ p, gtt'.used p = false)
    (hscratch : ∀ a, gtt'.scratchArea = some a →
      a < os'.nextArea ∧ ∀ ar, os'.find a = some ar → ar.owner = .gtt) :
    Moves gtt' (· = .gtt) m ⟨⟨os', gtt'⟩, m.objects, m.tables⟩ := by
  have hne {o : Owner} (h : o.IsObject) : o ≠ .gtt := by
    rintro rfl
    exact h
  refine ⟨⟨⟨hos, fun h => (hgtt h).1, rfl, fun _ _ => rfl, fun {o bo} hbo => ?_, fun hbo hb => ?_,
    fun {p} hv hu => ?_, fun {o o' bo bo' p} hbo _ hp _ => ?_⟩, H.object, fun {o pt} hpt => ?_,
    fun ha => hscratch _ ha⟩, C, fun _ => rfl, fun _ => rfl⟩
  · have V := H.aperture.valid hbo
    refine ⟨V.owner, fun ha => ?_, fun hb => ?_⟩
    · obtain ⟨ar, har, how, hs⟩ := V.area ha
      exact ⟨ar, C.kept har (how ▸ hne (H.object hbo).1), how, hs⟩
    · exact nomatch (hub hbo).symm.trans hb
  · exact nomatch (hub hbo).symm.trans hb
  · exact nomatch ((hgtt hv).2 p).symm.trans hu
  · exact nomatch (hub hbo).symm.trans hp.1
  · obtain ⟨ht, hown, nodes, R⟩ := H.tables hpt
    refine ⟨ht, hown, nodes, R.changes C ?_⟩
    rintro h
    rw [hown.symm.trans h] at ht
    exact ht

theorem Inv.unbound (H : m.Inv g) (hv : m.gtt.valid = false) : m.Unbound := by
  intro o bo hbo
  cases hb : bo.bound with
  | false => rfl
  | true => exact nomatch hv.symm.trans (H.aperture.bound hbo hb)

theorem initGTT_spec {config : Config} {r : Except Error Unit} (H : m.Inv g)
    (hv : m.gtt.valid = false) (h : m.initGTT ω config = (r, m')) :
    m'.objects = m.objects ∧ m'.tables = m.tables ∧ ∃ g', Moves g' (· = .gtt) m m' ∧
      (r = .ok () → m'.gtt.valid = true) ∧ ∀ e, r = .error e → m'.gtt = m.gtt := by
  unfold initGTT at h
  generalize hi : m.gtt.init ω m.os Owner.gtt config.registers config.barSize config.generation
    config.tableSize config.reserved = res at h
  obtain ⟨r₁, os', gtt'⟩ := res
  cases h
  obtain ⟨hos, C⟩ := GlobalGTT.init_changes H.os hi
  refine ⟨rfl, rfl, gtt', ?_⟩
  cases r with
  | error e =>
    obtain rfl := GlobalGTT.init_error hi
    exact ⟨H.moves_gtt (H.unbound hv) hos C (fun h => nomatch hv.symm.trans h)
      (fun a ha => H.scratch_changes rfl C ha), nofun, fun _ _ => rfl⟩
  | ok u =>
    obtain ⟨W, hused, -⟩ := GlobalGTT.init_ok hi
    exact ⟨H.moves_gtt (H.unbound hv) hos C (fun _ => ⟨W, hused⟩)
      (fun a ha => GlobalGTT.init_scratch H.os hi ha), fun _ => W.valid, nofun⟩

theorem deleteGTT_spec (H : m.Inv g) (hub : m.Unbound) :
    m.deleteGTT.objects = m.objects ∧ m.deleteGTT.tables = m.tables ∧
      m.deleteGTT.gtt.valid = false ∧ ∃ g', Moves g' (· = .gtt) m m.deleteGTT := by
  have hd := GlobalGTT.destroy_spec m.os m.gtt
  unfold deleteGTT
  generalize m.gtt.destroy m.os = res at hd ⊢
  obtain ⟨os', gtt'⟩ := res
  obtain ⟨hv, hscratch, hos⟩ := hd
  have hchanged : os'.WF ∧ Os.Changes (· = .gtt) m.os os' := by
    rcases hos with rfl | ⟨a, ha, rfl⟩
    · exact ⟨H.os, .rfl⟩
    · exact ⟨H.os.deleteArea, Os.changes_deleteArea (H.scratch ha).2⟩
  exact ⟨rfl, rfl, hv, gtt', H.moves_gtt hub hchanged.1 hchanged.2
    (fun h => nomatch hv.symm.trans h) fun a ha => nomatch hscratch.symm.trans ha⟩

/-- Others write what is not the driver's. -/
theorem gart_spec (H : m.Inv g) (page entry : Nat) :
    ∃ g', Moves g' (fun _ => False) m (m.gart page entry) ∧
      (m.gart page entry).gtt.valid = m.gtt.valid := by
  rw [gart]
  split
  · exact ⟨g, .rfl H, rfl⟩
  · next h =>
    exact ⟨g.writeEntry page entry, ⟨⟨H.aperture.writeEntry h, H.object, H.tables, H.scratch⟩,
      .rfl, fun _ => rfl, fun _ => rfl⟩, rfl⟩

/-! ## What is there and what is gone -/

/-- Nothing was made for `o`, or it has been deleted. -/
structure Gone (m : Memory) (o : Owner) : Prop where
  object : m.objects o = none
  tables : m.tables o = none

namespace Gone
variable {o : Owner} {K : Owner → Prop}

theorem of_object (H : m.Inv g) (ho : o.IsObject) (h : m.objects o = none) : m.Gone o := by
  refine ⟨h, ?_⟩
  by_contra hne
  obtain ⟨pt, hpt⟩ := Option.ne_none_iff_exists'.mp hne
  exact (H.tables hpt).1.not_isObject ho

theorem of_tables (H : m.Inv g) (ho : o.IsTables) (h : m.tables o = none) : m.Gone o := by
  refine ⟨?_, h⟩
  by_contra hne
  obtain ⟨bo, hbo⟩ := Option.ne_none_iff_exists'.mp hne
  exact ho.not_isObject (H.object hbo).1

theorem frame (h : m.Gone o) (M : Moves g K m m') (hK : ¬ K o) : m'.Gone o :=
  ⟨(M.objects hK).trans h.object, (M.tables hK).trans h.tables⟩

end Gone

end Memory

/-! ## Contexts -/

namespace RenderEngine
variable {ω : Oracle} {g : GlobalGTT} {m m' : Memory} {id : ContextId} {engine : EngineId}

theorem destroy_gone (H : m.Inv g) (e : RenderEngine) {o : Owner} (ho : e.id.Owns o) :
    (e.destroy m).Gone o := by
  obtain ⟨M, hparts, ht⟩ := destroy_spec H e
  generalize e.destroy m = m' at M hparts ht
  cases o with
  | part x p =>
    have hx : x = e.id := ho
    exact .of_object M.inv trivial (hx ▸ hparts p)
  | ownTables x =>
    have hx : x = e.id := ho
    exact .of_tables M.inv trivial (by rw [ht, hx, Function.update_self])
  | gtt => exact nomatch ho
  | vm c => exact nomatch ho
  | buffer c h => exact nomatch ho

/-- What some contexts own. -/
def Owned (contexts : List RenderEngine) (o : Owner) : Prop := ∃ x ∈ contexts, x.id.Owns o

theorem destroyAll_spec (contexts : List RenderEngine) (H : m.Inv g) :
    Moves g (Owned contexts) m (contexts.foldl (fun m x => x.destroy m) m) ∧
      ∀ o, Owned contexts o → (contexts.foldl (fun m x => x.destroy m) m).Gone o := by
  induction contexts generalizing m with
  | nil =>
    refine ⟨Moves.rfl H, fun o ho => ?_⟩
    obtain ⟨x, hx, -⟩ := ho
    exact nomatch hx
  | cons x contexts ih =>
    obtain ⟨M, -⟩ := destroy_spec H x
    obtain ⟨M', hgone⟩ := ih M.inv
    refine ⟨(M.mono fun o ho => ⟨x, List.mem_cons_self, ho⟩).trans
      (M'.mono fun o ⟨y, hy, ho⟩ => ⟨y, List.mem_cons_of_mem _ hy, ho⟩), fun o ⟨y, hy, ho⟩ => ?_⟩
    by_cases hrest : Owned contexts o
    · exact hgone o hrest
    · rcases List.mem_cons.mp hy with rfl | hy
      · exact (destroy_gone H y ho).frame M' hrest
      · exact absurd ⟨y, hy, ho⟩ hrest

/-- A context that came up, with page tables of its own that show nothing yet, or none, and then
nothing is left of it. -/
def Made (m : Memory) (id : ContextId) (engine : EngineId) : Option RenderEngine → Prop
  | none => ∀ o, id.Owns o → m.Gone o
  | some x => x = { new id engine (.ownTables id) with ready := true } ∧ Whole m id ∧
      ∃ pt, m.tables (.ownTables id) = some pt ∧ ∀ a, pt.translate a = pt.scratchPage

theorem Made.frame {K : Owner → Prop} {x : Option RenderEngine} (h : Made m id engine x)
    (M : Moves g K m m') (hK : ∀ o, id.Owns o → ¬ K o) : Made m' id engine x := by
  cases x with
  | none => exact fun o ho => (h o ho).frame M (hK o ho)
  | some x =>
    obtain ⟨hx, hwhole, pt, hpt, hblank⟩ := h
    exact ⟨hx, hwhole.frame M fun p => hK _ (ContextId.owns_part id p), pt,
      (M.tables (hK _ (ContextId.owns_tables id))).trans hpt, hblank⟩

theorem createEngine_spec {x : Option RenderEngine} (H : m.Inv g)
    (hgone : ∀ o, id.Owns o → m.Gone o) (h : createEngine ω m id engine = (x, m')) :
    Moves g id.Owns m m' ∧ Made m' id engine x := by
  unfold createEngine at h
  split at h
  · next ha =>
    cases h
    have M := (allocate_idle ha).moves (K := fun _ => False) H
    exact ⟨M.mono nofun, fun o ho => (hgone o ho).frame M not_false⟩
  next m₁ ha =>
  have M₁ := (allocate_idle ha).moves (K := fun _ => False) H
  have hgone₁ (o : Owner) (ho : id.Owns o) : m₁.Gone o := (hgone o ho).frame M₁ not_false
  generalize hi : (new id engine (.ownTables id)).init ω m₁ = res at h
  obtain ⟨r, e, m₂⟩ := res
  obtain ⟨M₂, -, herror, hok⟩ := init_spec M₁.inv
    (fun p => (hgone₁ _ (ContextId.owns_part id p)).object)
    (.inl ⟨rfl, (hgone₁ _ (ContextId.owns_tables id)).tables⟩) hi
  have M : Moves g id.Owns m m₂ := (M₁.mono nofun).trans M₂
  cases r with
  | error s =>
    obtain rfl := herror s rfl
    cases h
    obtain ⟨M₃, -⟩ := destroy_spec M₂.inv (new id engine (.ownTables id))
    exact ⟨M.trans M₃, fun o ho => destroy_gone M₂.inv _ ho⟩
  | ok u =>
    obtain ⟨rfl, hwhole, pt, hpt, hblank⟩ := hok rfl
    cases h
    exact ⟨M, rfl, hwhole, pt, hpt, hblank (hgone₁ _ (ContextId.owns_tables id)).tables⟩

end RenderEngine

/-! ## Opening -/

theorem ContextId.Owns.unique {x y : ContextId} {o : Owner} (h : x.Owns o) (h' : y.Owns o) :
    x = y := by
  cases o with
  | part z p => exact h.symm.trans h'
  | ownTables z => exact h.symm.trans h'
  | gtt => exact nomatch h
  | vm c => exact nomatch h
  | buffer c n => exact nomatch h

namespace RenderClient
open Session
variable {ω : Oracle} {g : GlobalGTT} {m m' : Memory} {id : Nat} {masters : Masters}

/-- What some of the engines of a client own. -/
def Legacy (id : Nat) (l : List EngineId) (o : Owner) : Prop :=
  ∃ e ∈ l, (ContextId.legacy id e).Owns o

theorem Legacy.client {l : List EngineId} {o : Owner} (h : Legacy id l o) :
    o.client = some id := by
  obtain ⟨e, -, h⟩ := h
  exact h.client

theorem createEngines_spec {l : List EngineId} {engines : EngineId → Option RenderEngine}
    (H : m.Inv g) (hgone : ∀ o, Legacy id l o → m.Gone o) (hl : l.Nodup)
    (h : createEngines ω id masters l m = (engines, m')) :
    Moves g (Legacy id l) m m' ∧ (∀ e ∈ l, Made m' (.legacy id e) e (engines e)) ∧
      ∀ e x, engines e = some x → e ∈ l ∧ ∃ y, masters e = some y ∧ y.isReady masters = true := by
  induction l generalizing m engines with
  | nil =>
    obtain ⟨rfl, rfl⟩ := Prod.mk.inj h
    exact ⟨.rfl H, nofun, nofun⟩
  | cons e l ih =>
    obtain ⟨he, hl⟩ := List.nodup_cons.mp hl
    rw [createEngines] at h
    generalize hx : (if (m.gtt.isValid && (masters e).any (·.isReady masters)) = true then
      createEngine ω m (.legacy id e) e else (none, m)) = res at h
    obtain ⟨x, m₁⟩ := res
    dsimp only at h
    generalize hr : createEngines ω id masters l m₁ = rest at h
    obtain ⟨engines', m₂⟩ := rest
    obtain ⟨rfl, rfl⟩ := Prod.mk.inj h
    have hgone₀ (o : Owner) (ho : (ContextId.legacy id e).Owns o) : m.Gone o :=
      hgone o ⟨e, List.mem_cons_self, ho⟩
    have hfirst : Moves g (ContextId.legacy id e).Owns m m₁ ∧ Made m₁ (.legacy id e) e x ∧
        (x ≠ none → ∃ y, masters e = some y ∧ y.isReady masters = true) := by
      split at hx
      · rename_i hready
        obtain ⟨M, hmade⟩ := createEngine_spec H hgone₀ hx
        exact ⟨M, hmade, fun _ => (Option.any_eq_true _ _).mp (Bool.and_eq_true_iff.mp hready).2⟩
      · obtain ⟨rfl, rfl⟩ := Prod.mk.inj hx
        exact ⟨.rfl H, hgone₀, fun hne => absurd rfl hne⟩
    obtain ⟨M₁, hmade, hmaster⟩ := hfirst
    -- no engine of the rest owns what this one does
    have hapart {o : Owner} (ho : (ContextId.legacy id e).Owns o) : ¬ Legacy id l o := by
      rintro ⟨e', he', ho'⟩
      cases ho.unique ho'
      exact he he'
    obtain ⟨M₂, hmade', hmaster'⟩ := ih M₁.inv (fun o ho =>
      (hgone o (ho.imp fun e' h => ⟨List.mem_cons_of_mem _ h.1, h.2⟩)).frame M₁
        fun ho' => hapart ho' ho) hl hr
    refine ⟨(M₁.mono fun o ho => ⟨e, List.mem_cons_self, ho⟩).trans
      (M₂.mono fun o ho => ho.imp fun e' h => ⟨List.mem_cons_of_mem _ h.1, h.2⟩), ?_, ?_⟩
    · intro e' he'
      by_cases hee : e' = e
      · subst hee
        rw [Function.update_self]
        exact hmade.frame M₂ fun o ho => hapart ho
      · rw [Function.update_of_ne hee]
        exact hmade' e' ((List.mem_cons.mp he').resolve_left hee)
    · intro e' y hy
      by_cases hee : e' = e
      · subst hee
        rw [Function.update_self] at hy
        exact ⟨List.mem_cons_self, hmaster fun hn => nomatch hn.symm.trans hy⟩
      · rw [Function.update_of_ne hee] at hy
        exact (hmaster' e' y hy).imp_left (List.mem_cons_of_mem _)

/-- A client starts with nothing but its engines, which show nothing yet, under an id for which
there is nothing yet. -/
theorem new_spec {config : Config} {c : RenderClient} (H : m.Inv g)
    (hgone : ∀ o, o.client = some id → m.Gone o) (h : new ω id config masters m = (c, m')) :
    Moves g (fun o => o.client = some id) m m' ∧ c.id = id ∧
      Session.Inv g ⟨c, masters, m'⟩ ∧ ∀ e x pt, c.engines e = some x →
        m'.tables x.addressSpace = some pt → ∀ a, pt.translate a = pt.scratchPage := by
  rw [new] at h
  generalize hr : createEngines ω id masters [.blitter, .render] m = res at h
  obtain ⟨engines, m₁⟩ := res
  obtain ⟨rfl, rfl⟩ := Prod.mk.inj h
  obtain ⟨M, hmade, hmaster⟩ := createEngines_spec H (fun o ho => hgone o ho.client) (by decide) hr
  have hall (e : EngineId) : Made m₁ (.legacy id e) e (engines e) := by
    refine hmade e ?_
    cases e with
    | blitter => exact List.mem_cons_self
    | render => exact List.mem_cons_of_mem _ List.mem_cons_self
  have hrest {o : Owner} (ho : o.client = some id)
      (hno : ∀ e, ¬ (ContextId.legacy id e).Owns o) : m₁.Gone o :=
    (hgone o ho).frame M fun ⟨e, _, he⟩ => hno e he
  have hunfaulted {e : EngineId} {x : RenderEngine} (hx : engines e = some x) :
      x.faulted = false := by
    have := hall e
    rw [hx] at this
    rw [this.1]
    rfl
  refine ⟨M.mono fun o => Legacy.client, rfl, ⟨M.inv, ⟨?_, ?_, ?_⟩, ?_, ?_, ?_⟩, ?_⟩
  · refine ⟨nofun, nofun, fun {h bo} hbo => ?_, nofun, (by decide : 1 < 2 ^ 32)⟩
    exact nomatch (hrest (o := .buffer id h) rfl fun _ => nofun).object.symm.trans hbo
  · refine ⟨fun {e x} hx => ?_, fun {e} hx => ?_⟩
    · have hx : engines e = some x := hx
      have hx' := hall e
      rw [hx] at hx'
      obtain ⟨rfl, hwhole, pt, hpt, -⟩ := hx'
      exact ⟨rfl, rfl, rfl, rfl, hwhole, pt, hpt⟩
    · have hx : engines e = none := hx
      have hx' := hall e
      rw [hx] at hx'
      exact ⟨fun p => (hx' _ (ContextId.owns_part _ p)).object,
        (hx' _ (ContextId.owns_tables _)).tables⟩
  · have hnative {o : Owner} {k : Nat} (ho : (ContextId.native id k).Owns o) : m₁.Gone o :=
      hrest ho.client fun e he => nomatch he.unique ho
    exact ⟨(hrest (o := .vm id) rfl fun _ => nofun).tables,
      fun k p => ⟨(hnative (ContextId.owns_part _ p)).object,
        (hnative (ContextId.owns_tables _)).tables⟩⟩
  · have hzero : (∑ i ∈ Finset.range kMaxBuffers, charge m₁ (fun _ => none) i) = 0 :=
      Finset.sum_eq_zero fun _ _ => rfl
    have hzero' : (∑ i ∈ Finset.range kMaxBuffers, boundCharge m₁ (fun _ => none) i) = 0 :=
      Finset.sum_eq_zero fun _ _ => rfl
    exact ⟨hzero.symm, hzero'.symm, Nat.zero_le _, Nat.zero_le _, nofun, fun _ => rfl⟩
  · refine ⟨fun {e x} hx => ?_, fun h => ?_, nofun⟩
    · obtain ⟨-, y, hy, -⟩ := hmaster e x hx
      exact ⟨y, hy, fun hf => nomatch (hunfaulted hx).symm.trans hf⟩
    · obtain ⟨x, hx, -⟩ := (Option.any_eq_true _ _).mp (Bool.and_eq_true_iff.mp h).2
      exact ⟨x, hx⟩
  · exact ⟨nofun⟩
  · intro e x pt hx hpt
    have hx' := hall e
    rw [show engines e = some x from hx] at hx'
    obtain ⟨rfl, -, pt', hpt', hblank⟩ := hx'
    obtain rfl := Option.some.inj (hpt'.symm.trans hpt)
    exact hblank

end RenderClient

/-! ## Closing -/

namespace Session
variable {ω : Oracle} {g : GlobalGTT} {s : Session} {m : Memory}

/-- A native context of the client that is there is in one of its slots. -/
theorem Inv.native_gone (I : s.Inv g) {n : NativeState} (hn : s.client.native = some n) {k : Nat}
    {o : Owner} (ho : (ContextId.native s.client.id k).Owns o)
    (hno : ¬ Owned ((List.range kMaxContexts).filterMap n.contexts) o) : s.mem.Gone o := by
  have N := I.client.native
  rw [hn] at N
  obtain ⟨R, -⟩ := N
  have hmem {i : Nat} (hi : n.ids i = k) (hk : k ≠ 0) :
      Owned ((List.range kMaxContexts).filterMap n.contexts) o := by
    obtain ⟨x, hx⟩ := R.named (i := i) (hi ▸ hk)
    obtain ⟨hlt, -, hid, -⟩ := R.context hx
    refine ⟨x, List.mem_filterMap.mpr ⟨i, List.mem_range.mpr hlt, hx⟩, ?_⟩
    rw [hid, hi]
    exact ho
  cases o with
  | part y p =>
    have hy : y = _ := ho
    subst hy
    refine .of_object I.mem trivial ?_
    by_contra hne
    obtain ⟨bo, hbo⟩ := Option.ne_none_iff_exists'.mp hne
    obtain ⟨i, hi, hk⟩ := R.all hbo
    exact hno (hmem hi hk)
  | ownTables y =>
    have hy : y = _ := ho
    subst hy
    exact .of_tables I.mem trivial (R.own k)
  | gtt => exact nomatch ho
  | vm c => exact nomatch ho
  | buffer c h => exact nomatch ho

theorem destroyNative_spec (I : s.Inv g) :
    Moves g s.OfNative s.mem s.destroyNative ∧ ∀ o, s.OfNative o → s.destroyNative.Gone o := by
  rw [destroyNative]
  cases hn : s.client.native with
  | none =>
    have N := I.client.native
    rw [hn] at N
    refine ⟨.rfl I.mem, fun o ho => ?_⟩
    rcases ho with rfl | ⟨k, ho⟩
    · exact .of_tables I.mem trivial N.1
    · cases o with
      | part y p =>
        have hy : y = _ := ho
        exact .of_object I.mem trivial (hy ▸ (N.2 k p).1)
      | ownTables y =>
        have hy : y = _ := ho
        exact .of_tables I.mem trivial (hy ▸ (N.2 k .ring).2)
      | gtt => exact nomatch ho
      | vm c => exact nomatch ho
      | buffer c h => exact nomatch ho
  | some n =>
    have N := I.client.native
    rw [hn] at N
    obtain ⟨M₁, hgone⟩ := destroyAll_spec ((List.range kMaxContexts).filterMap n.contexts) I.mem
    dsimp only
    generalize ((List.range kMaxContexts).filterMap n.contexts).foldl
      (fun m x => x.destroy m) s.mem = m₁ at M₁ hgone ⊢
    obtain ⟨M₂, -, -, ht⟩ := deleteTables_spec M₁.inv (.vm s.client.id)
    have howned {o : Owner} (ho : Owned ((List.range kMaxContexts).filterMap n.contexts) o) :
        s.OfNative o := by
      obtain ⟨x, hx, ho⟩ := ho
      obtain ⟨i, -, hx⟩ := List.mem_filterMap.mp hx
      obtain ⟨-, -, hid, -⟩ := N.1.context hx
      exact .inr ⟨_, hid ▸ ho⟩
    refine ⟨(M₁.mono fun o => howned).trans (M₂.mono fun o ho => .inl ho), fun o ho => ?_⟩
    by_cases hvm : o = .vm s.client.id
    · subst hvm
      exact .of_tables M₂.inv trivial (by rw [ht, Function.update_self])
    · refine Gone.frame ?_ M₂ hvm
      by_cases hin : Owned ((List.range kMaxContexts).filterMap n.contexts) o
      · exact hgone o hin
      · obtain ⟨k, hk⟩ := ho.resolve_left hvm
        exact (I.native_gone hn hk hin).frame M₁ hin

/-- The buffers are deleted, the bound ones after they have left the page tables of the engines. -/
theorem destroyBuffers_spec {engines : List RenderEngine} {buffers : List Owner} (H : m.Inv g)
    (he : ∀ o, Spaces engines o → o.IsTables) (hb : ∀ o ∈ buffers, o.IsObject) :
    Moves g (fun o => o ∈ buffers ∨ Spaces engines o) m (destroyBuffers ω engines buffers m) ∧
      ∀ o ∈ buffers, (destroyBuffers ω engines buffers m).Gone o := by
  induction buffers generalizing m with
  | nil => exact ⟨.rfl H, nofun⟩
  | cons b buffers ih =>
    rw [destroyBuffers]
    have hleft : Moves g (Spaces engines) m (if m.isBound b then
        unmapEngines ω (m.graphicsAddress b) (m.size b) engines m else m) := by
      split
      · exact (unmapEngines_spec ω engines _ _ H).1
      · exact .rfl H
    generalize (if m.isBound b then
        unmapEngines ω (m.graphicsAddress b) (m.size b) engines m else m) = m₁ at hleft ⊢
    obtain ⟨M₁, -, hobj⟩ := deleteObject_spec hleft.inv b
    obtain ⟨M₂, hgone⟩ := ih M₁.inv fun o ho => hb o (List.mem_cons_of_mem _ ho)
    refine ⟨((hleft.mono fun o ho => .inr ho).trans (M₁.mono fun o ho => ?_)).trans
      (M₂.mono fun o ho => ho.imp_left (List.mem_cons_of_mem _)), fun o ho => ?_⟩
    · exact .inl (ho ▸ List.mem_cons_self)
    · by_cases hin : o ∈ buffers
      · exact hgone o hin
      · obtain rfl := (List.mem_cons.mp ho).resolve_right hin
        refine Gone.frame (.of_object M₁.inv (hb o ho) (by rw [hobj, Function.update_self])) M₂ ?_
        rintro (h | h)
        · exact hin h
        · exact (he o h).not_isObject (hb o ho)

/-- The engines of the client that are ready have page tables of their own. -/
theorem Inv.spaces (I : s.Inv g) {o : Owner} (ho : Spaces s.readyEngines o) :
    ∃ e x, s.client.engines e = some x ∧ o = .ownTables (.legacy s.client.id e) := by
  obtain ⟨x, hx, rfl⟩ := ho
  obtain ⟨e, -, hx⟩ := List.mem_filterMap.mp hx
  obtain ⟨hx, -⟩ := Option.filter_eq_some_iff.mp hx
  obtain ⟨hid, -, hspace, -⟩ := I.client.equipped.engine hx
  exact ⟨e, x, hx, by rw [hspace, hid]⟩

theorem Inv.buffers (I : s.Inv g) {o : Owner} :
    o ∈ (List.range kMaxBuffers).filterMap s.client.buffers ↔ ∃ i, s.client.buffers i = some o := by
  rw [List.mem_filterMap]
  constructor
  · rintro ⟨i, -, hi⟩
    exact ⟨i, hi⟩
  · rintro ⟨i, hi⟩
    exact ⟨i, List.mem_range.mpr (I.client.holding.slot hi).1, hi⟩

/-- A client that is not quarantined leaves nothing behind. -/
theorem destroy_spec (I : s.Inv g) (hq : s.quarantined = false) :
    Moves g s.Mine s.mem (s.destroy ω) ∧ ∀ o, s.Mine o → (s.destroy ω).Gone o := by
  rw [destroy, if_neg (by rw [hq]; exact Bool.false_ne_true)]
  have hbuffer {o : Owner} (ho : o ∈ (List.range kMaxBuffers).filterMap s.client.buffers) :
      ∃ h, o = .buffer s.client.id h := by
    obtain ⟨i, hi⟩ := I.buffers.mp ho
    exact ⟨_, (I.client.holding.slot hi).2.2.1⟩
  have hengine {e : EngineId} {x : RenderEngine} (hx : s.client.engines e = some x) {o : Owner}
      (ho : (ContextId.legacy s.client.id e).Owns o) :
      Owned ([EngineId.blitter, .render].filterMap s.client.engines) o := by
    refine ⟨x, List.mem_filterMap.mpr ⟨e, ?_, hx⟩, (I.client.equipped.engine hx).1 ▸ ho⟩
    cases e with
    | blitter => exact List.mem_cons_self
    | render => exact List.mem_cons_of_mem _ List.mem_cons_self
  have howned {o : Owner} (ho : Owned ([EngineId.blitter, .render].filterMap s.client.engines) o) :
      ∃ e x, s.client.engines e = some x ∧ (ContextId.legacy s.client.id e).Owns o := by
    obtain ⟨x, hx, ho⟩ := ho
    obtain ⟨e, -, hx⟩ := List.mem_filterMap.mp hx
    exact ⟨e, x, hx, (I.client.equipped.engine hx).1 ▸ ho⟩
  obtain ⟨M₁, hgone₁⟩ := destroyNative_spec I
  obtain ⟨M₂, hgone₂⟩ := destroyBuffers_spec (ω := ω) M₁.inv
    (fun o ho => by obtain ⟨e, x, -, rfl⟩ := I.spaces ho; trivial)
    (fun o ho => by obtain ⟨h, rfl⟩ := hbuffer ho; trivial)
  obtain ⟨M₃, hgone₃⟩ := destroyAll_spec ([EngineId.blitter, .render].filterMap s.client.engines)
    M₂.inv
  -- what no stage is about was not there
  have hstay {o : Owner} (ho : ¬ (o ∈ (List.range kMaxBuffers).filterMap s.client.buffers ∨
      Spaces s.readyEngines o)) (ho' : ¬ Owned _ o) (h : s.destroyNative.Gone o) :=
    (h.frame M₂ ho).frame M₃ ho'
  refine ⟨(M₁.mono fun o => OfNative.mine).trans ((M₂.mono fun o ho => ?_).trans
    (M₃.mono fun o ho => ?_)), fun o ho => ?_⟩
  · rcases ho with ho | ho
    · obtain ⟨h, rfl⟩ := hbuffer ho
      rfl
    · obtain ⟨e, x, -, rfl⟩ := I.spaces ho
      rfl
  · obtain ⟨e, x, -, ho⟩ := howned ho
    exact ho.client
  by_cases hlegacy : ∃ e, (ContextId.legacy s.client.id e).Owns o
  · obtain ⟨e, he⟩ := hlegacy
    cases hx : s.client.engines e with
    | some x => exact hgone₃ o (hengine hx he)
    | none =>
      have hmem : s.mem.Gone o := by
        obtain ⟨hparts, htables⟩ := I.client.equipped.absent hx
        cases o with
        | part y p =>
          have hy : y = _ := he
          exact .of_object I.mem trivial (hy ▸ hparts p)
        | ownTables y =>
          have hy : y = _ := he
          exact .of_tables I.mem trivial (hy ▸ htables)
        | gtt => exact nomatch he
        | vm c => exact nomatch he
        | buffer c h => exact nomatch he
      refine hstay ?_ ?_ (hmem.frame M₁ ?_)
      · rintro (h | h)
        · obtain ⟨n, rfl⟩ := hbuffer h
          exact nomatch he
        · obtain ⟨e', x, hx', rfl⟩ := I.spaces h
          cases he.unique (ContextId.owns_tables (.legacy s.client.id e'))
          exact nomatch hx.symm.trans hx'
      · intro h
        obtain ⟨e', x, hx', ho'⟩ := howned h
        cases he.unique ho'
        exact nomatch hx.symm.trans hx'
      · rintro (rfl | ⟨k, hk⟩)
        · exact nomatch he
        · exact nomatch he.unique hk
  · have hno : ¬ Owned ([EngineId.blitter, .render].filterMap s.client.engines) o := by
      intro h
      obtain ⟨e, -, -, he⟩ := howned h
      exact hlegacy ⟨e, he⟩
    have hspaces : ¬ Spaces s.readyEngines o := by
      intro h
      obtain ⟨e, x, -, rfl⟩ := I.spaces h
      exact hlegacy ⟨e, ContextId.owns_tables _⟩
    by_cases hin : o ∈ (List.range kMaxBuffers).filterMap s.client.buffers
    · exact (hgone₂ o hin).frame M₃ hno
    · refine hstay (not_or.mpr ⟨hin, hspaces⟩) hno ?_
      by_cases hnative : s.OfNative o
      · exact hgone₁ o hnative
      · refine Gone.frame ?_ M₁ hnative
        cases o with
        | buffer c h =>
          obtain rfl := Option.some.inj ho
          refine .of_object I.mem trivial ?_
          by_contra hne
          obtain ⟨bo, hbo⟩ := Option.ne_none_iff_exists'.mp hne
          exact hin (I.buffers.mpr (I.client.holding.all hbo))
        | vm c =>
          obtain rfl := Option.some.inj ho
          exact absurd (.inl rfl) hnative
        | gtt => exact nomatch ho
        | part y p =>
          cases y with
          | master e => exact nomatch ho
          | legacy c e =>
            obtain rfl := Option.some.inj ho
            exact absurd ⟨e, ContextId.owns_part _ p⟩ hlegacy
          | native c k =>
            obtain rfl := Option.some.inj ho
            exact absurd (.inr ⟨k, ContextId.owns_part _ p⟩) hnative
        | ownTables y =>
          cases y with
          | master e => exact nomatch ho
          | legacy c e =>
            obtain rfl := Option.some.inj ho
            exact absurd ⟨e, ContextId.owns_tables _⟩ hlegacy
          | native c k =>
            obtain rfl := Option.some.inj ho
            exact absurd (.inr ⟨k, ContextId.owns_tables _⟩) hnative

end Session

end IntelGfx
