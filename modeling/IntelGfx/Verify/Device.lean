import IntelGfx.Theory.Run
import IntelGfx.Verify.Lifetime

/-!
# The device at work

`Device.Inv` holds between any two calls of the users of the device: each client that is open keeps
its own invariant whatever the others do, and a client that was closed has left nothing behind
unless an engine has hung. `step_inv` is the step lemma and `exec_inv` carries it over a run.
-/

namespace IntelGfx
open Memory RenderEngine

namespace Device
variable {ω : Oracle} {g g' : GlobalGTT} {d d' : Device} {c : Nat} {x x' : RenderClient}
  {K : Owner → Prop} {m : Memory}

/-- An engine has hung. -/
def Faulted (masters : Masters) : Prop := ∃ e y, masters e = some y ∧ y.faulted = true

theorem Faulted.older {masters masters' : Masters} (h : Faulted masters)
    (O : Older masters masters') : Faulted masters' := by
  obtain ⟨e, y, hy, hf⟩ := h
  obtain ⟨y', hy', hf'⟩ := O e y hy
  exact ⟨e, y', hy', hf' hf⟩

structure Inv (g : GlobalGTT) (d : Device) : Prop where
  mem : d.mem.Inv g
  count : ∃ live : Finset Nat, (∀ c, c ∈ live ↔ d.clients c ≠ none) ∧ live.card = d.openCount
  client : ∀ {c x}, d.clients c = some x → c < d.nextClient ∧ x.id = c ∧ (d.session x).Inv g
  master : ∀ {e y}, d.masters e = some y → y.id = .master e ∧ y.engine = e
  absent : ∀ {e}, d.masters e = none → ∀ o, (ContextId.master e).Owns o → d.mem.Gone o
  gtt : d.mem.gtt.valid = false → ∀ e, d.masters e = none
  gone : ∀ {c o}, o.client = some c → d.clients c = none →
    d.mem.Gone o ∨ c < d.nextClient ∧ Faulted d.masters

theorem start_inv (config : Config) (entries : Nat → Nat) (foreign : List Nat) :
    Inv (.new entries) (start config entries foreign) where
  mem := ⟨⟨⟨nofun, nofun, nofun, nofun, nofun, nofun⟩, nofun, rfl, fun _ _ => rfl, nofun, nofun,
    nofun, nofun⟩, nofun, nofun, nofun⟩
  count := ⟨∅, fun _ => ⟨nofun, fun h => absurd rfl h⟩, rfl⟩
  client := nofun
  master := nofun
  absent := fun _ _ _ => ⟨rfl, rfl⟩
  gtt := fun _ _ => rfl
  gone := fun _ _ => .inl ⟨rfl, rfl⟩

theorem valid_eq (H : m.Inv g) : m.gtt.valid = g.valid := by
  rw [Memory.gtt, H.aperture.rest]

/-- Nobody has the device open. -/
theorem Inv.closed (I : d.Inv g) (h : d.openCount = 0) (c : Nat) : d.clients c = none := by
  obtain ⟨live, hlive, hcard⟩ := I.count
  rw [Finset.card_eq_zero.mp (hcard.trans h)] at hlive
  by_contra hne
  exact Finset.notMem_empty c ((hlive c).mpr hne)

/-- Something changes that belongs to no client. -/
theorem Inv.shared (I : d.Inv g) (hclients : d'.clients = d.clients)
    (hnext : d'.nextClient = d.nextClient) (hcount : d'.openCount = d.openCount)
    (O : Older d.masters d'.masters) (M : Moves g' K d.mem d'.mem)
    (hK : ∀ o, K o → o.client = none)
    (hmaster : ∀ {e y}, d'.masters e = some y → y.id = .master e ∧ y.engine = e)
    (habsent : ∀ {e}, d'.masters e = none → ∀ o, (ContextId.master e).Owns o → d'.mem.Gone o)
    (hgtt : d'.mem.gtt.valid = false → ∀ e, d'.masters e = none) : d'.Inv g' := by
  have hne {o : Owner} {c : Nat} (ho : o.client = some c) : ¬ K o :=
    fun h => nomatch (hK o h).symm.trans ho
  refine ⟨M.inv, ?_, fun {c x} hx => ?_, hmaster, habsent, hgtt, fun {c o} ho hc => ?_⟩
  · rw [hclients, hcount]
    exact I.count
  · rw [hclients] at hx
    rw [hnext]
    obtain ⟨hlt, hid, S⟩ := I.client hx
    exact ⟨hlt, hid, S.frame rfl O M fun o ho => hne ho⟩
  · rw [hclients] at hc
    rw [hnext]
    exact (I.gone ho hc).imp (fun h => h.frame M (hne ho)) fun h => ⟨h.1, h.2.older O⟩

/-- Only calls were made. -/
theorem Inv.idle (I : d.Inv g) (h : d.mem.Idle m) : Inv g { d with mem := m } := by
  have M : Moves g (fun _ => False) d.mem m := h.moves I.mem
  refine I.shared rfl rfl rfl .rfl M (fun o h => h.elim) I.master
    (fun he o ho => (I.absent he o ho).frame M id) fun hv => I.gtt ?_
  rw [← h.gtt]
  exact hv

/-- `agp_gart` writes an entry. -/
theorem Inv.gart (I : d.Inv g) (page entry : Nat) :
    ∃ g', Inv g' { d with mem := d.mem.gart page entry } ∧
      Moves g' (fun _ => False) d.mem (d.mem.gart page entry) := by
  obtain ⟨g', M, hv⟩ := gart_spec I.mem page entry
  refine ⟨g', I.shared rfl rfl rfl .rfl M (fun o h => h.elim) I.master
    (fun he o ho => (I.absent he o ho).frame M id) fun hv' => I.gtt ?_, M⟩
  rwa [← hv]

/-- A client and its buffers are left as they are. -/
structure Undisturbed (c : Nat) (d d' : Device) : Prop where
  client : d'.clients c = d.clients c
  objects : ∀ {o}, o.client = some c → d'.mem.objects o = d.mem.objects o

namespace Undisturbed
variable {d'' : Device}

theorem rfl : Undisturbed c d d := ⟨Eq.refl _, fun _ => Eq.refl _⟩

theorem trans (h : Undisturbed c d d') (h' : Undisturbed c d' d'') : Undisturbed c d d'' :=
  ⟨h'.client.trans h.client, fun ho => (h'.objects ho).trans (h.objects ho)⟩

theorem of_idle (h : d.mem.Idle m) : Undisturbed c d { d with mem := m } :=
  ⟨Eq.refl _, fun _ => congrFun h.objects _⟩

/-- Only what belongs to others moves. -/
theorem of_moves (hc : d'.clients c = d.clients c) (M : Moves g K d.mem d'.mem)
    (hK : ∀ o, o.client = some c → ¬ K o) : Undisturbed c d d' :=
  ⟨hc, fun ho => M.objects (hK _ ho)⟩

end Undisturbed

/-- A client as it starts on a request. -/
def entered (d : Device) (x : RenderClient) : Session :=
  ({ d with mem := d.mem.enter } : Device).session x

theorem Inv.entered (I : d.Inv g) (hx : d.clients c = some x) : (d.entered x).Inv g :=
  ((I.idle (idle_enter d.mem)).client hx).2.2

/-- A client after its request. -/
theorem step_ioctl {ω : Oracle} {header : Header} {request : Request} {r : Except Error Reply}
    {s : Session} (hx : d.clients c = some x)
    (h : (d.entered x).ioctl ω header request = (r, s)) :
    (step (.ioctl c header request, ω) d).clients c = some s.client ∧
      (step (.ioctl c header request, ω) d).session s.client = s := by
  have hstep : step (.ioctl c header request, ω) d = { d with
      mem := s.mem
      masters := s.masters
      clients := Function.update d.clients c (some s.client) } := by
    change (Device.ioctl ω { d with mem := d.mem.enter } c header request).2 = _
    rw [Device.ioctl]
    split
    · next hx' => cases hx.symm.trans hx'
    next y hx' =>
    obtain rfl := Option.some.inj (hx.symm.trans hx')
    exact congrArg (fun res : Except Error Reply × Session => ({ d with
      mem := res.2.mem
      masters := res.2.masters
      clients := Function.update d.clients c (some res.2.client) } : Device)) h
  rw [hstep]
  exact ⟨Function.update_self .., rfl⟩

/-! ## The first open and the last close -/

/-- Nobody has come or gone. -/
structure SameClients (d d' : Device) : Prop where
  clients : d'.clients = d.clients
  nextClient : d'.nextClient = d.nextClient
  openCount : d'.openCount = d.openCount

theorem initGTT_same (ω : Oracle) (d : Device) : SameClients d (d.initGTT ω) := by
  rw [Device.initGTT]
  split
  · exact ⟨rfl, rfl, rfl⟩
  split
  · exact ⟨rfl, rfl, rfl⟩
  split
  · exact ⟨rfl, rfl, rfl⟩
  · exact ⟨rfl, rfl, rfl⟩

theorem uninit_same (d : Device) : SameClients d d.uninit := by
  rw [Device.uninit]
  split
  · exact ⟨rfl, rfl, rfl⟩
  · exact ⟨rfl, rfl, rfl⟩

/-- A master comes up, or it does not and leaves nothing. -/
theorem Inv.createMaster {e : EngineId} {y : Option RenderEngine} (I : d.Inv g)
    (hv : d.mem.gtt.valid = true) (he : d.masters e = none)
    (h : createEngine ω d.mem (.master e) e = (y, m)) :
    Inv g { d with mem := m, masters := Function.update d.masters e y } ∧ m.gtt.valid = true ∧
      ∀ c, Undisturbed c d { d with mem := m, masters := Function.update d.masters e y } := by
  obtain ⟨M, hmade⟩ := createEngine_spec I.mem (I.absent he) h
  have hv' : m.gtt.valid = true := (valid_eq M.inv).trans ((valid_eq I.mem).symm.trans hv)
  refine ⟨I.shared rfl rfl rfl (fun e' y' hy' => ?_) M (fun o ho => ho.client)
    (fun {e' y'} hy' => ?_) (fun {e'} he' o ho => ?_) (fun hf => nomatch hv'.symm.trans hf), hv',
    fun c => .of_moves rfl M fun o ho ho' => nomatch ho'.client.symm.trans ho⟩
  · have hne : e' ≠ e := by
      rintro rfl
      exact nomatch he.symm.trans hy'
    exact ⟨y', (Function.update_of_ne hne ..).trans hy', id⟩
  · by_cases hne : e' = e
    · subst hne
      have hy' := (Function.update_self ..).symm.trans hy'
      subst hy'
      obtain ⟨rfl, -⟩ := hmade
      exact ⟨rfl, rfl⟩
    · exact I.master ((Function.update_of_ne hne ..).symm.trans hy')
  · by_cases hne : e' = e
    · subst hne
      have he' := (Function.update_self ..).symm.trans he'
      subst he'
      exact hmade o ho
    · refine (I.absent ((Function.update_of_ne hne ..).symm.trans he') o ho).frame M fun ho' => ?_
      exact hne (ContextId.master.inj (ho.unique ho'))

/-- Whatever fails while the global GTT and the masters are set up. -/
theorem Inv.initGTT (I : d.Inv g) (ω : Oracle) :
    (∃ g', Inv g' (d.initGTT ω)) ∧ ∀ c, Undisturbed c d (d.initGTT ω) := by
  rw [Device.initGTT]
  split
  · exact ⟨⟨g, I⟩, fun _ => .rfl⟩
  rename_i hv
  have hv : d.mem.gtt.valid = false := Bool.eq_false_iff.mpr hv
  have hnone := I.gtt hv
  split
  · next m ha => exact ⟨⟨g, I.idle (allocate_idle ha)⟩, fun _ => .of_idle (allocate_idle ha)⟩
  next m ha =>
  have I₁ := I.idle (allocate_idle ha)
  have U₁ (c : Nat) : Undisturbed c d { d with mem := m } := .of_idle (allocate_idle ha)
  have hv₁ : m.gtt.valid = false := (congrArg GlobalGTT.valid (allocate_idle ha).gtt).trans hv
  split
  · next e m' hi =>
    obtain ⟨-, -, g', M, -, herror⟩ := initGTT_spec I₁.mem hv₁ hi
    refine ⟨⟨g', I₁.shared rfl rfl rfl .rfl M (fun o ho => ho ▸ rfl) I₁.master
      (fun he o ho => (I₁.absent he o ho).frame M ?_) fun _ => hnone⟩, fun c => (U₁ c).trans
      (.of_moves rfl M fun o ho ho' => nomatch (ho' ▸ ho : Owner.gtt.client = some c))⟩
    rintro rfl
    exact nomatch ho
  next m' hi =>
  obtain ⟨-, -, g', M, hok, -⟩ := initGTT_spec I₁.mem hv₁ hi
  have hv₂ := hok rfl
  have I₂ : Inv g' { d with mem := m' } := by
    refine I₁.shared rfl rfl rfl .rfl M (fun o ho => ho ▸ rfl) I₁.master
      (fun he o ho => (I₁.absent he o ho).frame M ?_) fun _ => hnone
    rintro rfl
    exact nomatch ho
  have U₂ (c : Nat) : Undisturbed c d { d with mem := m' } := (U₁ c).trans
    (.of_moves rfl M fun o ho ho' => nomatch (ho' ▸ ho : Owner.gtt.client = some c))
  split
  next blitter m₃ hb =>
  obtain ⟨I₃, hv₃, U₃⟩ := I₂.createMaster hv₂ (hnone .blitter) hb
  split
  next render m₄ hr =>
  obtain ⟨I₄, -, U₄⟩ :=
    I₃.createMaster hv₃ ((Function.update_of_ne (by decide) ..).trans (hnone .render)) hr
  refine ⟨⟨g', ?_⟩, fun c => ⟨rfl, ((U₂ c).trans ((U₃ c).trans (U₄ c))).objects⟩⟩
  refine (congrArg (fun f => Inv g' { d with mem := m₄, masters := f }) (funext fun e => ?_)).mp I₄
  cases e with
  | blitter =>
    refine (Function.update_of_ne (by decide) ..).trans ?_
    exact Function.update_self EngineId.blitter blitter d.masters
  | render => exact Function.update_self ..

/-- Nobody has the device open: the masters and the global GTT are taken down, unless an engine has
hung. -/
theorem Inv.uninit (I : d.Inv g) (h : ∀ c, d.clients c = none) : ∃ g', Inv g' d.uninit := by
  rw [Device.uninit]
  split
  · exact ⟨g, I⟩
  rename_i hno
  have hfine : ¬ Faulted d.masters := by
    rintro ⟨e, y, hy, hf⟩
    refine hno (List.any_eq_true.mpr ⟨e, ?_, ?_⟩)
    · cases e with
      | blitter => exact List.mem_cons_self
      | render => exact List.mem_cons_of_mem _ List.mem_cons_self
    · rw [hy]
      exact hf
  obtain ⟨M₁, hgone⟩ := destroyAll_spec ([EngineId.render, .blitter].filterMap d.masters) I.mem
  dsimp only
  generalize ([EngineId.render, .blitter].filterMap d.masters).foldl (fun m x => x.destroy m)
    d.mem = m at M₁ hgone ⊢
  have howned {o : Owner} (ho : Owned ([EngineId.render, .blitter].filterMap d.masters) o) :
      o.client = none := by
    obtain ⟨y, hy, ho⟩ := ho
    obtain ⟨e, -, hy⟩ := List.mem_filterMap.mp hy
    rw [ho.client, (I.master hy).1]
    rfl
  have hclients {o : Owner} {c : Nat} (ho : o.client = some c) : m.Gone o := by
    rcases I.gone ho (h c) with hg | ⟨-, hf⟩
    · exact hg.frame M₁ fun ho' => nomatch (howned ho').symm.trans ho
    · exact absurd hf hfine
  have hmasters {e : EngineId} {o : Owner} (ho : (ContextId.master e).Owns o) : m.Gone o := by
    by_cases hin : Owned ([EngineId.render, .blitter].filterMap d.masters) o
    · exact hgone o hin
    · cases hy : d.masters e with
      | none => exact (I.absent hy o ho).frame M₁ hin
      | some y =>
        refine absurd ⟨y, List.mem_filterMap.mpr ⟨e, ?_, hy⟩, (I.master hy).1 ▸ ho⟩ hin
        cases e with
        | blitter => exact List.mem_cons_of_mem _ List.mem_cons_self
        | render => exact List.mem_cons_self
  have hunbound : m.Unbound := by
    intro o bo hbo
    have hnone : m.objects o = none := by
      have hobject := (M₁.inv.object hbo).1
      cases hc : o.client with
      | some c => exact (hclients hc).object
      | none =>
        cases o with
        | part y p =>
          cases y with
          | master e => exact (hmasters (ContextId.owns_part (.master e) p)).object
          | legacy c e => exact nomatch hc
          | native c k => exact nomatch hc
        | gtt => exact hobject.elim
        | ownTables y => exact hobject.elim
        | vm c => exact hobject.elim
        | buffer c h => exact nomatch hc
    exact nomatch hnone.symm.trans hbo
  obtain ⟨-, -, -, g', M₂⟩ := deleteGTT_spec M₁.inv hunbound
  refine ⟨g', ⟨M₂.inv, I.count, fun {c x} hx => ?_, nofun, fun {e} _ o ho => ?_, fun _ _ => rfl,
    fun {c o} ho _ => .inl ?_⟩⟩
  · exact nomatch (h c).symm.trans hx
  · refine (hmasters ho).frame M₂ ?_
    rintro rfl
    exact nomatch ho
  · refine (hclients ho).frame M₂ ?_
    rintro rfl
    exact nomatch ho

/-! ## Opens, requests and closes -/

theorem Inv.openClient (I : d.Inv g) (ω : Oracle) :
    (∃ g', Inv g' (d.openClient ω)) ∧ ∀ c, d.clients c ≠ none →
    Undisturbed c d (d.openClient ω) := by
  rw [Device.openClient]
  generalize hs : (if d.openCount = 0 then d.mem.allocate ω else (.ok (), d.mem)) = res
  obtain ⟨status, m⟩ := res
  have hidle : d.mem.Idle m := by
    split at hs
    · exact allocate_idle hs
    · obtain ⟨-, rfl⟩ := Prod.mk.inj hs
      exact .rfl
  have I₁ := I.idle hidle
  cases status with
  | error e => exact ⟨⟨g, I₁⟩, fun _ _ => .of_idle hidle⟩
  | ok u =>
    obtain ⟨⟨g', I₂⟩, U⟩ := I₁.initGTT ω
    dsimp only
    generalize Device.initGTT ω { d with mem := m } = d₂ at I₂ U ⊢
    have U (c : Nat) : Undisturbed c d d₂ := .trans (.of_idle hidle) (U c)
    split
    · next e m₃ ha =>
      have I₃ := I₂.idle (allocate_idle ha)
      have U (c : Nat) : Undisturbed c d { d₂ with mem := m₃ } :=
        (U c).trans (.of_idle (allocate_idle ha))
      split
      · next h =>
        refine ⟨I₃.uninit (I₃.closed h), fun c hc => absurd ?_ hc⟩
        exact (U c).client.symm.trans (I₃.closed h c)
      · exact ⟨⟨g', I₃⟩, fun c _ => U c⟩
    next m₃ ha =>
    have I₃ := I₂.idle (allocate_idle ha)
    have U (c : Nat) : Undisturbed c d { d₂ with mem := m₃ } :=
      (U c).trans (.of_idle (allocate_idle ha))
    have hfree : d₂.clients d₂.nextClient = none := by
      by_contra hne
      obtain ⟨x, hx⟩ := Option.ne_none_iff_exists'.mp hne
      exact Nat.lt_irrefl _ (I₃.client hx).1
    generalize hnew : RenderClient.new ω d₂.nextClient d₂.config d₂.masters m₃ = res
    obtain ⟨x, m₄⟩ := res
    dsimp only
    obtain ⟨M, hid, S, -⟩ := RenderClient.new_spec I₃.mem (fun o ho =>
      (I₃.gone ho hfree).resolve_right fun h => Nat.lt_irrefl _ h.1) hnew
    have hclient {o : Owner} {e : EngineId} (ho : (ContextId.master e).Owns o) :
        ¬ o.client = some d₂.nextClient := by
      rw [ho.client]
      exact nofun
    refine ⟨⟨g', ⟨M.inv, ?_, fun {c y} hy => ?_, I₃.master,
      fun he o ho => (I₃.absent he o ho).frame M (hclient ho), fun hv => I₃.gtt ?_,
      fun {c o} ho hc => ?_⟩⟩, fun c hc => (U c).trans ?_⟩
    · obtain ⟨live, hlive, hcard⟩ := I₃.count
      refine ⟨insert d₂.nextClient live, fun c => ?_, ?_⟩
      · dsimp only
        rw [Finset.mem_insert]
        by_cases hc : c = d₂.nextClient
        · subst hc
          rw [Function.update_self]
          exact iff_of_true (.inl rfl) nofun
        · rw [Function.update_of_ne hc]
          exact (or_iff_right hc).trans (hlive c)
      · rw [Finset.card_insert_of_notMem fun h => (hlive _).mp h hfree, hcard]
    · dsimp only at hy
      by_cases hc : c = d₂.nextClient
      · subst hc
        rw [Function.update_self] at hy
        obtain rfl := Option.some.inj hy
        exact ⟨Nat.lt_succ_self _, hid, S⟩
      · rw [Function.update_of_ne hc] at hy
        obtain ⟨hlt, hid', S'⟩ := I₃.client hy
        refine ⟨Nat.lt_succ_of_lt hlt, hid', S'.frame rfl .rfl M fun o ho ho' => hc ?_⟩
        exact hid'.symm.trans (Option.some.inj (ho.symm.trans ho'))
    · exact (valid_eq I₃.mem).trans ((valid_eq M.inv).symm.trans hv)
    · dsimp only at hc
      by_cases hc' : c = d₂.nextClient
      · subst hc'
        rw [Function.update_self] at hc
        exact nomatch hc
      · rw [Function.update_of_ne hc'] at hc
        refine (I₃.gone ho hc).imp (fun h => h.frame M fun ho' => hc' ?_)
          fun h => ⟨Nat.lt_succ_of_lt h.1, h.2⟩
        exact Option.some.inj (ho.symm.trans ho')
    · have hne : c ≠ d₂.nextClient := by
        rintro rfl
        exact hc ((U _).client.symm.trans hfree)
      refine .of_moves (Function.update_of_ne hne ..) M fun o ho ho' => hne ?_
      exact Option.some.inj (ho.symm.trans ho')

/-- A request of a client concerns only that client. -/
theorem Inv.request {r : Except Error Reply} {s : Session} {header : Header} {request : Request}
    (I : d.Inv g) (hx : d.clients c = some x) (h : (d.session x).ioctl ω header request = (r, s)) :
    Inv g { d with
      mem := s.mem, masters := s.masters, clients := Function.update d.clients c (some s.client) } ∧
      ∀ c', c' ≠ c → Undisturbed c' d { d with
        mem := s.mem
        masters := s.masters
        clients := Function.update d.clients c (some s.client) } := by
  obtain ⟨hlt, hid, S⟩ := I.client hx
  have E := Session.ioctl_keeps S h
  have hmine {o : Owner} (ho : (d.session x).Mine o) : o.client = some c := hid ▸ ho
  have hmaster {e : EngineId} {o : Owner} (ho : (ContextId.master e).Owns o) :
      ¬ (d.session x).Mine o := fun ho' => nomatch ho.client.symm.trans ho'
  refine ⟨⟨E.inv.mem, ?_, fun {c' y} hy => ?_, fun {e y'} hy' => ?_, fun {e} he o ho => ?_,
    fun hv e => ?_, fun {c' o} ho hc => ?_⟩, fun c' hc => .of_moves (Function.update_of_ne hc ..)
    E.moves fun o ho ho' => hc (Option.some.inj (ho.symm.trans (hmine ho')))⟩
  · obtain ⟨live, hlive, hcard⟩ := I.count
    refine ⟨live, fun c' => ?_, hcard⟩
    dsimp only
    by_cases hc : c' = c
    · subst hc
      rw [Function.update_self]
      exact iff_of_true ((hlive _).mpr fun hn => nomatch hx.symm.trans hn) nofun
    · rw [Function.update_of_ne hc]
      exact hlive c'
  · dsimp only at hy
    by_cases hc : c' = c
    · subst hc
      rw [Function.update_self] at hy
      obtain rfl := Option.some.inj hy
      exact ⟨hlt, E.id.trans hid, E.inv⟩
    · rw [Function.update_of_ne hc] at hy
      obtain ⟨hlt', hid', S'⟩ := I.client hy
      refine ⟨hlt', hid', S'.frame rfl E.masters.older E.moves fun o ho ho' => hc ?_⟩
      exact hid'.symm.trans (Option.some.inj (ho.symm.trans (hmine ho')))
  · obtain ⟨y, hy, heq, -⟩ := E.masters.back hy'
    obtain ⟨h₁, h₂⟩ := I.master hy
    rw [heq]
    exact ⟨h₁, h₂⟩
  · cases hy : d.masters e with
    | none => exact (I.absent hy o ho).frame E.moves (hmaster ho)
    | some y =>
      obtain ⟨y', hy', -⟩ := (E.masters e).2 y hy
      exact nomatch he.symm.trans hy'
  · exact (E.masters e).1 (I.gtt ((valid_eq I.mem).trans ((valid_eq E.inv.mem).symm.trans hv)) e)
  · dsimp only at hc
    by_cases hc' : c' = c
    · subst hc'
      rw [Function.update_self] at hc
      exact nomatch hc
    · rw [Function.update_of_ne hc'] at hc
      refine (I.gone ho hc).imp (fun h => h.frame E.moves fun ho' => hc' ?_)
        fun h => ⟨h.1, h.2.older E.masters.older⟩
      exact Option.some.inj (ho.symm.trans (hmine ho'))

/-- A client that is quarantined has hung an engine. -/
theorem quarantined_faulted {s : Session} (I : s.Inv g) (h : s.quarantined = true) :
    Faulted s.masters := by
  rcases Bool.or_eq_true_iff.mp h with h | h
  · obtain ⟨n, hn, hf⟩ := (Option.any_eq_true _ _).mp h
    obtain ⟨y, hy, hyf⟩ := I.scheduled.native hn
    exact ⟨_, y, hy, hyf hf⟩
  · obtain ⟨e, -, h⟩ := List.any_eq_true.mp h
    obtain ⟨x, hx, hf⟩ := (Option.any_eq_true _ _).mp h
    obtain ⟨y, hy, hyf⟩ := I.scheduled.engine hx
    exact ⟨e, y, hy, hyf hf⟩

theorem Inv.closeClient (I : d.Inv g) (ω : Oracle) (c : Nat) :
    (∃ g', Inv g' (d.closeClient ω c)) ∧
      ∀ c', d.clients c' ≠ none → c' ≠ c → Undisturbed c' d (d.closeClient ω c) := by
  rw [Device.closeClient]
  cases hx : d.clients c with
  | none => exact ⟨⟨g, I⟩, fun _ _ _ => .rfl⟩
  | some x =>
    obtain ⟨hlt, hid, S⟩ := I.client hx
    have hmine {o : Owner} : (d.session x).Mine o ↔ o.client = some c := by rw [← hid]; rfl
    -- what the client leaves behind, if anything, is quarantined
    have hdestroy : Moves g (d.session x).Mine d.mem ((d.session x).destroy ω) ∧
        ∀ o, o.client = some c → ((d.session x).destroy ω).Gone o ∨ Faulted d.masters := by
      cases hq : (d.session x).quarantined with
      | true =>
        rw [Session.destroy, if_pos hq]
        exact ⟨.rfl S.mem, fun o _ => .inr (quarantined_faulted S hq)⟩
      | false =>
        obtain ⟨M, hgone⟩ := Session.destroy_spec (ω := ω) S hq
        exact ⟨M, fun o ho => .inl (hgone o (hmine.mpr ho))⟩
    obtain ⟨M, hgone⟩ := hdestroy
    have I₁ : Inv g { d with
        mem := (d.session x).destroy ω
        clients := Function.update d.clients c none
        openCount := d.openCount - 1 } := by
      refine ⟨M.inv, ?_, fun {c' y} hy => ?_, I.master,
        fun he o ho => (I.absent he o ho).frame M (fun ho' => by cases ho.client.symm.trans ho'),
        fun hv => I.gtt ((valid_eq I.mem).trans ((valid_eq M.inv).symm.trans hv)),
          fun {c' o} ho hc => ?_⟩
      · obtain ⟨live, hlive, hcard⟩ := I.count
        refine ⟨live.erase c, fun c' => ?_, ?_⟩
        · dsimp only
          rw [Finset.mem_erase]
          by_cases hc : c' = c
          · subst hc
            rw [Function.update_self]
            exact iff_of_false (fun h => h.1 rfl) fun h => h rfl
          · rw [Function.update_of_ne hc]
            exact (and_iff_right hc).trans (hlive c')
        · rw [Finset.card_erase_of_mem ((hlive c).mpr fun hn => by cases hx.symm.trans hn), hcard]
      · dsimp only at hy
        have hc : c' ≠ c := by
          rintro rfl
          rw [Function.update_self] at hy
          cases hy
        rw [Function.update_of_ne hc] at hy
        obtain ⟨hlt', hid', S'⟩ := I.client hy
        refine ⟨hlt', hid', S'.frame rfl .rfl M fun o ho ho' => hc ?_⟩
        exact hid'.symm.trans (Option.some.inj (ho.symm.trans (hmine.mp ho')))
      · dsimp only at hc
        by_cases hc' : c' = c
        · subst hc'
          exact (hgone o ho).imp_right fun h => ⟨hlt, h⟩
        · rw [Function.update_of_ne hc'] at hc
          refine (I.gone ho hc).imp_left fun h => h.frame M fun ho' => hc' ?_
          exact Option.some.inj (ho.symm.trans (hmine.mp ho'))
    have U (c' : Nat) (hc : c' ≠ c) : Undisturbed c' d { d with
        mem := (d.session x).destroy ω
        clients := Function.update d.clients c none
        openCount := d.openCount - 1 } :=
      .of_moves (Function.update_of_ne hc ..) M fun o ho ho' =>
        hc (Option.some.inj (ho.symm.trans (hmine.mp ho')))
    dsimp only
    split
    · next h =>
      refine ⟨I₁.uninit (I₁.closed h), fun c' hopen hc => absurd ?_ hopen⟩
      exact (U c' hc).client.symm.trans (I₁.closed h c')
    · exact ⟨⟨g, I₁⟩, fun c' _ hc => U c' hc⟩

/-- Whether it is the client that makes the call. -/
def Call.By (c : Nat) : Call → Prop
  | .open | .gart _ _ => False
  | .ioctl c' _ _ | .close c' => c' = c

theorem step_inv (a : Call × Oracle) (I : d.Inv g) : (∃ g', Inv g' (step a d)) ∧
    ∀ c, d.clients c ≠ none → ¬ a.1.By c → Undisturbed c d (step a d) := by
  obtain ⟨call, ω⟩ := a
  have I₁ := I.idle (idle_enter d.mem)
  have U₁ (c : Nat) : Undisturbed c d { d with mem := d.mem.enter } := .of_idle (idle_enter d.mem)
  unfold step
  cases call with
  | «open» =>
    obtain ⟨I₂, U₂⟩ := I₁.openClient ω
    exact ⟨I₂, fun c hc _ => (U₁ c).trans (U₂ c hc)⟩
  | ioctl c header request =>
    dsimp only
    rw [Device.ioctl]
    split
    · exact ⟨⟨g, I₁⟩, fun c' _ _ => U₁ c'⟩
    · next x hx =>
      generalize h : Session.ioctl ω _ header request = res
      obtain ⟨I₂, U₂⟩ := I₁.request hx h
      exact ⟨⟨g, I₂⟩, fun c' _ hc => (U₁ c').trans (U₂ c' (Ne.symm hc))⟩
  | close c =>
    obtain ⟨I₂, U₂⟩ := I₁.closeClient ω c
    exact ⟨I₂, fun c' hopen hc => (U₁ c').trans (U₂ c' hopen (Ne.symm hc))⟩
  | gart page entry =>
    obtain ⟨g', I₂, M⟩ := I₁.gart page entry
    exact ⟨⟨g', I₂⟩, fun c' _ _ => (U₁ c').trans (.of_moves rfl M fun _ _ => id)⟩

/-- Whatever the users of the device do, and whatever fails. -/
theorem exec_inv (config : Config) (entries : Nat → Nat) (foreign : List Nat)
    (calls : List (Call × Oracle)) :
    ∃ g, Inv g (Run.exec step (start config entries foreign) calls) :=
  Run.invariant_of_step (I := fun d => ∃ g, Inv g d) (fun _ a ⟨_, I⟩ => (step_inv a I).1) calls
    ⟨_, start_inv config entries foreign⟩

/-- What the others do leaves a client alone. -/
theorem exec_undisturbed (calls : List (Call × Oracle)) (I : ∃ g, d.Inv g)
    (hc : d.clients c ≠ none) (h : ∀ a ∈ calls, ¬ a.1.By c) :
    (∃ g, (Run.exec step d calls).Inv g) ∧ Undisturbed c d (Run.exec step d calls) := by
  induction calls generalizing d with
  | nil => exact ⟨I, .rfl⟩
  | cons a calls ih =>
    obtain ⟨g, I⟩ := I
    obtain ⟨I₁, U⟩ := step_inv a I
    have U := U c hc (h a List.mem_cons_self)
    obtain ⟨I₂, U'⟩ := ih I₁ (U.client ▸ hc) fun b hb => h b (List.mem_cons_of_mem _ hb)
    exact ⟨I₂, U.trans U'⟩

/-! ## The life of a client -/

theorem openClient_cases (ω : Oracle) (d : Device) :
    ((d.openClient ω).clients = d.clients ∧ (d.openClient ω).nextClient = d.nextClient) ∨
      ∃ x, (d.openClient ω).clients = Function.update d.clients d.nextClient (some x) ∧
        (d.openClient ω).nextClient = d.nextClient + 1 ∧ x.native = none := by
  rw [openClient]
  generalize (if d.openCount = 0 then d.mem.allocate ω else (.ok (), d.mem)) = res
  obtain ⟨status, m⟩ := res
  cases status with
  | error e => exact .inl ⟨rfl, rfl⟩
  | ok u =>
    obtain ⟨hclients, hnext, -⟩ := initGTT_same ω { d with mem := m }
    dsimp only
    generalize initGTT ω { d with mem := m } = d₂ at hclients hnext ⊢
    split
    · next e m₃ ha =>
      split
      · obtain ⟨hclients', hnext', -⟩ := uninit_same { d₂ with mem := m₃ }
        exact .inl ⟨hclients'.trans hclients, hnext'.trans hnext⟩
      · exact .inl ⟨hclients, hnext⟩
    · next m₃ ha =>
      obtain hclients : d₂.clients = d.clients := hclients
      obtain hnext : d₂.nextClient = d.nextClient := hnext
      exact .inr ⟨_, by rw [hclients, hnext], congrArg (· + 1) hnext, rfl⟩

theorem closeClient_gone (ω : Oracle) (d : Device) (c : Nat) :
    (d.closeClient ω c).clients c = none := by
  rw [Device.closeClient]
  split
  · next h => exact h
  dsimp only
  split
  · exact (congrFun (uninit_same _).clients c).trans (Function.update_self ..)
  · exact Function.update_self ..

/-- A client comes with an open. -/
theorem step_absent (a : Call × Oracle) (h : d.clients c = none) :
    (step a d).clients c = none ∨ a.1 = .open ∧ c = d.nextClient := by
  obtain ⟨call, ω⟩ := a
  unfold step
  cases call with
  | «open» =>
    rcases openClient_cases ω { d with mem := d.mem.enter } with ⟨hclients, -⟩ | ⟨x, hclients, -⟩
    · exact .inl ((congrFun hclients c).trans h)
    · by_cases hc : c = d.nextClient
      · exact .inr ⟨rfl, hc⟩
      · exact .inl ((congrFun hclients c).trans ((Function.update_of_ne hc ..).trans h))
  | ioctl c' header request =>
    dsimp only
    rw [Device.ioctl]
    split
    · exact .inl h
    · next x hx =>
      have hne : c ≠ c' := by
        rintro rfl
        cases h.symm.trans hx
      exact .inl ((Function.update_of_ne hne ..).trans h)
  | close c' =>
    refine .inl ?_
    dsimp only
    rw [Device.closeClient]
    split
    · exact h
    have hgone (y : RenderClient) : Function.update d.clients c' none c ≠ some y := by
      rw [Function.update_apply]
      split
      · exact (Option.some_ne_none y).symm
      · rw [h]
        exact (Option.some_ne_none y).symm
    dsimp only
    split
    · exact (congrFun (uninit_same _).clients c).trans (Option.eq_none_iff_forall_ne_some.mpr hgone)
    · exact Option.eq_none_iff_forall_ne_some.mpr hgone
  | gart page entry => exact .inl h

/-- What becomes of a client while the users of the device take their steps. -/
structure Lives (c : Nat) (d d' : Device) : Prop where
  next : c < d'.nextClient
  closed : d.clients c = none → d'.clients c = none
  client : ∀ {x x'}, d.clients c = some x → d'.clients c = some x' →
    Advances x x' ∧ Aged x.engines x'.engines

namespace Lives
variable {d'' : Device}

theorem of_eq (h : c < d.nextClient) (hn : d'.nextClient = d.nextClient)
    (hc : d'.clients c = d.clients c) : Lives c d d' := by
  refine ⟨hn ▸ h, fun hnone => hc.trans hnone, fun {x x'} hx hx' => ?_⟩
  obtain rfl := Option.some.inj (hx.symm.trans (hc.symm.trans hx'))
  exact ⟨.rfl, .rfl⟩

theorem trans (h : Lives c d d') (h' : Lives c d' d'') : Lives c d d'' := by
  refine ⟨h'.next, fun hnone => h'.closed (h.closed hnone), fun {x x''} hx hx'' => ?_⟩
  cases hx' : d'.clients c with
  | none => exact nomatch (h'.closed hx').symm.trans hx''
  | some x' =>
    obtain ⟨A, E⟩ := h.client hx hx'
    obtain ⟨A', E'⟩ := h'.client hx' hx''
    exact ⟨A.trans A', E.trans E'⟩

end Lives

theorem step_lives (I : d.Inv g) (a : Call × Oracle) (h : c < d.nextClient) :
    Lives c d (step a d) := by
  obtain ⟨call, ω⟩ := a
  have I₁ := I.idle (idle_enter d.mem)
  unfold step
  dsimp only
  generalize hd : ({ d with mem := d.mem.enter } : Device) = d₁ at I₁ ⊢
  have hclients : d₁.clients = d.clients := by rw [← hd]
  have hnext : d₁.nextClient = d.nextClient := by rw [← hd]
  have hlt : c < d₁.nextClient := hnext ▸ h
  refine (Lives.of_eq h hnext (congrFun hclients c)).trans ?_
  cases call with
  | «open» =>
    dsimp only
    rcases openClient_cases ω d₁ with ⟨hc, hn⟩ | ⟨x, hc, hn, -⟩
    · exact .of_eq hlt hn (congrFun hc c)
    · have hcc : (d₁.openClient ω).clients c = d₁.clients c := by
        rw [hc, Function.update_of_ne (Nat.ne_of_lt hlt)]
      refine ⟨hn ▸ Nat.lt_succ_of_lt hlt, fun hnone => hcc.trans hnone, fun {x x'} hx hx' => ?_⟩
      obtain rfl := Option.some.inj (hx.symm.trans (hcc.symm.trans hx'))
      exact ⟨.rfl, .rfl⟩
  | ioctl c' header request =>
    dsimp only
    rw [Device.ioctl]
    split
    · exact .of_eq hlt rfl rfl
    · next y hy =>
      generalize hi : Session.ioctl ω _ header request = res
      by_cases hc : c = c'
      · subst hc
        obtain ⟨r, s⟩ := res
        have E := Session.ioctl_keeps (I₁.client hy).2.2 hi
        refine ⟨hlt, (fun hnone => nomatch hnone.symm.trans hy), fun {x x'} hx hx' => ?_⟩
        obtain rfl := Option.some.inj (hx.symm.trans hy)
        dsimp only at hx'
        rw [Function.update_self] at hx'
        obtain rfl := Option.some.inj hx'
        exact ⟨E.advances, E.engines⟩
      · exact .of_eq hlt rfl (Function.update_of_ne hc ..)
  | close c' =>
    dsimp only
    rw [Device.closeClient]
    split
    · exact .of_eq hlt rfl rfl
    · next y hy =>
      have L : Lives c d₁ { d₁ with
          mem := (d₁.session y).destroy ω
          clients := Function.update d₁.clients c' none
          openCount := d₁.openCount - 1 } := by
        by_cases hc : c = c'
        · subst hc
          have hnone : Function.update d₁.clients c none c = none := Function.update_self ..
          exact ⟨hlt, fun _ => hnone, fun _ hx' => nomatch hnone.symm.trans hx'⟩
        · exact .of_eq hlt rfl (Function.update_of_ne hc ..)
      dsimp only
      split
      · obtain ⟨hc, hn, -⟩ := uninit_same { d₁ with
          mem := (d₁.session y).destroy ω
          clients := Function.update d₁.clients c' none
          openCount := d₁.openCount - 1 }
        exact L.trans (.of_eq L.next hn (congrFun hc c))
      · exact L
  | gart page entry =>
    subst hd
    exact .of_eq hlt rfl rfl

theorem exec_lives (calls : List (Call × Oracle)) (I : ∃ g, d.Inv g) (h : c < d.nextClient) :
    Lives c d (Run.exec step d calls) := by
  induction calls generalizing d with
  | nil => exact .of_eq h rfl rfl
  | cons a calls ih =>
    obtain ⟨g, I⟩ := I
    have L := step_lives I a h
    exact L.trans (ih (step_inv a I).1 L.next)

theorem exec_lives_of_open {config : Config} {entries : Nat → Nat} {foreign : List Nat}
    {calls : List (Call × Oracle)}
    (h : (Run.exec step (start config entries foreign) calls).clients c = some x)
    (calls' : List (Call × Oracle)) :
    Lives c (Run.exec step (start config entries foreign) calls)
      (Run.exec step (start config entries foreign) (calls ++ calls')) := by
  obtain ⟨g, I⟩ := exec_inv config entries foreign calls
  rw [Run.exec_append]
  exact exec_lives calls' ⟨g, I⟩ (I.client h).1

/-! ## Handles, ids and what a client is charged for -/

/-- The handles and ids of a client and the sums it is charged for. -/
structure Charged (x : RenderClient) (m : Memory) : Prop where
  allocated : x.allocated = ∑ i ∈ Finset.range kMaxBuffers, charge m x.buffers i
  allocated_le : x.allocated ≤ kClientMemoryLimit
  bound : x.bound = ∑ i ∈ Finset.range kMaxBuffers, boundCharge m x.buffers i
  bound_le : x.bound ≤ kClientApertureLimit
  slot : ∀ {i o}, x.buffers i = some o → i < kMaxBuffers ∧ o = .buffer x.id (x.handles i) ∧
    ∃ bo, m.objects o = some bo
  handle : ∀ i, x.handles i ≠ 0 ↔ x.buffers i ≠ none
  distinct : ∀ {i j}, x.handles i ≠ 0 → x.handles i = x.handles j → i = j
  context : ∀ {n}, x.native = some n → (∀ i, n.ids i ≠ 0 ↔ n.contexts i ≠ none) ∧
    ∀ {i j}, n.ids i ≠ 0 → n.ids i = n.ids j → i = j

theorem charged_of_inv {s : Session} (I : s.Inv g) : Charged s.client s.mem := by
  have A := I.accounts
  have H := I.client.holding
  have hhandle (i : Nat) : s.client.handles i ≠ 0 ↔ s.client.buffers i ≠ none := by
    refine ⟨fun h hn => h (A.free hn), fun h => ?_⟩
    obtain ⟨o, ho⟩ := Option.ne_none_iff_exists'.mp h
    exact (H.slot ho).2.1
  refine ⟨A.allocated, A.allocated_le, A.bound, A.bound_le, fun ho => ?_, hhandle,
    fun {i j} hi hij => ?_, fun {n} hn => ?_⟩
  · obtain ⟨hlt, -, heq, bo, hbo, -⟩ := H.slot ho
    exact ⟨hlt, heq, bo, hbo⟩
  · obtain ⟨o, ho⟩ := Option.ne_none_iff_exists'.mp ((hhandle i).mp hi)
    obtain ⟨o', ho'⟩ := Option.ne_none_iff_exists'.mp ((hhandle j).mp (hij ▸ hi))
    refine H.inj ho (?_ : s.client.buffers j = some o)
    rw [ho', (H.slot ho).2.2.1, (H.slot ho').2.2.1, hij]
  · have N := I.client.native
    rw [hn] at N
    obtain ⟨R, -⟩ := N
    refine ⟨fun i => ⟨fun h => ?_, fun h => ?_⟩, R.inj⟩
    · obtain ⟨y, hy⟩ := R.named h
      rw [hy]
      exact nofun
    · obtain ⟨y, hy⟩ := Option.ne_none_iff_exists'.mp h
      exact (R.context hy).2.1

/-- A handle that was given back is never given out again. -/
theorem handle_gone {x₁ x₂ : RenderClient} (H : Holding x.id x.buffers x.handles x.nextHandle m)
    {h : Nat} (hfree : ∀ i, x.buffers i = none → x.handles i = 0) (h0 : h ≠ 0)
    (hh : ∃ i, x.handles i = h) (A : Advances x x₁) (A' : Advances x₁ x₂)
    (h₁ : ∀ i, x₁.handles i ≠ h) (i : Nat) : x₂.handles i ≠ h := by
  intro h₂
  obtain ⟨j, rfl⟩ := hh
  rcases A'.handles i (h₂ ▸ h0) with ⟨k, hk⟩ | hle
  · exact h₁ k (hk.trans h₂)
  · cases hj : x.buffers j with
    | none => exact h0 (hfree j hj)
    | some o =>
      have := H.next hj
      have := A.nextHandle
      omega

/-- An id that was given back is never given out again. -/
theorem id_gone {x₁ x₂ : RenderClient} {h : Nat} (hlimit : h < limit x.nextContext)
    (h0 : h ≠ 0) (A : Advances x x₁) (A' : Advances x₁ x₂) (h₁ : ∀ i, x₁.ids i ≠ h) (i : Nat) :
    x₂.ids i ≠ h := by
  intro h₂
  rcases A'.ids i (h₂ ▸ h0) with ⟨k, hk⟩ | hle
  · exact h₁ k (hk.trans h₂)
  · have := A.nextContext
    omega

/-- Whatever a client and the other users of the device have done: its counters are the sums of what
it holds and within their limits, a slot has a handle exactly if it has a buffer and an id exactly
if it has a context, and no handle and no id comes back once it has gone. -/
theorem exec_charged (config : Config) (entries : Nat → Nat) (foreign : List Nat)
    (calls : List (Call × Oracle)) {c : Nat} {x : RenderClient}
    (hx : (Run.exec step (start config entries foreign) calls).clients c = some x) :
    Charged x (Run.exec step (start config entries foreign) calls).mem ∧
    ∀ (calls₁ calls₂ : List (Call × Oracle)) (x₁ x₂ : RenderClient),
      (Run.exec step (start config entries foreign) (calls ++ calls₁)).clients c = some x₁ →
      (Run.exec step (start config entries foreign) (calls ++ calls₁ ++ calls₂)).clients c =
        some x₂ → ∀ h, h ≠ 0 →
      ((∃ i, x.handles i = h) → (∀ i, x₁.handles i ≠ h) → ∀ i, x₂.handles i ≠ h) ∧
      ((∃ i, x.ids i = h) → (∀ i, x₁.ids i ≠ h) → ∀ i, x₂.ids i ≠ h) := by
  have hlives := exec_lives_of_open hx
  obtain ⟨g, I⟩ := exec_inv config entries foreign calls
  obtain ⟨-, -, S⟩ := I.client hx
  refine ⟨charged_of_inv S, fun calls₁ calls₂ x₁ x₂ hx₁ hx₂ h h0 => ?_⟩
  obtain ⟨A, -⟩ := (hlives calls₁).client hx hx₁
  obtain ⟨A', -⟩ := (exec_lives_of_open hx₁ calls₂).client hx₁ hx₂
  refine ⟨fun hh h₁ => handle_gone S.client.holding (fun i hi => S.accounts.free hi) h0 hh A A' h₁,
    fun ⟨i, hi⟩ h₁ => id_gone ?_ h0 A A' h₁⟩
  have N : NativeInv x.id x.buffers _ x.native := S.client.native
  unfold RenderClient.ids at hi
  unfold RenderClient.nextContext
  cases hn : x.native with
  | none =>
    rw [hn] at hi
    exact absurd hi.symm h0
  | some n =>
    rw [hn] at hi N
    exact hi ▸ N.1.next i

/-- A device where the driver has the last 32 pages that the global GTT maps: enough for the
blitter, but not for the render engine. -/
def Config.blitter : Config := ⟨0x1000000, 0x1000000, 9, 0x200000, 0x3ffe0000, true⟩

theorem exec_charged_createBuffer :
    let d := Run.exec step (start Config.blitter (fun _ => 0) [])
      [(.open, .unfailing), (.ioctl 0 ⟨32, 8, 32⟩ (.createBuffer 5000 0 0), .unfailing)]
    ∃ x, d.clients 0 = some x ∧ Charged x d.mem ∧ x.allocated = 8192 := by
  intro d
  have h : (d.clients 0).map (·.allocated) = some 8192 := by decide +kernel
  obtain ⟨x, hx, ha⟩ := Option.map_eq_some_iff.mp h
  exact ⟨x, hx, (exec_charged Config.blitter (fun _ => 0) [] _ hx).1, ha⟩

end Device

end IntelGfx
