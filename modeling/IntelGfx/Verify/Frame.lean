import IntelGfx.Verify.Device

/-!
# What the others leave alone

A client's areas, buffer objects and page tables are as they were after whatever the other users of
the device have done (`exec_leaves`), the first open and the set up of the global GTT included.
-/

namespace IntelGfx
open Memory RenderEngine

namespace Memory
variable {g : GlobalGTT} {m m' m'' : Memory} {K K' : Owner → Prop}

/-- What does not belong to `K` is as it was. -/
structure Leaves (K : Owner → Prop) (m m' : Memory) : Prop where
  os : Os.Changes K m.os m'.os
  objects : ∀ {o}, ¬ K o → m'.objects o = m.objects o
  tables : ∀ {o}, ¬ K o → m'.tables o = m.tables o

namespace Leaves

theorem rfl : Leaves K m m := ⟨.rfl, fun _ => Eq.refl _, fun _ => Eq.refl _⟩

theorem trans (h : Leaves K m m') (h' : Leaves K m' m'') : Leaves K m m'' :=
  ⟨h.os.trans h'.os, fun ho => (h'.objects ho).trans (h.objects ho),
    fun ho => (h'.tables ho).trans (h.tables ho)⟩

end Leaves

theorem Moves.leaves (M : Moves g K m m') (hK : ∀ o, K o → K' o) : Leaves K' m m' :=
  ⟨M.os.mono hK, fun ho => M.objects fun hk => ho (hK _ hk),
    fun ho => M.tables fun hk => ho (hK _ hk)⟩

theorem Leaves.pages {o : Owner} (h : Leaves K m m') (H : m.Inv g) (ho : ¬ K o) :
    m'.pages o = m.pages o := by
  cases hbo : m.objects o with
  | none => simp only [Memory.pages, Memory.area, h.objects ho, hbo, Option.bind_none]
  | some bo =>
    obtain ⟨-, a, ha, har⟩ := H.size_eq hbo
    exact pages_eq ((h.objects ho).trans hbo) ha (h.os.kept har ho)

theorem Idle.leaves (h : m.Idle m') : Leaves K m m' :=
  ⟨h.os.changes, fun _ => congrFun h.objects _, fun _ => congrFun h.tables _⟩

end Memory

namespace Device
variable {g : GlobalGTT} {d d' d'' : Device} {c : Nat} {m : Memory} {ω : Oracle}

/-- The client and all that it owns are as they were. -/
structure Leaves (c : Nat) (d d' : Device) : Prop where
  client : d'.clients c = d.clients c
  mem : Memory.Leaves (·.client ≠ some c) d.mem d'.mem

namespace Leaves

theorem rfl : Leaves c d d := ⟨Eq.refl _, .rfl⟩

theorem trans (h : Leaves c d d') (h' : Leaves c d' d'') : Leaves c d d'' :=
  ⟨h'.client.trans h.client, h.mem.trans h'.mem⟩

theorem tables (h : Leaves c d d') : d'.mem.tables (.vm c) = d.mem.tables (.vm c) :=
  h.mem.tables fun hne => hne (Eq.refl _)

end Leaves

/-- The device is not taken down under what the client owns: the client has it open, or an engine
has hung. -/
structure Lasting (c : Nat) (d : Device) : Prop where
  next : c < d.nextClient
  open_or : d.clients c ≠ none ∨ Faulted d.masters

theorem Inv.lasting {x : RenderClient} (I : d.Inv g) (hx : d.clients c = some x) : Lasting c d :=
  ⟨(I.client hx).1, .inl (hx ▸ Option.some_ne_none x)⟩

/-! ## Opens -/

theorem uninit_of_faulted (h : Faulted d.masters) : d.uninit = d := by
  obtain ⟨e, y, hy, hf⟩ := h
  rw [Device.uninit, if_pos]
  refine List.any_eq_true.mpr ⟨e, ?_, ?_⟩
  · cases e with
    | blitter => exact List.mem_cons_self
    | render => exact List.mem_cons_of_mem _ List.mem_cons_self
  · rw [hy]
    exact hf

theorem initGTT_of_faulted (I : d.Inv g) (ω : Oracle) (h : Faulted d.masters) :
    d.initGTT ω = d := by
  obtain ⟨e, y, hy, -⟩ := h
  rw [Device.initGTT, if_pos]
  by_contra hv
  cases hy.symm.trans (I.gtt (Bool.eq_false_iff.mpr hv) e)

theorem openClient_masters (I : d.Inv g) (ω : Oracle) (h : Faulted d.masters) :
    (d.openClient ω).masters = d.masters := by
  rw [Device.openClient]
  generalize hs : (if d.openCount = 0 then d.mem.allocate ω else (.ok (), d.mem)) = res
  obtain ⟨status, m⟩ := res
  have hidle : d.mem.Idle m := by
    split at hs
    · exact allocate_idle hs
    · obtain ⟨-, rfl⟩ := Prod.mk.inj hs
      exact .rfl
  cases status with
  | error e => rfl
  | ok u =>
    have hm := congrArg Device.masters (initGTT_of_faulted (I.idle hidle) ω h)
    dsimp only at hm ⊢
    generalize Device.initGTT ω { d with mem := m } = d₂ at hm ⊢
    split
    · split
      · rwa [uninit_of_faulted (hm ▸ h)]
      · exact hm
    · exact hm

theorem createEngine_leaves {e : EngineId} {y : Option RenderEngine} (I : d.Inv g)
    (he : d.masters e = none) (h : createEngine ω d.mem (.master e) e = (y, m)) :
    Memory.Leaves (·.client ≠ some c) d.mem m :=
  (createEngine_spec I.mem (I.absent he) h).1.leaves fun o ho hc => by cases ho.client.symm.trans hc

theorem initGTT_leaves (I : d.Inv g) (ω : Oracle) (c : Nat) :
    Leaves c d (d.initGTT ω) := by
  refine ⟨congrFun (initGTT_same ω d).clients c, ?_⟩
  rw [Device.initGTT]
  split
  · exact .rfl
  rename_i hv
  have hv : d.mem.gtt.valid = false := Bool.eq_false_iff.mpr hv
  have hnone := I.gtt hv
  split
  · next ha => exact (allocate_idle ha).leaves
  next m ha =>
  have I₁ := I.idle (allocate_idle ha)
  have hv₁ : m.gtt.valid = false := (congrArg GlobalGTT.valid (allocate_idle ha).gtt).trans hv
  have hgtt (o : Owner) (ho : o = .gtt) : o.client ≠ some c := by
    subst ho
    intro h
    cases h
  split
  · next hi =>
    obtain ⟨-, -, g', M, -⟩ := initGTT_spec I₁.mem hv₁ hi
    exact (allocate_idle ha).leaves.trans (M.leaves hgtt)
  next m' hi =>
  obtain ⟨-, -, g', M, hok, -⟩ := initGTT_spec I₁.mem hv₁ hi
  have hv₂ := hok rfl
  have I₂ : Inv g' { d with mem := m' } := by
    refine I₁.shared rfl rfl rfl .rfl M (fun o ho => ho ▸ rfl) I₁.master
      (fun he o ho => (I₁.absent he o ho).frame M ?_) fun _ => hnone
    rintro rfl
    cases ho
  have L₂ := (allocate_idle ha).leaves.trans (M.leaves hgtt)
  split
  next blitter m₃ hb =>
  obtain ⟨I₃, hv₃, -⟩ := I₂.createMaster hv₂ (hnone .blitter) hb
  have L₃ := L₂.trans (createEngine_leaves I₂ (hnone .blitter) hb)
  split
  next render m₄ hr =>
  have hrender : Function.update d.masters .blitter blitter .render = none :=
    (Function.update_of_ne (by decide) ..).trans (hnone .render)
  exact L₃.trans (createEngine_leaves I₃ hrender hr)

/-- With nobody there the device is not taken down while what a client has left lasts. -/
theorem Lasting.uninit (K : Lasting c d) (I : d.Inv g) (h : d.openCount = 0) : d.uninit = d :=
  uninit_of_faulted (K.open_or.resolve_left (not_not.mpr (I.closed h c)))

theorem openClient_leaves (I : d.Inv g) (ω : Oracle) (K : Lasting c d) :
    Leaves c d (d.openClient ω) := by
  rw [Device.openClient]
  generalize hs : (if d.openCount = 0 then d.mem.allocate ω else (.ok (), d.mem)) = res
  obtain ⟨status, m⟩ := res
  have hidle : d.mem.Idle m := by
    split at hs
    · exact allocate_idle hs
    · obtain ⟨-, rfl⟩ := Prod.mk.inj hs
      exact .rfl
  have I₁ := I.idle hidle
  have L₁ : Leaves c d { d with mem := m } := ⟨rfl, hidle.leaves⟩
  cases status with
  | error e => exact L₁
  | ok u =>
    have L₂ := L₁.trans (initGTT_leaves I₁ ω c)
    obtain ⟨⟨g', I₂⟩, -⟩ := I₁.initGTT ω
    have K₂ : Lasting c (Device.initGTT ω { d with mem := m }) := by
      refine ⟨K.next.trans_eq (initGTT_same ω { d with mem := m }).nextClient.symm,
        K.open_or.imp (fun h => ?_) fun h => ?_⟩
      · rwa [L₂.client]
      · rwa [initGTT_of_faulted I₁ ω h]
    dsimp only
    generalize Device.initGTT ω { d with mem := m } = d₂ at I₂ L₂ K₂ ⊢
    split
    · next m₃ ha =>
      have L₃ : Leaves c d { d₂ with mem := m₃ } :=
        L₂.trans ⟨rfl, (allocate_idle ha).leaves⟩
      split
      · next h =>
        have K₃ : Lasting c { d₂ with mem := m₃ } := ⟨K₂.next, K₂.open_or⟩
        rwa [K₃.uninit (I₂.idle (allocate_idle ha)) h]
      · exact L₃
    next m₃ ha =>
    have I₃ := I₂.idle (allocate_idle ha)
    have hfree : d₂.clients d₂.nextClient = none := by
      by_contra hne
      obtain ⟨x, hx⟩ := Option.ne_none_iff_exists'.mp hne
      exact Nat.lt_irrefl _ (I₃.client hx).1
    generalize hnew : RenderClient.new ω d₂.nextClient d₂.config d₂.masters m₃ = res
    obtain ⟨x, m₄⟩ := res
    obtain ⟨M, -⟩ := RenderClient.new_spec I₃.mem (fun o ho =>
      (I₃.gone ho hfree).resolve_right fun h => Nat.lt_irrefl _ h.1) hnew
    have hne : c ≠ d₂.nextClient := Nat.ne_of_lt K₂.next
    refine L₂.trans ⟨Function.update_of_ne hne .., (allocate_idle ha).leaves.trans ?_⟩
    refine M.leaves fun o ho ho' => hne ?_
    exact Option.some.inj (ho'.symm.trans ho)

/-! ## Closes and runs -/

theorem closeClient_leaves {c' : Nat} (I : d.Inv g) (ω : Oracle) (K : Lasting c d)
    (hne : c ≠ c') : Leaves c d (d.closeClient ω c') := by
  rw [Device.closeClient]
  cases hx : d.clients c' with
  | none => exact .rfl
  | some x =>
    obtain ⟨-, hid, S⟩ := I.client hx
    have hmine (o : Owner) (ho : (d.session x).Mine o) : o.client ≠ some c := fun ho' =>
      hne (Option.some.inj (ho'.symm.trans (ho.trans (congrArg some hid))))
    have M : Moves g (d.session x).Mine d.mem ((d.session x).destroy ω) := by
      cases hq : (d.session x).quarantined with
      | true =>
        rw [Session.destroy, if_pos hq]
        exact .rfl S.mem
      | false => exact (Session.destroy_spec (ω := ω) S hq).1
    have L : Leaves c d { d with
        mem := (d.session x).destroy ω
        clients := Function.update d.clients c' none
        openCount := d.openCount - 1 } := ⟨Function.update_of_ne hne .., M.leaves hmine⟩
    dsimp only
    split
    · next hzero =>
      -- it is not the last one that has the device open, or an engine has hung
      rcases K.open_or with hc | hf
      · obtain ⟨live, hlive, hcard⟩ := I.count
        have hmem' : c' ∈ live := (hlive c').mpr (hx ▸ Option.some_ne_none x)
        have := Finset.one_lt_card.mpr ⟨c, (hlive c).mpr hc, c', hmem', hne⟩
        omega
      · rwa [uninit_of_faulted]
        exact hf
    · exact L

theorem step_leaves (a : Call × Oracle) (I : d.Inv g) (K : Lasting c d)
    (h : ¬ a.1.By c) : Leaves c d (step a d) := by
  obtain ⟨call, ω⟩ := a
  have I₁ := I.idle (idle_enter d.mem)
  have L₁ : Leaves c d { d with mem := d.mem.enter } := ⟨rfl, (idle_enter d.mem).leaves⟩
  have K₁ : Lasting c { d with mem := d.mem.enter } := ⟨K.next, K.open_or⟩
  unfold step
  cases call with
  | «open» => exact L₁.trans (openClient_leaves I₁ ω K₁)
  | ioctl c' header request =>
    dsimp only
    rw [Device.ioctl]
    split
    · exact L₁
    · next x hx =>
      obtain ⟨-, hid, S⟩ := I₁.client hx
      generalize hi : Session.ioctl ω _ header request = res
      obtain ⟨r, s⟩ := res
      have hne : c ≠ c' := Ne.symm h
      refine L₁.trans ⟨Function.update_of_ne hne .., ?_⟩
      refine (Session.ioctl_keeps S hi).moves.leaves fun o ho ho' => hne ?_
      exact Option.some.inj (ho'.symm.trans (ho.trans (congrArg some hid)))
  | close c' => exact L₁.trans (closeClient_leaves I₁ ω K₁ (Ne.symm h))
  | gart page entry =>
    obtain ⟨g', -, M⟩ := I₁.gart page entry
    exact L₁.trans ⟨rfl, M.leaves fun _ => False.elim⟩

theorem step_faulted (a : Call × Oracle) (I : d.Inv g) (h : Faulted d.masters) :
    Faulted (step a d).masters := by
  obtain ⟨call, ω⟩ := a
  have I₁ := I.idle (idle_enter d.mem)
  unfold step
  cases call with
  | «open» => exact (openClient_masters I₁ ω h).symm ▸ h
  | ioctl c' header request =>
    dsimp only
    rw [Device.ioctl]
    split
    · exact h
    · next x hx =>
      generalize hi : Session.ioctl ω _ header request = res
      obtain ⟨r, s⟩ := res
      exact h.older (Session.ioctl_keeps (I₁.client hx).2.2 hi).masters.older
  | close c' =>
    dsimp only
    rw [Device.closeClient]
    split
    · exact h
    · dsimp only
      split
      · rwa [uninit_of_faulted]
        exact h
      · exact h
  | gart page entry => exact h

end Device
end IntelGfx
