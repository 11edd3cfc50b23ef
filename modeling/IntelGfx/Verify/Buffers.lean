import IntelGfx.Verify.Session

/-!
# The operations on buffers

`kCreateBuffer`, `kCloseBuffer`, `kBindBuffer`, `kUnbindBuffer` and `kFramebuffer`. For each there
is a lemma that says what can become of it, and one that it keeps what a client relies on.
-/

namespace IntelGfx
open Memory RenderEngine

namespace Session
variable {ω : Oracle} {g : GlobalGTT} {s s' : Session} {r : Except Error Reply}
  {c c' : RenderClient} {m m' : Memory} {o : Owner} {K : Owner → Prop}

/-! ## Slots and engines -/

theorem mem_readyEngines {x : RenderEngine} (h : x ∈ s.readyEngines) :
    ∃ e, s.client.engines e = some x ∧ x.isReady s.masters = true := by
  obtain ⟨e, -, hx⟩ := List.mem_filterMap.mp h
  obtain ⟨hx, hr⟩ := Option.filter_eq_some_iff.mp hx
  exact ⟨e, hx, hr⟩

theorem readyEngines_mem {e : EngineId} {x : RenderEngine} (h : s.client.engines e = some x)
    (hr : x.isReady s.masters = true) : x ∈ s.readyEngines :=
  List.mem_filterMap.mpr ⟨e, by cases e <;> simp, Option.filter_eq_some_iff.mpr ⟨h, hr⟩⟩

/-- The address spaces of the engines of a client. -/
theorem spaces_readyEngines (C : s.client.Inv s.mem) (h : Spaces s.readyEngines o) :
    ∃ e, o = .ownTables (.legacy s.client.id e) := by
  obtain ⟨x, hx, rfl⟩ := h
  obtain ⟨e, hx, -⟩ := mem_readyEngines hx
  obtain ⟨hid, -, hspace, -⟩ := C.equipped.engine hx
  exact ⟨e, by rw [hspace, hid]⟩

theorem mine_of_spaces (C : s.client.Inv s.mem) (h : Spaces s.readyEngines o) : s.Mine o := by
  obtain ⟨e, rfl⟩ := spaces_readyEngines C h
  rfl

/-- What is known of a buffer in a slot. -/
theorem buffer_mem {i : Nat} (C : c.Inv m) (hi : c.buffers i = some o) :
    o.client = some c.id ∧ o.IsObject ∧ ∃ bo, m.objects o = some bo ∧ 0 < bo.size := by
  obtain ⟨-, -, rfl, bo, hbo⟩ := C.holding.slot hi
  exact ⟨rfl, trivial, bo, hbo⟩

theorem size_round (H : m.Inv g) (hs : m.size o ≤ kVirtualAddressLimit) :
    pageRound (m.size o) = m.size o := by
  unfold kVirtualAddressLimit at hs
  cases ho : m.objects o with
  | none => simp [Memory.size, ho, pageRound]
  | some bo =>
    obtain ⟨hlen, -⟩ := H.size_eq ho
    simp only [Memory.size, ho] at hs ⊢
    rw [hlen, pageRound_mul (by omega)]

/-- Two buffers that are bound are never in one place. -/
theorem bound_apart {o' : Owner} {a : Nat} (H : m.Inv g) (hb : m.isBound o = true)
    (hb' : m.isBound o' = true) (ha : Range (m.graphicsAddress o) (m.size o) a)
    (ha' : Range (m.graphicsAddress o') (m.size o') a) : o = o' := by
  obtain ⟨bo, ho, hb⟩ := (Option.any_eq_true _ _).mp hb
  obtain ⟨bo', ho', hb'⟩ := (Option.any_eq_true _ _).mp hb'
  simp only [Memory.graphicsAddress, Memory.size, ho, ho'] at ha ha'
  exact H.apart ho ho' hb hb' ha ha'

/-- A buffer and the page tables of the engines. -/
abbrev Around (s : Session) (buffer o : Owner) : Prop := o = buffer ∨ Spaces s.readyEngines o

theorem mine_of_around {slot : Nat} {buffer : Owner} (C : s.client.Inv s.mem)
    (hslot : s.client.buffers slot = some buffer) (h : s.Around buffer o) : s.Mine o := by
  rcases h with rfl | h
  · obtain ⟨-, -, rfl, -⟩ := C.holding.slot hslot
    rfl
  · exact mine_of_spaces C h

theorem not_around {buffer : Owner} {h : Nat} (C : s.client.Inv s.mem)
    (hne : Owner.buffer s.client.id h ≠ buffer) : ¬ s.Around buffer (.buffer s.client.id h) := by
  rintro (hk | hk)
  · exact hne hk
  · obtain ⟨e, he⟩ := spaces_readyEngines C hk
    cases he

theorem other_slot {slot i : Nat} {buffer : Owner} (C : c.Inv m)
    (hslot : c.buffers slot = some buffer) (hi : i ≠ slot) (ho : c.buffers i = some o) :
    o ≠ buffer := by
  rintro rfl
  exact hi (C.holding.inj ho hslot)

/-- What is done to the page tables of the engines leaves the rest of the client alone. -/
theorem engines_inv {P : Owner → Nat → Nat → Nat → Prop} (C : s.client.Inv s.mem) (H : s.mem.Inv g)
    (M : Moves g (Spaces s.readyEngines) s.mem m') (hobj : m'.objects = s.mem.objects)
    (hT : Retabled P s.mem m') : s.client.Inv m' where
  holding := C.holding.congr hobj
  equipped := C.equipped.frame M (fun e p h => by
    obtain ⟨e', he'⟩ := spaces_readyEngines C h
    cases he') fun e => hT.isSome _
  native := by
    refine C.native.frame H M (fun h => ?_) (fun k o ho h => ?_) (fun _ _ _ _ => rfl)
      fun n s o _ _ ho h => ?_
    · obtain ⟨e', he'⟩ := spaces_readyEngines C h
      cases he'
    · obtain ⟨e', rfl⟩ := spaces_readyEngines C h
      cases ho
    · obtain ⟨e', rfl⟩ := spaces_readyEngines C h
      obtain ⟨-, -, heq, -⟩ := C.holding.slot ho
      cases heq

/-- A buffer changes in the global GTT and the page tables of the engines do with it. -/
theorem rebound_inv {slot : Nat} {buffer : Owner} {bo : BufferObject Owner}
    {P : Owner → Nat → Nat → Nat → Prop} (C : s.client.Inv s.mem) (H : s.mem.Inv g)
    (M : Moves g (s.Around buffer) s.mem m')
    (hslot : s.client.buffers slot = some buffer)
    (hn : ∀ n, s.client.native = some n → n.addresses slot = 0)
    (hbo : m'.objects buffer = some bo) (hs : 0 < bo.size) (hT : Retabled P s.mem m') :
    s.client.Inv m' := by
  obtain ⟨-, -, hbuffer, -⟩ := C.holding.slot hslot
  have hK {o : Owner} (h : s.Around buffer o) :
      o = buffer ∨ ∃ e, o = .ownTables (.legacy s.client.id e) :=
        h.imp_right (spaces_readyEngines C)
  refine ⟨C.holding.change M (fun h hne hk => ?_) hslot hbo hs,
    C.equipped.frame M (fun e p hk => ?_) fun e => hT.isSome _,
    C.native.frame H M (fun hk => ?_) (fun k o ho hk => ?_) (fun _ _ _ _ => rfl)
      fun n i o hn' hi ho hk => ?_⟩
  · rcases hK hk with h | ⟨e, h⟩
    · exact hne h
    · cases h
  · rcases hK hk with h | ⟨e, h⟩
    · rw [hbuffer] at h
      cases h
    · cases h
  · rcases hK hk with h | ⟨e, h⟩
    · rw [hbuffer] at h
      cases h
    · cases h
  · rcases hK hk with rfl | ⟨e, rfl⟩
    · rw [hbuffer] at ho
      exact ho
    · cases ho
  · rcases hK hk with rfl | ⟨e, rfl⟩
    · rw [C.holding.inj ho hslot] at hi
      exact hi (hn n hn')
    · obtain ⟨-, -, heq, -⟩ := C.holding.slot ho
      cases heq

/-- Where a buffer is bound in the global GTT, its slot is not bound in the native page tables. -/
theorem native_unbound {slot : Nat} {n : NativeState} (C : c.Inv m) (hn : c.native = some n)
    (hslot : c.buffers slot = some o) (hb : m.isBound o = true) : n.addresses slot = 0 := by
  by_contra hne
  obtain ⟨o', bo, ho', hbo, hbound, -⟩ := C.native.slot hn hne
  cases ho'.symm.trans hslot
  simp [isBound, hbo, BufferObject.isBound, hbound] at hb

/-- The engines still show the other buffers. -/
theorem Shown.others {P : Owner → Nat → Nat → Nat → Prop} {buffer : Owner} (S : s.Shown)
    (C : s.client.Inv s.mem) (H : s.mem.Inv g) (M : Moves g K s.mem s'.mem)
    (hT : Retabled P s.mem s'.mem) (he : s'.client.engines = s.client.engines)
    (hm : s'.masters = s.masters) (hK : ∀ h, Owner.buffer s.client.id h ≠ buffer →
      ¬ K (.buffer s.client.id h))
    (hnew : ∀ {e x}, s'.client.engines e = some x → x.isReady s'.masters = true →
      s'.mem.isBound buffer = true → (∃ i, s'.client.buffers i = some buffer) →
      ∃ pt, s'.mem.tables x.addressSpace = some pt ∧ s'.mem.Shows pt buffer)
    (hold : ∀ {i o}, s'.client.buffers i = some o → o ≠ buffer → ∃ j, s.client.buffers j = some o)
    (hP : ∀ {e o a t p}, o ≠ buffer → s.mem.isBound o = true →
      Range (s.mem.graphicsAddress o) (s.mem.size o) a →
      ¬ P (.ownTables (.legacy s.client.id e)) a t p) : s'.Shown := by
  refine S.change hT (he ▸ .rfl) (hm ▸ .rfl) fun {e x i o} hx hr ho hb => ?_
  by_cases heq : o = buffer
  · subst heq
    exact .inl (hnew hx hr hb ⟨i, ho⟩)
  obtain ⟨j, hj⟩ := hold ho heq
  obtain ⟨-, -, hbuffer, -⟩ := C.holding.slot hj
  have hk : ¬ K o := by
    rw [hbuffer] at heq ⊢
    exact hK _ heq
  have hb' : s.mem.isBound o = true := by rwa [isBound, M.objects hk] at hb
  obtain ⟨hid, -, hspace, -⟩ := C.equipped.engine (he ▸ hx)
  refine .inr ⟨M.objects hk, M.pages H hk, ⟨j, hj⟩, fun a t p ha hp => absurd hp ?_⟩
  rw [hspace, hid]
  exact hP heq hb' ha

/-! ## `kCreateBuffer` -/

/-- What can become of a request for a buffer: it is refused, or the buffer cannot be made, or the
caller cannot be told of it and its handle is lost, or it is there. -/
theorem createBuffer_cases {size flags reserved : Nat}
    (h : s.createBuffer ω size flags reserved = (r, s')) :
    (∃ e, r = .error e) ∧ Idle s s' ∨
    ∃ slot m₁ r₁ m₂, s.client.nextHandle ≠ 0 ∧ 0 < pageRound size ∧
      pageRound size ≤ kMaxBufferSize ∧
      pageRound size ≤ sub64 kClientMemoryLimit s.client.allocated ∧ slot < kMaxBuffers ∧
      s.client.buffers slot = none ∧ s.mem.Idle m₁ ∧
      m₁.newObject ω (.buffer s.client.id s.client.nextHandle) (pageRound size) = (r₁, m₂) ∧
      ((∃ e, r₁ = .error e ∧ r = .error e) ∧ s' = s.setMem m₂ ∨
        r₁ = .ok () ∧ ∃ m₃, m₂.Idle m₃ ∧
          ((∃ e, r = .error e) ∧ s' = ⟨{ s.client with
              nextHandle := (s.client.nextHandle + 1) % 2 ^ 32 }, s.masters,
              m₃.deleteObject (.buffer s.client.id s.client.nextHandle)⟩ ∨
            r = .ok (.buffer (pageRound size) s.client.nextHandle
              (m₃.area (.buffer s.client.id s.client.nextHandle))) ∧
            s' = ⟨{ s.client with
              nextHandle := (s.client.nextHandle + 1) % 2 ^ 32
              buffers := Function.update s.client.buffers slot
                (some (.buffer s.client.id s.client.nextHandle))
              handles := Function.update s.client.handles slot s.client.nextHandle
              allocated := s.client.allocated + pageRound size }, s.masters, m₃⟩)) := by
  unfold createBuffer at h
  dsimp only at h
  split at h
  · cases h
    exact .inl ⟨⟨_, rfl⟩, .rfl⟩
  next hbad =>
  split at h
  · cases h
    exact .inl ⟨⟨_, rfl⟩, .rfl⟩
  next hlimit =>
  split at h
  · cases h
    exact .inl ⟨⟨_, rfl⟩, .rfl⟩
  next slot hslot =>
  split at h
  · next hm =>
    cases h
    exact .inl ⟨⟨_, rfl⟩, idle_setMem (allocate_idle hm)⟩
  next m₁ hm₁ =>
  have hmem := List.mem_range.mp (List.mem_of_find?_eq_some hslot)
  have hfree : s.client.buffers slot = none := by simpa using List.find?_some hslot
  simp only [not_or] at hbad
  obtain ⟨-, -, hpos, hmax, hn⟩ := hbad
  have hround : 0 < pageRound size ∧ pageRound size ≤ kMaxBufferSize := by
    unfold kMaxBufferSize at hmax ⊢
    unfold pageRound
    omega
  generalize hm₂ : m₁.newObject ω (.buffer s.client.id s.client.nextHandle) (pageRound size) = res
    at h
  obtain ⟨r₁, m₂⟩ := res
  refine .inr ⟨slot, m₁, r₁, m₂, hn, hround.1, hround.2, Nat.le_of_not_lt hlimit, hmem, hfree,
    allocate_idle hm₁, hm₂, ?_⟩
  cases r₁ with
  | error e =>
    cases h
    exact .inl ⟨⟨e, rfl, rfl⟩, rfl⟩
  | ok u =>
  refine .inr ⟨rfl, ?_⟩
  dsimp only at h
  split at h
  · next e m₃ hm₃ =>
    cases h
    exact ⟨m₃, userMemcpy_idle hm₃, .inl ⟨⟨e, rfl⟩, rfl⟩⟩
  · next m₃ hm₃ =>
    cases h
    exact ⟨m₃, userMemcpy_idle hm₃, .inr ⟨rfl, rfl⟩⟩

/-- A buffer that is made, whether it stays or not, is a new one. -/
theorem newBuffer_inv (C : c.Inv m) (H : m.Inv g) (hn : c.nextHandle ≠ 0)
    (M : Moves g (· = .buffer c.id c.nextHandle) m m') (hid : c'.id = c.id)
    (hengines : c'.engines = c.engines) (hnative : c'.native = c.native)
    (hb : ∀ s, c.buffers s ≠ none → c'.buffers s = c.buffers s)
    (hold : Holding c'.id c'.buffers c'.handles c'.nextHandle m') : c'.Inv m' := by
  refine ⟨hold, ?_, ?_⟩
  · rw [hid, hengines]
    exact C.equipped.frame M (fun _ _ => nofun) fun e => by rw [M.tables (o := .ownTables _) nofun]
  · rw [hid, hnative]
    refine C.native.frame H M nofun (fun k o ho => ?_) (fun n s hn hs => hb s ?_)
      fun n s o hn' hs ho => ?_
    · rintro rfl
      exact ho
    · obtain ⟨o, bo, ho, -⟩ := C.native.slot hn hs
      exact ho ▸ Option.some_ne_none o
    · rintro rfl
      obtain ⟨-, -, -, bo, hbo, -⟩ := C.holding.slot ho
      simp [C.holding.fresh hn] at hbo

theorem createBuffer_keeps {size flags reserved : Nat} (I : s.Inv g)
    (h : s.createBuffer ω size flags reserved = (r, s')) : Keeps g s s' := by
  rcases createBuffer_cases h with ⟨-, hidle⟩ | ⟨slot, m₁, r₁, m₂, hn, hpos, hmax, hlimit, hslot,
    hfree, I₁, hnew, h⟩
  · exact hidle.keeps I
  have C := I.client
  have hold := C.holding
  have M₁ : Moves g (· = .buffer s.client.id s.client.nextHandle) s.mem m₁ := I₁.moves I.mem
  have hfresh := hold.fresh hn
  obtain ⟨M₂, ht₂, -, herr, hok⟩ := newObject_spec M₁.inv (Owner.isObject_buffer _ _)
    ((congrFun I₁.objects _).trans hfresh) (pageRound_mod size) hnew
  have M₂ := M₁.trans M₂
  have ht₂ := ht₂.trans I₁.tables
  have hmine {m : Memory} (M : Moves g (· = .buffer s.client.id s.client.nextHandle) s.mem m) :
      Moves g s.Mine s.mem m := M.mono fun o ho => ho ▸ rfl
  -- the buffers that were there are not the new one
  have hne {i : Nat} {o : Owner} (ho : s.client.buffers i = some o) :
      o ≠ .buffer s.client.id s.client.nextHandle := by
    rintro rfl
    obtain ⟨-, -, -, bo, hbo, -⟩ := hold.slot ho
    simp [hfresh] at hbo
  have hshown {s' : Session}
      (M : Moves g (· = .buffer s.client.id s.client.nextHandle) s.mem s'.mem)
      (ht : s'.mem.tables = s.mem.tables) (he : s'.client.engines = s.client.engines)
      (hm : s'.masters = s.masters)
      (hb : ∀ {i o}, s'.client.buffers i = some o → s'.mem.isBound o = true →
        s.client.buffers i = some o) : s'.Shown := by
    refine I.shown.change (P := fun _ _ _ _ => False) (.of_eq ht) (he ▸ .rfl) (hm ▸ .rfl)
      fun {e x i o} _ _ ho hbound => ?_
    have ho := hb ho hbound
    exact .inr ⟨M.objects (hne ho), M.pages I.mem (hne ho), ⟨i, ho⟩, fun _ _ _ _ => False.elim⟩
  rcases h with ⟨⟨e, rfl, -⟩, rfl⟩ | ⟨rfl, m₃, I₃, h⟩
  · refine I.keeps (hmine M₂) ?_ ?_ (hshown M₂ ht₂ rfl rfl fun ho _ => ho) .rfl (.of_eq rfl) rfl rfl
      rfl rfl
    · exact newBuffer_inv C I.mem hn M₂ rfl rfl rfl (fun _ _ => rfl)
        (hold.congr ((herr e rfl).trans I₁.objects))
    · exact I.accounts.congr rfl rfl rfl rfl fun i o ho => M₂.objects (hne ho)
  obtain ⟨bo, hobj₂, hbound, hsize⟩ := hok rfl
  have M₃ := M₂.trans (I₃.moves M₂.inv)
  rcases h with ⟨-, rfl⟩ | ⟨-, rfl⟩
  · obtain ⟨M₄, ht₄, hobj₄⟩ :=
      deleteObject_spec M₃.inv (.buffer s.client.id s.client.nextHandle)
    have M := M₃.trans M₄
    have hobj : (m₃.deleteObject (.buffer s.client.id s.client.nextHandle)).objects =
        s.mem.objects := by
      rw [hobj₄, I₃.objects, hobj₂, Function.update_idem, I₁.objects, ← hfresh,
        Function.update_eq_self]
    refine I.keeps (hmine M) ?_ ?_
      (hshown M (ht₄.trans (I₃.tables.trans ht₂)) rfl rfl fun ho _ => ho)
      (.handle hn hold.small fun i => .inl rfl) (.of_eq rfl) rfl rfl rfl rfl
    · exact newBuffer_inv C I.mem hn M rfl rfl rfl (fun _ _ => rfl) ((hold.congr hobj).skip hn)
    · exact I.accounts.congr rfl rfl rfl rfl fun i o _ => congrFun hobj o
  · have hbo : m₃.objects (.buffer s.client.id s.client.nextHandle) = some bo := by
      rw [I₃.objects, hobj₂, Function.update_self]
    have hbuffer (i : Nat) (hi : s.client.buffers i ≠ none) :
        Function.update s.client.buffers slot (some (.buffer s.client.id s.client.nextHandle)) i =
          s.client.buffers i := by
      refine Function.update_of_ne ?_ _ _
      rintro rfl
      exact hi hfree
    refine I.keeps (hmine M₃) ?_ ?_ (hshown M₃ (I₃.tables.trans ht₂) rfl rfl fun {i o} ho hb => ?_)
      (.handle hn hold.small fun i => ?_) (.of_eq rfl) rfl rfl rfl rfl
    · exact newBuffer_inv C I.mem hn M₃ rfl rfl rfl hbuffer
        (hold.insert M₃ hn hslot hfree hbo (by omega))
    · have hle := I.accounts.allocated_le
      rw [sub64_of_le hle (by unfold kClientMemoryLimit; omega)] at hlimit
      have hsize' : m₃.size (.buffer s.client.id s.client.nextHandle) = pageRound size := by
        simp only [Memory.size, hbo, hsize]
      have hub : m₃.isBound (.buffer s.client.id s.client.nextHandle) = false := by
        simp only [isBound, hbo, Option.any_some, BufferObject.isBound, hbound]
      refine I.accounts.change hslot (fun i hi => ⟨Function.update_of_ne hi _ _,
        Function.update_of_ne hi _ _⟩) (fun i o _ ho => M₃.objects (hne ho)) ?_ ?_ ?_
        I.accounts.bound_le (fun o ho => ?_) fun h => ?_
      · simp only [charge, hfree, Function.update_self, Option.elim_none, Option.elim_some, hsize']
        omega
      · simp only [boundCharge, hfree, Function.update_self, Option.elim_none,
          Option.elim_some, hub]
        rfl
      · change s.client.allocated + pageRound size ≤ kClientMemoryLimit
        omega
      · change Function.update _ _ _ _ = _ at ho
        rw [Function.update_self] at ho
        cases ho
        rwa [hsize']
      · change Function.update _ _ _ _ = _ at h
        rw [Function.update_self] at h
        cases h
    · change Function.update _ _ _ _ = _ at ho
      by_cases heq : i = slot
      · subst heq
        rw [Function.update_self] at ho
        cases ho
        simp [isBound, hbo, BufferObject.isBound, hbound] at hb
      · rwa [Function.update_of_ne heq] at ho
    · by_cases heq : i = slot
      · subst heq
        exact .inr (Function.update_self ..)
      · exact .inl (Function.update_of_ne heq _ _)

/-! ## `_UnmapVirtual` -/

/-- `_UnmapVirtual` succeeds, and leaves the slot unbound. -/
theorem unmapVirtual_spec {slot : Nat} {buffer : Owner} {r : Except Error Unit} (H : s.mem.Inv g)
    (C : s.client.Inv s.mem) (hslot : s.client.buffers slot = some buffer)
    (h : s.unmapVirtual ω slot buffer = (r, s')) :
    r = .ok () ∧ Moves g (· = .vm s.client.id) s.mem s'.mem ∧ s'.mem.objects = s.mem.objects ∧
      s'.mem.machine = s.mem.machine ∧ s'.client = { s.client with native := s'.client.native } ∧
      s'.masters = s.masters ∧ s'.client.Inv s'.mem ∧
      s'.client.native = s.client.native.map (fun n => { n with
        addresses := Function.update n.addresses slot 0
        tiling := Function.update n.tiling slot 0
        stride := Function.update n.stride slot 0 }) ∧
      Retabled (fun o _ _ _ => o = .vm s.client.id) s.mem s'.mem := by
  unfold unmapVirtual at h
  split at h
  · next hn =>
    cases h
    exact ⟨rfl, .rfl H, rfl, rfl, rfl, rfl, C, by rw [hn]; rfl, .of_eq rfl⟩
  next n hn =>
  have hN := C.native
  rw [hn] at hN
  obtain ⟨hr, hf, pt, hpt, E⟩ := hN
  split at h
  · next h0 =>
    cases h
    have hupd : Function.update n.addresses slot 0 = n.addresses :=
      Function.update_eq_self_iff.mpr h0.symm
    refine ⟨rfl, .rfl H, rfl, rfl, rfl, rfl, ⟨C.holding, C.equipped, hr, hf, pt, hpt, ?_⟩,
      by rw [hn]; rfl, .of_eq rfl⟩
    show Exact _ (Function.update n.addresses slot 0) _ _
    rwa [hupd]
  next hne =>
  obtain ⟨o, bo, ho, hbo, -, haddr, hlimit⟩ := E.slot hne
  cases hslot.symm.trans ho
  have hsize : s.mem.size buffer = bo.size := by simp [Memory.size, hbo]
  have hround : pageRound (s.mem.size buffer) = s.mem.size buffer := by
    refine size_round H ?_
    omega
  unfold kVirtualAddressLimit at hlimit
  generalize hu : s.mem.unmap ω (.vm s.client.id) (n.addresses slot) (s.mem.size buffer) = res at h
  obtain ⟨r₁, m⟩ := res
  have hT := unmap_retabled H hu
  obtain ⟨M, hobj, hmach, hunmapped⟩ := unmap_spec H hu
  obtain ⟨pt', ht, hfix, -, hok, htr⟩ := hunmapped pt hpt
  obtain rfl := hok.mpr ⟨haddr, by omega, by omega⟩
  cases h
  have hs : pt'.scratchPage = pt.scratchPage := congrArg (·.2.2.2.1) hfix
  refine ⟨rfl, M, hobj, hmach, rfl, rfl, ⟨C.holding.congr hobj,
    C.equipped.frame M (fun _ _ => by rintro ⟨⟩) fun e => hT.isSome _, ?_⟩, by rw [hn]; rfl,
    hT.mono fun _ _ _ _ h => h.1⟩
  refine ⟨hr.frame M fun k o ho h => ?_, hf, pt', by simp [clearSlot, ht],
    E.unmap hne hslot hobj (fun _ => pages_congr hobj hmach) hs fun a ha => ?_⟩
  · subst h
    exact ho
  · rw [htr a ha, hround]
    simp only [true_and]

/-! ## `kCloseBuffer` -/

theorem closeBuffer_cases {handle reserved : Nat} (h : s.closeBuffer ω handle reserved = (r, s')) :
    (∃ e, r = .error e) ∧ s' = s ∨
    ∃ slot buffer r₁ s₁, s.find handle = some (slot, buffer) ∧
      (s.leaveEngines ω buffer).unmapVirtual ω slot buffer = (r₁, s₁) ∧
      ((∃ e, r₁ = .error e ∧ r = .error e) ∧ s' = s₁ ∨ r₁ = .ok () ∧ r = .ok .none ∧
        s' = ⟨{ s₁.client with
          buffers := Function.update s₁.client.buffers slot none
          handles := Function.update s₁.client.handles slot 0
          allocated := sub64 s₁.client.allocated (s₁.mem.size buffer) }, s₁.masters,
          s₁.mem.deleteObject buffer⟩) := by
  unfold closeBuffer at h
  split at h
  · cases h
    exact .inl ⟨⟨_, rfl⟩, rfl⟩
  split at h
  · cases h
    exact .inl ⟨⟨_, rfl⟩, rfl⟩
  next slot buffer hfind =>
  generalize hu : (s.leaveEngines ω buffer).unmapVirtual ω slot buffer = res at h
  obtain ⟨r₁, s₁⟩ := res
  refine .inr ⟨slot, buffer, r₁, s₁, hfind, hu, ?_⟩
  cases r₁ with
  | error e =>
    cases h
    exact .inl ⟨⟨e, rfl, rfl⟩, rfl⟩
  | ok u =>
    cases h
    exact .inr ⟨rfl, rfl, rfl⟩

/-- The range the buffer leaves is not shown any more by the engines, and nothing else changes but
what the client is charged for. -/
theorem leaveEngines_spec (ω : Oracle) (H : s.mem.Inv g) (C : s.client.Inv s.mem) (buffer : Owner) :
    (s.leaveEngines ω buffer).client = { s.client with
      bound := if s.mem.isBound buffer then sub64 s.client.bound (s.mem.size buffer)
        else s.client.bound } ∧
      (s.leaveEngines ω buffer).masters = s.masters ∧
      Moves g (Spaces s.readyEngines) s.mem (s.leaveEngines ω buffer).mem ∧
      (s.leaveEngines ω buffer).mem.objects = s.mem.objects ∧
      (s.leaveEngines ω buffer).mem.machine = s.mem.machine ∧
      Retabled (fun q x t p => s.mem.isBound buffer = true ∧ Unmapped s.readyEngines
        (s.mem.graphicsAddress buffer) (s.mem.size buffer) q x t p) s.mem
        (s.leaveEngines ω buffer).mem ∧
      s.client.Inv (s.leaveEngines ω buffer).mem := by
  unfold leaveEngines
  split
  · next hb =>
    obtain ⟨M, hobj, hmach, hT, -⟩ := unmapEngines_spec ω s.readyEngines
      (s.mem.graphicsAddress buffer) (s.mem.size buffer) H
    exact ⟨rfl, rfl, M, hobj, hmach, hT.mono fun _ _ _ _ h => ⟨hb, h⟩, engines_inv C H M hobj hT⟩
  · next hb => exact ⟨rfl, rfl, .rfl H, rfl, rfl, .of_eq rfl, C⟩

theorem closeBuffer_keeps {handle reserved : Nat} (I : s.Inv g)
    (h : s.closeBuffer ω handle reserved = (r, s')) : Keeps g s s' := by
  rcases closeBuffer_cases h with ⟨-, rfl⟩ | ⟨slot, buffer, r₁, s₁, hfind, hu, h⟩
  · exact Idle.rfl.keeps I
  obtain ⟨hlt, -, hslot⟩ := find_some hfind
  have C := I.client
  obtain ⟨-, -, hbuffer, bo, hbo, hpos⟩ := C.holding.slot hslot
  obtain ⟨hc, hm, M₁, hobj₁, hmach₁, hT₁, C₁⟩ := leaveEngines_spec ω I.mem C buffer
  have hslot₁ : (s.leaveEngines ω buffer).client.buffers slot = some buffer := by rwa [hc]
  have C₁ : (s.leaveEngines ω buffer).client.Inv (s.leaveEngines ω buffer).mem := by
    rw [hc]
    exact ⟨C₁.holding, C₁.equipped, C₁.native⟩
  obtain ⟨rfl, M₂, hobj₂, hmach₂, hc₂, hm₂, C₂, hnative, hT₂⟩ :=
    unmapVirtual_spec M₁.inv C₁ hslot₁ hu
  rcases h with ⟨⟨e, he, -⟩, -⟩ | ⟨-, -, rfl⟩
  · cases he
  rw [hc] at M₂ hc₂ hT₂ hnative
  have hobj₂ := hobj₂.trans hobj₁
  obtain ⟨M₃, ht₃, hobj₃⟩ := deleteObject_spec M₂.inv buffer
  have M : Moves g (fun o => o = buffer ∨ Spaces s.readyEngines o ∨ o = .vm s.client.id) s.mem
      (s₁.mem.deleteObject buffer) :=
    (M₁.mono fun _ h => .inr (.inl h)).trans ((M₂.mono fun _ h => .inr (.inr h)).trans
      (M₃.mono fun _ h => .inl h))
  have hmine : ∀ o, o = buffer ∨ Spaces s.readyEngines o ∨ o = .vm s.client.id → s.Mine o := by
    rintro o (rfl | h | rfl)
    · rw [hbuffer]
      rfl
    · exact mine_of_spaces C h
    · rfl
  have hrest {o : Owner} (ho : o ≠ buffer) :
      (s₁.mem.deleteObject buffer).objects o = s.mem.objects o := by
    rw [hobj₃, Function.update_of_ne ho, hobj₂]
  have hsize : s₁.mem.size buffer = s.mem.size buffer := by rw [Memory.size, hobj₂, Memory.size]
  have hunbound (n : NativeState) (hn : s₁.client.native = some n) : n.addresses slot = 0 := by
    rw [hnative] at hn
    obtain ⟨n', -, rfl⟩ := Option.map_eq_some_iff.mp hn
    exact Function.update_self ..
  have hallocated : sub64 s₁.client.allocated (s₁.mem.size buffer) =
      s.client.allocated - charge s.mem s.client.buffers slot := by
    have := I.accounts.sub_charge hlt
    rw [hc₂, hsize]
    rwa [(charge_some hslot).1] at this ⊢
  have hbound : s₁.client.bound = s.client.bound - boundCharge s.mem s.client.buffers slot := by
    have := I.accounts.sub_boundCharge hlt
    rw [hc₂]
    rw [(charge_some hslot).2] at this ⊢
    dsimp only
    split
    · next hb => rwa [if_pos hb] at this
    · exact (Nat.sub_zero _).symm
  refine I.keeps (M.mono hmine) ?_ ?_ ?_ ?_ (fun n' hn' => .inl ?_) (by rw [hc₂]) (by rw [hc₂])
    (hm₂.trans hm) (by rw [hc₂])
  · refine ⟨C₂.holding.remove M₃ (by rwa [hc₂]) (by rw [hobj₃, Function.update_self]),
      C₂.equipped.frame M₃ (fun e p h => ?_) fun e => by rw [ht₃], C₂.native.frame M₂.inv M₃ ?_
      (fun k o ho h => ?_) (fun n i hn hi =>
        Function.update_of_ne ?_ _ _) fun n i o hn hi ho h => ?_⟩
    · cases h.trans hbuffer
    · exact fun h => by cases h.trans hbuffer
    · rw [h, hbuffer] at ho
      exact ho
    · rintro rfl
      exact hi (hunbound n hn)
    · rw [h] at ho
      rw [C₂.holding.inj ho (by rwa [hc₂])] at hi
      exact hi (hunbound n hn)
  · refine I.accounts.remove hlt ?_ ?_ (fun i o hi ho => hrest ?_) hallocated hbound
    · dsimp only
      rw [hc₂]
    · dsimp only
      rw [hc₂]
    · rintro rfl
      exact hi (C.holding.inj ho hslot)
  · refine I.shown.others (P := fun q x t p =>
        (s.mem.isBound buffer = true ∧ Unmapped s.readyEngines
        (s.mem.graphicsAddress buffer) (s.mem.size buffer) q x t p) ∨ q = .vm s.client.id) C I.mem M
      ?_ (by rw [hc₂]) (hm₂.trans hm) (fun h (hne : _ ≠ buffer) hk => ?_) ?_
      (fun {i o} ho hne => ⟨i, ?_⟩) ?_
    · refine (hT₁.mono fun _ _ _ _ h => .inl h).trans ?_
      exact (hT₂.mono fun _ _ _ _ h => .inr h).trans (.of_eq ht₃)
    · rcases hk with hk | hk | hk
      · exact hne hk
      · obtain ⟨e, he⟩ := spaces_readyEngines C hk
        cases he
      · cases hk
    · rintro e x - - - ⟨i, hi⟩
      change Function.update _ _ _ _ = _ at hi
      rw [hc₂, Function.update_apply] at hi
      split at hi
      · cases hi
      · next hne => exact absurd (C.holding.inj hi hslot) hne
    · change Function.update _ _ _ _ = _ at ho
      rw [hc₂, Function.update_apply] at ho
      split at ho
      · cases ho
      · exact ho
    · rintro e o a t p hne hb ha (⟨hb', -, hr, -⟩ | hvm)
      · rw [size_round I.mem ?_] at hr
        · exact hne (bound_apart I.mem hb hb' ha hr)
        · have := I.accounts.size_le hslot
          unfold kMaxBufferSize at this
          unfold kVirtualAddressLimit
          omega
      · cases hvm
  · refine .shrink (fun i => ?_) ?_ (fun i => .inl ?_) ?_
    · change Function.update _ _ _ _ = _ ∨ Function.update _ _ _ _ = 0
      rw [hc₂, Function.update_apply]
      split
      · exact .inr rfl
      · exact .inl rfl
    · dsimp only
      rw [hc₂]
    · exact congrFun (RenderClient.ids_map hnative (fun _ => rfl) fun _ => rfl).1 i
    · exact (RenderClient.ids_map hnative (fun _ => rfl) fun _ => rfl).2
  · change s₁.client.native = _ at hn'
    rw [hnative] at hn'
    obtain ⟨n, hn, rfl⟩ := Option.map_eq_some_iff.mp hn'
    exact ⟨n, hn, rfl⟩

/-! ## `kBindBuffer` and `kUnbindBuffer` -/

/-- The checks of `kBindBuffer`, and the buffer they find. -/
structure Bindable (s : Session) (handle flags graphicsAddress slot : Nat) (buffer : Owner) :
    Prop where
  request : flags = 0 ∧ handle ≠ 0 ∧ graphicsAddress = 0
  gtt : s.client.gtt = true ∧ s.mem.gtt.isValid = true
  found : s.find handle = some (slot, buffer)
  native : ∀ n, s.client.native = some n → n.addresses slot = 0
  unbound : s.mem.isBound buffer = false
  limit : s.mem.size buffer ≤ sub64 kClientApertureLimit s.client.bound

/-- What can become of a request to bind a buffer: it is refused, or the GTT does not take it, or it
is bound and an engine cannot map it or the caller cannot be told of it, or it is there. The number
`done` tells how many pages the engines have mapped. -/
theorem bindBuffer_cases {handle flags graphicsAddress : Nat}
    (h : s.bindBuffer ω handle flags graphicsAddress = (r, s')) :
    (∃ e, r = .error e) ∧ s' = s ∧
      (∀ slot buffer, ¬ s.Bindable handle flags graphicsAddress slot buffer) ∨
    ∃ slot buffer r₁ m₁, s.Bindable handle flags graphicsAddress slot buffer ∧
      s.mem.bindObject ω buffer = (r₁, m₁) ∧
      ((∃ e, r₁ = .error e ∧ r = .error e) ∧ s' = s.setMem m₁ ∨
        r₁ = .ok () ∧ ∃ r₂ done m₂ m₃, mapEngines ω (m₁.area buffer) (m₁.graphicsAddress buffer)
          s.readyEngines m₁ = (r₂, done, m₂) ∧ m₂.Idle m₃ ∧
          ((∃ e, r = .error e) ∧ (r₂ = .ok () → ∃ e, (m₂.userMemcpy ω).1 = .error e) ∧
              s' = s.setMem (m₃.unbindObject buffer).2 ∨
            r₂ = .ok () ∧ (m₂.userMemcpy ω).1 = .ok () ∧
            r = .ok (.address (m₃.graphicsAddress buffer)) ∧
            s' = ⟨{ s.client with bound := s.client.bound + m₃.size buffer }, s.masters, m₃⟩)) := by
  unfold bindBuffer at h
  dsimp only at h
  split at h
  · next hbad =>
    cases h
    refine .inl ⟨⟨_, rfl⟩, rfl, fun slot buffer B => ?_⟩
    obtain ⟨hflags, hhandle, haddress⟩ := B.request
    exact hbad.elim (· hflags) fun h => h.elim hhandle (· haddress)
  next hgood =>
  simp only [not_or, ne_eq, not_not] at hgood
  split at h
  · next hbad =>
    cases h
    refine .inl ⟨⟨_, rfl⟩, rfl, fun slot buffer B => ?_⟩
    simp [B.gtt] at hbad
  next hgtt =>
  simp only [Bool.or_eq_true, Bool.not_eq_true', not_or, Bool.not_eq_false] at hgtt
  split at h
  · next hnone =>
    cases h
    refine .inl ⟨⟨_, rfl⟩, rfl, fun slot buffer B => ?_⟩
    cases hnone.symm.trans B.found
  next slot buffer hfind =>
  have hsame {slot' : Nat} {buffer' : Owner}
      (B : s.Bindable handle flags graphicsAddress slot' buffer') :
      slot' = slot ∧ buffer' = buffer := by
    cases hfind.symm.trans B.found
    exact ⟨rfl, rfl⟩
  split at h
  · next hbusy =>
    cases h
    refine .inl ⟨⟨_, rfl⟩, rfl, fun slot' buffer' B => ?_⟩
    obtain ⟨rfl, rfl⟩ := hsame B
    rw [B.unbound, Bool.or_false] at hbusy
    obtain ⟨n, hn, h0⟩ := (Option.any_eq_true _ _).mp hbusy
    exact of_decide_eq_true h0 (B.native n hn)
  next hbusy =>
  split at h
  · next hlimit =>
    cases h
    refine .inl ⟨⟨_, rfl⟩, rfl, fun slot' buffer' B => ?_⟩
    obtain ⟨rfl, rfl⟩ := hsame B
    exact Nat.not_lt_of_le B.limit hlimit
  next hlimit =>
  simp only [Bool.or_eq_true, not_or, Bool.not_eq_true] at hbusy
  generalize hb : s.mem.bindObject ω buffer = res at h
  obtain ⟨r₁, m₁⟩ := res
  refine .inr ⟨slot, buffer, r₁, m₁, ⟨⟨hgood.1, hgood.2.1, hgood.2.2⟩, hgtt, hfind, fun n hn => ?_,
    hbusy.2, Nat.le_of_not_lt hlimit⟩, hb, ?_⟩
  · simpa [hn] using hbusy.1
  cases r₁ with
  | error e =>
    cases h
    exact .inl ⟨⟨e, rfl, rfl⟩, rfl⟩
  | ok u =>
  refine .inr ⟨rfl, ?_⟩
  dsimp only at h
  generalize hm : mapEngines ω (m₁.area buffer) (m₁.graphicsAddress buffer) s.readyEngines m₁ = res
    at h
  obtain ⟨r₂, done, m₂⟩ := res
  cases r₂ with
  | error e =>
    cases h
    exact ⟨_, done, m₂, m₂, rfl, .rfl, .inl ⟨⟨e, rfl⟩, nofun, rfl⟩⟩
  | ok u =>
  dsimp only at h
  split at h
  · next e m₃ hm₃ =>
    cases h
    exact ⟨_, done, m₂, m₃, rfl, userMemcpy_idle hm₃,
      .inl ⟨⟨e, rfl⟩, fun _ => ⟨e, by rw [hm₃]⟩, rfl⟩⟩
  · next m₃ hm₃ =>
    cases h
    exact ⟨_, done, m₂, m₃, rfl, userMemcpy_idle hm₃, .inr ⟨rfl, by rw [hm₃], rfl, rfl⟩⟩

/-- A buffer is bound and the engines map it, as far as they get. -/
structure Binding (g : GlobalGTT) (s : Session) (buffer : Owner) (bo : BufferObject Owner)
    (first done : Nat) (ok : Prop) (m : Memory) : Prop where
  moves : Moves g (s.Around buffer) s.mem m
  object : s.mem.objects buffer = some bo
  unbound : bo.bound = false
  free : s.mem.gtt.Free (s.mem.pages buffer).length first
  frame : GlobalGTT.Frame first (s.mem.pages buffer).length s.mem.gtt m.gtt
  objects : m.objects = Function.update s.mem.objects buffer
    (some { bo with bound := true, graphicsAddress := s.mem.gtt.base + first * 4096 })
  pages : m.pages buffer = s.mem.pages buffer
  tables : Retabled (fun o x t p => done ≠ 0 ∧ Mapped s.readyEngines
    (s.mem.gtt.base + first * 4096) (s.mem.pages buffer) o x t p) s.mem m
  shown : ok → ∀ e ∈ s.readyEngines, ∀ pt, m.tables e.addressSpace = some pt → m.Shows pt buffer
  entered : done ≠ 0 → s.mem.gtt.base + first * 4096 < 2 ^ 48 ∧ ∃ e ∈ s.readyEngines,
    ∃ pt, m.tables e.addressSpace = some pt ∧ Entered (s.mem.gtt.base + first * 4096)
      (s.mem.pages buffer) (s.mem.gtt.base + first * 4096)
      (pt.translate (s.mem.gtt.base + first * 4096))

theorem bind_spec {buffer : Owner} {slot done : Nat} {m₁ m₂ : Memory} {r₂ : Except Error Unit}
    (C : s.client.Inv s.mem) (H : s.mem.Inv g) (hslot : s.client.buffers slot = some buffer)
    (hb : s.mem.bindObject ω buffer = (.ok (), m₁))
    (hm : mapEngines ω (m₁.area buffer) (m₁.graphicsAddress buffer) s.readyEngines m₁ =
      (r₂, done, m₂)) : ∃ bo first, Binding g s buffer bo first done (r₂ = .ok ()) m₂ := by
  obtain ⟨M₁, ht₁, S₁, -, hok⟩ := bindObject_spec H hb
  obtain ⟨bo, first, hbo, hub, hobj₁, hfree, hframe⟩ := hok rfl
  obtain ⟨-, -, hbuffer, bo', hbo', hpos⟩ := C.holding.slot hslot
  cases hbo.symm.trans hbo'
  have hbo₁ : m₁.objects buffer =
      some { bo with bound := true, graphicsAddress := s.mem.gtt.base + first * 4096 } := by
    rw [hobj₁, Function.update_self]
  obtain ⟨hsize₁, a, ha, har⟩ := M₁.inv.size_eq hbo₁
  have hpages₁ : m₁.pages buffer = s.mem.pages buffer := by
    obtain ⟨-, a', ha', har'⟩ := H.size_eq hbo
    cases ha.symm.trans ha'
    rw [S₁.find, har'] at har
    injection har with har
    injection har with _ hp
    exact hp.symm
  have hspaces : ¬ Spaces s.readyEngines buffer := by
    rw [hbuffer]
    intro h
    obtain ⟨e, he⟩ := spaces_readyEngines C h
    cases he
  have haddr₁ : m₁.graphicsAddress buffer = s.mem.gtt.base + first * 4096 := by
    rw [Memory.graphicsAddress, hbo₁]
  have harea : m₁.area buffer = some a := by
    rw [Memory.area, hbo₁]
    exact ha
  obtain ⟨M₂, hobj₂, hgtt₂, hT₂, hok₂⟩ := mapEngines_spec M₁.inv harea har hspaces hm
  rw [haddr₁] at hT₂ hok₂
  dsimp only at hT₂ hok₂
  rw [hpages₁] at hT₂ hok₂
  have hbo₂ : m₂.objects buffer =
      some { bo with bound := true, graphicsAddress := s.mem.gtt.base + first * 4096 } := by
    rw [hobj₂, hbo₁]
  have hpages₂ : m₂.pages buffer = s.mem.pages buffer := (M₂.pages M₁.inv hspaces).trans hpages₁
  refine ⟨bo, first, (M₁.mono fun _ => .inl).trans (M₂.mono fun _ => .inr), hbo, hub, hfree,
    hgtt₂ ▸ hframe, hobj₂.trans hobj₁, hpages₂, (Retabled.of_eq ht₁).trans hT₂,
    fun hr e he pt hpt => ?_, fun hdone => ?_⟩
  rotate_left
  · have hlength : 0 < (m₁.pages buffer).length := by
      dsimp only at hsize₁
      omega
    rw [haddr₁] at hm
    rw [← hpages₁]
    exact mapEngines_entered M₁.inv harea har hspaces hlength hm hdone
  obtain ⟨hlimit, hshown⟩ := hok₂ hr e he
  have hsize : m₂.size buffer = (s.mem.pages buffer).length * 4096 := by
    rw [Memory.size, hbo₂, ← hpages₁]
    exact hsize₁
  have haddr : m₂.graphicsAddress buffer = s.mem.gtt.base + first * 4096 := by
    rw [Memory.graphicsAddress, hbo₂]
  refine ⟨by rwa [haddr, hsize], fun {x} hx => ?_⟩
  rw [haddr, hsize] at hx
  rw [haddr, hpages₂]
  exact hshown pt hpt x hx

theorem bindBuffer_keeps {handle flags graphicsAddress : Nat} (I : s.Inv g)
    (h : s.bindBuffer ω handle flags graphicsAddress = (r, s')) : Keeps g s s' := by
  rcases bindBuffer_cases h with ⟨-, rfl, -⟩ | ⟨slot, buffer, r₁, m₁, hbindable, hb, h⟩
  · exact Idle.rfl.keeps I
  have hn := hbindable.native
  have hub := hbindable.unbound
  have hlimit := hbindable.limit
  obtain ⟨hlt, -, hslot⟩ := find_some hbindable.found
  have C := I.client
  obtain ⟨-, -, hbuffer, -⟩ := C.holding.slot hslot
  rcases h with ⟨⟨e, rfl, -⟩, rfl⟩ | ⟨rfl, r₂, done, m₂, m₃, hm, I₃, h⟩
  · obtain ⟨-, ht, S, herr, -⟩ := bindObject_spec I.mem hb
    exact (idle_setMem ⟨S, (herr e rfl).1, ht, (herr e rfl).2⟩).keeps I
  obtain ⟨bo, first, B⟩ := bind_spec C I.mem hslot hb hm
  have hbo := B.object
  have hpos : 0 < bo.size := by
    obtain ⟨-, -, bo', hbo', hpos⟩ := buffer_mem C hslot
    cases hbo.symm.trans hbo'
    exact hpos
  have M₃ := B.moves.trans (I₃.moves B.moves.inv)
  have hT₃ := B.tables.trans (.of_eq I₃.tables)
  have hbo₃ : m₃.objects buffer =
      some { bo with bound := true, graphicsAddress := s.mem.gtt.base + first * 4096 } := by
    rw [I₃.objects, B.objects, Function.update_self]
  have hobj₃ {o : Owner} (ho : o ≠ buffer) : m₃.objects o = s.mem.objects o := by
    rw [I₃.objects, B.objects, Function.update_of_ne ho]
  have hsize₃ : m₃.size buffer = s.mem.size buffer := by
    rw [Memory.size, hbo₃, Memory.size, hbo]
  have hbound₃ : m₃.isBound buffer = true := by
    rw [isBound, hbo₃]
    rfl
  -- what the engines may have entered is not in the way of the other buffers
  have hP {e : EngineId} {o : Owner} {a t p : Nat} (ho : o ≠ buffer) (hb : s.mem.isBound o = true)
      (ha : Range (s.mem.graphicsAddress o) (s.mem.size o) a) :
      ¬ (done ≠ 0 ∧ Mapped s.readyEngines (s.mem.gtt.base + first * 4096) (s.mem.pages buffer)
        (.ownTables (.legacy s.client.id e)) a t p) := by
    rintro ⟨-, -, hp⟩
    have hsize := (M₃.inv.size_eq hbo₃).1
    have hpages : m₃.pages buffer = s.mem.pages buffer := by
      rw [← B.pages]
      exact (I₃.moves (K := fun _ => False) B.moves.inv).pages B.moves.inv id
    rw [hpages] at hsize
    refine ho (bound_apart M₃.inv (a := a) ?_ hbound₃ ?_ ?_)
    · rwa [isBound, hobj₃ ho]
    · rwa [Memory.graphicsAddress, Memory.size, hobj₃ ho]
    · rw [Memory.graphicsAddress, Memory.size, hbo₃, hsize]
      exact hp.range
  rcases h with ⟨-, -, rfl⟩ | ⟨rfl, -, -, rfl⟩
  · generalize hu : m₃.unbindObject buffer = res
    obtain ⟨r₄, m₄⟩ := res
    obtain ⟨bo', M₄, ht₄, -, hobj₄, hub₄, hsize₄, -⟩ := unbindObject_spec M₃.inv hbo₃ hu
    have M := M₃.trans (M₄.mono fun o ho => .inl ho)
    have hT := hT₃.trans (.of_eq ht₄)
    have hbo' : m₄.objects buffer = some bo' := by rw [hobj₄, Function.update_self]
    have hub' : m₄.isBound buffer = false := by
      rw [isBound, hbo']
      exact hub₄
    refine I.keeps (M.mono fun _ => mine_of_around C hslot)
      (rebound_inv (s := s) C I.mem M hslot hn hbo' (hsize₄ ▸ hpos) hT)
      ?_ ?_ .rfl (.of_eq rfl) rfl rfl rfl rfl
    · refine I.accounts.rebound hlt hslot ?_ (fun i o hi ho => ?_) ?_ I.accounts.bound_le
      · change m₄.size buffer = _
        rw [← hsize₃, Memory.size, hbo', Memory.size, hbo₃]
        exact hsize₄
      · change m₄.objects o = _
        rw [hobj₄, Function.update_of_ne (other_slot C hslot hi ho),
          hobj₃ (other_slot C hslot hi ho)]
      · rw [(charge_some hslot).2, (charge_some hslot).2]
        simp only [hub, setMem, hub']
        rfl
    · refine I.shown.others C I.mem M hT rfl rfl
        (fun _ => not_around C) (fun _ _ hb => ?_) (fun ho _ => ⟨_, ho⟩) hP
      cases hub'.symm.trans hb
  · have hboundCharge := sub64_of_le I.accounts.bound_le (by unfold kClientApertureLimit; omega)
    rw [hboundCharge] at hlimit
    have hble := I.accounts.bound_le
    refine I.keeps (M₃.mono fun _ => mine_of_around C hslot) ?_ ?_ ?_ (.of_eq rfl rfl rfl)
      (.of_eq rfl) rfl rfl rfl rfl
    · have C₃ := rebound_inv C I.mem M₃ hslot hn hbo₃ hpos hT₃
      exact ⟨C₃.holding, C₃.equipped, C₃.native⟩
    · refine I.accounts.rebound hlt hslot hsize₃ (fun i o hi ho =>
        hobj₃ (other_slot C hslot hi ho)) ?_ ?_
      · rw [(charge_some hslot).2, (charge_some hslot).2]
        simp only [hub, hbound₃]
        rfl
      · rw [hsize₃]
        omega
    · refine I.shown.others C I.mem M₃ hT₃ rfl rfl
        (fun _ => not_around C) (fun {e x} hx hr _ _ => ?_)
        (fun ho _ => ⟨_, ho⟩) hP
      obtain ⟨-, -, -, -, -, pt, hpt⟩ := C.equipped.engine hx
      obtain ⟨pt', hpt', -⟩ := (hT₃ _).2 pt hpt
      obtain ⟨-, -, hspace, -⟩ := C.equipped.engine hx
      refine ⟨pt', hspace ▸ hpt', ?_⟩
      have hshown := B.shown rfl x (readyEngines_mem hx hr) pt' (I₃.tables ▸ hspace ▸ hpt')
      exact hshown.change (P := fun _ _ => False) (congrFun I₃.objects _)
        ((I₃.moves (K := fun _ => False) B.moves.inv).pages B.moves.inv id) (fun _ _ =>
          .inl rfl) fun _ _ _ => False.elim

theorem unbindBuffer_cases {handle reserved : Nat}
    (h : s.unbindBuffer ω handle reserved = (r, s')) :
    (∃ e, r = .error e) ∧ s' = s ∨
    ∃ slot buffer r₁ m₁ bound, s.find handle = some (slot, buffer) ∧ s.mem.isBound buffer = true ∧
      s.mem.unbindObject buffer = (r₁, m₁) ∧ bound = sub64 s.client.bound (s.mem.size buffer) ∧
      s' = ⟨{ s.client with bound := bound }, s.masters,
        unmapEngines ω (s.mem.graphicsAddress buffer) (s.mem.size buffer) s.readyEngines m₁⟩ := by
  unfold unbindBuffer at h
  split at h
  · cases h
    exact .inl ⟨⟨_, rfl⟩, rfl⟩
  split at h
  · cases h
    exact .inl ⟨⟨_, rfl⟩, rfl⟩
  next slot buffer hfind =>
  split at h
  · cases h
    exact .inl ⟨⟨_, rfl⟩, rfl⟩
  next hb =>
  simp only [Bool.not_eq_true', Bool.not_eq_false] at hb
  generalize hu : s.mem.unbindObject buffer = res at h
  obtain ⟨r₁, m₁⟩ := res
  refine .inr ⟨slot, buffer, r₁, m₁, _, hfind, hb, hu, rfl, ?_⟩
  cases r₁ <;>
  · cases h
    rfl

theorem unbindBuffer_keeps {handle reserved : Nat} (I : s.Inv g)
    (h : s.unbindBuffer ω handle reserved = (r, s')) : Keeps g s s' := by
  rcases unbindBuffer_cases h with ⟨-, rfl⟩ | ⟨slot, buffer, r₁, m₁, bound, hfind, hb,
    hu, hbound, rfl⟩
  · exact Idle.rfl.keeps I
  obtain ⟨hlt, -, hslot⟩ := find_some hfind
  have C := I.client
  obtain ⟨-, -, hbuffer, bo, hbo, hpos⟩ := C.holding.slot hslot
  obtain ⟨bo', M₁, ht₁, -, hobj₁, hub₁, hsize₁, -⟩ := unbindObject_spec I.mem hbo hu
  obtain ⟨M₂, hobj₂, -, hT₂, -⟩ := unmapEngines_spec ω s.readyEngines
    (s.mem.graphicsAddress buffer) (s.mem.size buffer) M₁.inv
  have M : Moves g (s.Around buffer) s.mem _ :=
    (M₁.mono fun _ => .inl).trans (M₂.mono fun _ => .inr)
  have hT := (Retabled.of_eq ht₁).trans hT₂
  have hobj := hobj₂.trans hobj₁
  generalize unmapEngines ω (s.mem.graphicsAddress buffer) (s.mem.size buffer) s.readyEngines m₁ =
    m₂ at *
  have hbo' : m₂.objects buffer = some bo' := by rw [hobj, Function.update_self]
  have hub' : m₂.isBound buffer = false := by
    rw [isBound, hbo']
    exact hub₁
  have hrest {o : Owner} (ho : o ≠ buffer) : m₂.objects o = s.mem.objects o := by
    rw [hobj, Function.update_of_ne ho]
  have hcharge := (charge_some (m := s.mem) hslot).2
  rw [if_pos hb] at hcharge
  have hsub := I.accounts.sub_boundCharge hlt
  have hle := I.accounts.boundCharge_le hlt
  have hble := I.accounts.bound_le
  rw [hcharge] at hsub hle
  rw [← hbound] at hsub
  refine I.keeps (M.mono fun _ => mine_of_around C hslot) ?_ ?_ ?_ (.of_eq rfl rfl rfl) (.of_eq rfl)
    rfl rfl rfl rfl
  · have C' := rebound_inv C I.mem M hslot (fun n hn => native_unbound C hn hslot hb) hbo'
      (hsize₁ ▸ hpos) hT
    exact ⟨C'.holding, C'.equipped, C'.native⟩
  · refine I.accounts.rebound hlt hslot ?_ (fun i o hi ho => hrest (other_slot C hslot hi ho)) ?_ ?_
    · rw [Memory.size, hbo', Memory.size, hbo]
      exact hsize₁
    · rw [hsub, hcharge, (charge_some hslot).2, hub']
      exact Nat.sub_add_cancel hle
    · rw [hsub]
      exact Nat.le_trans (Nat.sub_le _ _) hble
  · refine I.shown.others C I.mem M hT rfl rfl (fun _ => not_around C) (fun _ _ hb' => ?_)
      (fun ho _ => ⟨_, ho⟩) fun ho hbo ha hp => ?_
    · cases hub'.symm.trans hb'
    · obtain ⟨-, hr, -⟩ := hp
      rw [size_round I.mem ?_] at hr
      · exact ho (bound_apart I.mem hbo hb ha hr)
      · have := I.accounts.size_le hslot
        unfold kMaxBufferSize at this
        unfold kVirtualAddressLimit
        omega

/-! ## `kFramebuffer` -/

theorem framebuffer_cases {shared : Option SharedInfo} (h : s.framebuffer ω shared = (r, s')) :
    (∃ e, r = .error e) ∧ s' = s ∨
    ∃ info engines r₁ m₁, shared = some info ∧ (∀ x ∈ engines, x ∈ s.readyEngines) ∧
      mapGlobalRanges ω info.frameBufferOffset (info.bytesPerRow * info.virtualHeight) engines
        s.mem = (r₁, m₁) ∧ Idle (s.setMem m₁) s' := by
  unfold framebuffer at h
  split at h
  · cases h
    exact .inl ⟨⟨_, rfl⟩, rfl⟩
  next info =>
  split at h
  · cases h
    exact .inl ⟨⟨_, rfl⟩, rfl⟩
  dsimp only at h
  generalize he : (if s.client.gtt = true then s.readyEngines else []) = engines at h
  have hengines : ∀ x ∈ engines, x ∈ s.readyEngines := by
    intro x hx
    subst he
    split at hx
    · exact hx
    · cases hx
  generalize hm : mapGlobalRanges ω info.frameBufferOffset (info.bytesPerRow * info.virtualHeight)
    engines s.mem = res at h
  obtain ⟨r₁, m₁⟩ := res
  refine .inr ⟨info, engines, r₁, m₁, rfl, hengines, hm, ?_⟩
  cases r₁ with
  | error e =>
    cases h
    exact .rfl
  | ok u => exact reply_idle h

theorem framebuffer_keeps {shared : Option SharedInfo} (I : s.Inv g)
    (h : s.framebuffer ω shared = (r, s')) : Keeps g s s' := by
  rcases framebuffer_cases h with ⟨-, rfl⟩ | ⟨info, engines, r₁, m₁, -, hengines, hm, hidle⟩
  · exact Idle.rfl.keeps I
  have C := I.client
  have hspaces {o : Owner} (h : Spaces engines o) : Spaces s.readyEngines o := by
    obtain ⟨x, hx, rfl⟩ := h
    exact ⟨x, hengines x hx, rfl⟩
  obtain ⟨M, hobj, -, hT⟩ := mapGlobalRanges_spec I.mem (fun x hx => by
    obtain ⟨e, hx, -⟩ := mem_readyEngines (hengines x hx)
    obtain ⟨-, -, hspace, -, -, hpt⟩ := C.equipped.engine hx
    exact hspace ▸ hpt) hm
  have M : Moves g (Spaces s.readyEngines) s.mem m₁ := M.mono fun _ => hspaces
  have hkept : Keeps g s (s.setMem m₁) := by
    refine I.keeps (M.mono fun _ => mine_of_spaces C) (engines_inv (s := s) C I.mem M hobj hT)
      ?_ ?_
      .rfl (.of_eq rfl) rfl rfl rfl rfl
    · exact I.accounts.congr rfl rfl rfl rfl fun _ o _ => congrFun hobj o
    · refine I.shown.change hT .rfl .rfl fun {e x i o} _ _ ho hb => .inr ⟨congrFun hobj o, ?_,
        ⟨i, ho⟩, fun a t p ha hp => ⟨ha.1, ?_⟩⟩
      · refine M.pages I.mem fun h => ?_
        obtain ⟨e, rfl⟩ := spaces_readyEngines C h
        obtain ⟨-, -, heq, -⟩ := C.holding.slot ho
        cases heq
      · -- the global GTT shows the buffer there, and nothing else
        obtain ⟨bo, hbo, hbound⟩ := (Option.any_eq_true _ _).mp hb
        change m₁.objects o = _ at hbo
        rw [hobj] at hbo
        simp only [Memory.graphicsAddress, Memory.size, hbo] at ha ⊢
        exact I.mem.lookup hbo hbound ha hp.2
  exact hkept.trans (hidle.keeps hkept.inv)

end Session
end IntelGfx
