import IntelGfx.Verify.Buffers

/-!
# The native interface

What the operations on the contexts and the virtual address space of a client keep: `Rendering` is
kept by making and destroying contexts, `Exact` by mapping and unmapping buffers.
-/

namespace IntelGfx
open Memory RenderEngine

/-! ## Contexts -/

theorem ContextId.Owns.native_part {id k k' : Nat} {p : Part}
    (h : (native id k).Owns (.part (native id k') p)) : k' = k := by
  cases h
  rfl

theorem ContextId.Owns.native_tables {id k k' : Nat}
    (h : (native id k).Owns (.ownTables (native id k'))) : k' = k := by
  cases h
  rfl

namespace Rendering
variable {g : GlobalGTT} {m m' : Memory} {id nextContext : Nat} {ids : Nat → Nat}
  {contexts : Nat → Option RenderEngine}

/-- No context has been made under the next id. -/
theorem fresh (R : Rendering id contexts ids nextContext m) (hn : nextContext ≠ 0) (p : Part) :
    m.objects (.part (.native id nextContext) p) = none := by
  by_contra h
  obtain ⟨bo, hbo⟩ := Option.ne_none_iff_exists'.mp h
  obtain ⟨i, hi, -⟩ := R.all hbo
  have := R.next i
  rw [limit_of_ne hn] at this
  omega

/-- A context that could not be kept is gone, and its id may be as well. -/
theorem skip {next : Nat} (R : Rendering id contexts ids nextContext m) (hn : nextContext ≠ 0)
    (M : Moves g (ContextId.native id nextContext).Owns m m')
    (hparts : ∀ p, m'.objects (.part (.native id nextContext) p) = none)
    (htables : m'.tables (.ownTables (.native id nextContext)) = none)
    (hnext : next = nextContext ∨ next = (nextContext + 1) % 2 ^ 32) :
    Rendering id contexts ids next m' := by
  have hsmall := R.small
  have hlt (i : Nat) : ids i < nextContext := limit_of_ne hn ▸ R.next i
  refine ⟨fun {i x} hx => ?_, R.named, R.inj, fun {k p bo} hbo => ?_, fun k => ?_, fun i => ?_, ?_⟩
  · obtain ⟨h1, h2, h3, h4, h5, h6, h7⟩ := R.context hx
    refine ⟨h1, h2, h3, h4, h5, h6, h7.frame M fun p hk => ?_⟩
    have heq : ContextId.native id (ids i) = .native id nextContext := h3.symm.trans hk
    injection heq with _ heq
    exact Nat.ne_of_lt (hlt i) heq
  · by_cases hk : k = nextContext
    · subst hk
      simp [hparts] at hbo
    · exact R.all ((M.objects fun h => hk h.native_part).symm.trans hbo)
  · by_cases hk : k = nextContext
    · rw [hk]
      exact htables
    · exact (M.tables fun h => hk h.native_tables).trans (R.own k)
  · have := hlt i
    rcases hnext with rfl | rfl
    · rwa [limit_of_ne hn]
    · rw [limit_succ hn hsmall]
      omega
  · rcases hnext with rfl | rfl
    · exact hsmall
    · exact Nat.mod_lt _ (by omega)

/-- A context is made. -/
theorem insert {slot : Nat} {x : RenderEngine} (R : Rendering id contexts ids nextContext m)
    (hn : nextContext ≠ 0) (M : Moves g (ContextId.native id nextContext).Owns m m')
    (hslot : slot < kMaxContexts) (hfree : contexts slot = none)
    (htables : m'.tables = m.tables) (hx : x.id = .native id nextContext ∧ x.engine = .render ∧
      x.addressSpace = .vm id ∧ x.ready = true ∧ Whole m' x.id) :
    Rendering id (Function.update contexts slot (some x)) (Function.update ids slot nextContext)
      ((nextContext + 1) % 2 ^ 32) m' := by
  have hsmall := R.small
  have hlt (i : Nat) : ids i < nextContext := limit_of_ne hn ▸ R.next i
  have hne {i : Nat} {y : RenderEngine} (hy : contexts i = some y) : i ≠ slot := by
    rintro rfl
    simp [hfree] at hy
  have hcase {i : Nat} : i = slot ∧ Function.update contexts slot (some x) i = some x ∧
      Function.update ids slot nextContext i = nextContext ∨
      i ≠ slot ∧ Function.update contexts slot (some x) i = contexts i ∧
      Function.update ids slot nextContext i = ids i := by
    by_cases h : i = slot
    · subst h
      exact .inl ⟨rfl, Function.update_self .., Function.update_self ..⟩
    · exact .inr ⟨h, Function.update_of_ne h _ _, Function.update_of_ne h _ _⟩
  refine ⟨fun {i y} hy => ?_, fun {i} hi => ?_, fun {i j} hi hj => ?_, fun {k p bo} hbo => ?_,
    fun k => ?_, fun i => ?_, Nat.mod_lt _ (by omega)⟩
  · rcases hcase (i := i) with ⟨rfl, hc, hid⟩ | ⟨hi, hc, hid⟩
    · rw [hc] at hy
      cases hy
      rw [hid]
      exact ⟨hslot, hn, hx⟩
    · rw [hc] at hy
      rw [hid]
      obtain ⟨h1, h2, h3, h4, h5, h6, h7⟩ := R.context hy
      refine ⟨h1, h2, h3, h4, h5, h6, h7.frame M fun p hk => ?_⟩
      have heq : ContextId.native id (ids i) = .native id nextContext := h3.symm.trans hk
      injection heq with _ heq
      exact Nat.ne_of_lt (hlt i) heq
  · rcases hcase (i := i) with ⟨-, hc, -⟩ | ⟨-, hc, hid⟩
    · exact ⟨x, hc⟩
    · rw [hid] at hi
      rw [hc]
      exact R.named hi
  · rcases hcase (i := i) with ⟨hi', -, hid⟩ | ⟨-, -, hid⟩ <;>
      rcases hcase (i := j) with ⟨hj', -, hid'⟩ | ⟨-, -, hid'⟩ <;> rw [hid, hid'] at hj
    · exact hi'.trans hj'.symm
    · exact absurd hj.symm (Nat.ne_of_lt (hlt j))
    · exact absurd hj (Nat.ne_of_lt (hlt i))
    · exact R.inj (hid ▸ hi) hj
  · by_cases hk : k = nextContext
    · exact ⟨slot, (Function.update_self ..).trans hk.symm, hk ▸ hn⟩
    · obtain ⟨i, hi, h0⟩ :=
        R.all ((M.objects fun h => hk h.native_part).symm.trans hbo)
      obtain ⟨y, hy⟩ := R.named (hi ▸ h0)
      exact ⟨i, (Function.update_of_ne (hne hy) _ _).trans hi, h0⟩
  · rw [htables]
    exact R.own k
  · rw [limit_succ hn hsmall]
    have := hlt i
    rcases hcase (i := i) with ⟨-, -, hid⟩ | ⟨-, -, hid⟩ <;> rw [hid] <;> omega

/-- A context is destroyed. -/
theorem remove {slot : Nat} {x : RenderEngine} (R : Rendering id contexts ids nextContext m)
    (hx : contexts slot = some x) (M : Moves g x.id.Owns m m')
    (hparts : ∀ p, m'.objects (.part x.id p) = none)
    (htables : m'.tables (.ownTables x.id) = none) :
    Rendering id (Function.update contexts slot none)
    (Function.update ids slot 0) nextContext m' := by
  obtain ⟨-, hslot, hid, -⟩ := R.context hx
  rw [hid] at M hparts htables
  have hcase {i : Nat} : i = slot ∧ Function.update contexts slot none i = none ∧
      Function.update ids slot 0 i = 0 ∨ i ≠ slot ∧
        Function.update contexts slot none i = contexts i ∧
      Function.update ids slot 0 i = ids i := by
    by_cases h : i = slot
    · subst h
      exact .inl ⟨rfl, Function.update_self .., Function.update_self ..⟩
    · exact .inr ⟨h, Function.update_of_ne h _ _, Function.update_of_ne h _ _⟩
  refine ⟨fun {i y} hy => ?_, fun {i} hi => ?_, fun {i j} hi hj => ?_, fun {k p bo} hbo => ?_,
    fun k => ?_, fun i => ?_, R.small⟩
  · rcases hcase (i := i) with ⟨-, hc, -⟩ | ⟨hi, hc, hid'⟩
    · rw [hc] at hy
      cases hy
    · rw [hc] at hy
      rw [hid']
      obtain ⟨h1, h2, h3, h4, h5, h6, h7⟩ := R.context hy
      refine ⟨h1, h2, h3, h4, h5, h6, h7.frame M fun p hk => ?_⟩
      have heq : ContextId.native id (ids i) = .native id (ids slot) := h3.symm.trans hk
      injection heq with _ heq
      exact hi (R.inj h2 heq)
  · rcases hcase (i := i) with ⟨-, -, hid'⟩ | ⟨-, hc, hid'⟩
    · exact absurd hid' hi
    · rw [hid'] at hi
      rw [hc]
      exact R.named hi
  · rcases hcase (i := i) with ⟨-, -, hid'⟩ | ⟨-, -, hid'⟩
    · exact absurd hid' hi
    rcases hcase (i := j) with ⟨-, -, hid''⟩ | ⟨-, -, hid''⟩
    · exact absurd (hj.trans hid'') hi
    · rw [hid', hid''] at hj
      exact R.inj (hid' ▸ hi) hj
  · by_cases hk : k = ids slot
    · subst hk
      simp [hparts] at hbo
    · obtain ⟨i, hi, h0⟩ :=
        R.all ((M.objects fun h => hk h.native_part).symm.trans hbo)
      refine ⟨i, (Function.update_of_ne ?_ _ _).trans hi, h0⟩
      rintro rfl
      exact hk hi.symm
  · by_cases hk : k = ids slot
    · rw [hk]
      exact htables
    · exact (M.tables fun h => hk h.native_tables).trans (R.own k)
  · rcases hcase (i := i) with ⟨-, -, hid'⟩ | ⟨-, -, hid'⟩ <;> rw [hid']
    · exact Nat.lt_of_le_of_lt (Nat.zero_le _) (R.next i)
    · exact R.next i

end Rendering

/-! ## The virtual address space -/

namespace Exact
variable {m m' : Memory} {buffers : Nat → Option Owner} {addresses : Nat → Nat}
  {pt pt' : PageTables Owner}

/-- A range that no buffer is bound to shows the scratch page, whatever it has shown meanwhile. -/
theorem spare {address size : Nat} (E : Exact buffers addresses m pt)
    (hfree : ∀ s a, InWindow buffers addresses m s a → ¬ Range address size a)
    (hobj : m'.objects = m.objects)
    (hpages : ∀ {i o}, buffers i = some o → m'.pages o = m.pages o)
    (hs : pt'.scratchPage = pt.scratchPage)
    (hin : ∀ a, a < 2 ^ 48 → Range address size a → pt'.translate a = pt.scratchPage)
    (hout : ∀ a, a < 2 ^ 48 → ¬ Range address size a → pt'.translate a = pt.translate a) :
    Exact buffers addresses m' pt' := by
  have hsize (o : Owner) : m'.size o = m.size o := by rw [Memory.size, hobj, Memory.size]
  have hw {s a : Nat} : InWindow buffers addresses m' s a ↔ InWindow buffers addresses m s a := by
    unfold InWindow
    simp only [hsize]
  refine ⟨fun hne => ?_, fun h h' => E.apart (hw.mp h) (hw.mp h'), fun {s o a} hne ho h1 h2 => ?_,
    fun {a} ha hn => ?_⟩
  · rw [hobj]
    exact E.slot hne
  · rw [hsize] at h2
    obtain ⟨o', bo, ho', hbo, -, -, hlimit⟩ := E.slot hne
    have hlt : a < 2 ^ 48 := by
      cases ho.symm.trans ho'
      simp only [Memory.size, hbo] at h2
      unfold kVirtualAddressLimit at hlimit
      omega
    rw [hpages ho, hout a hlt (hfree s a ⟨hne, o, ho, h1, h2⟩)]
    exact E.shown hne ho h1 h2
  · rw [hs]
    by_cases hr : Range address size a
    · exact hin a ha hr
    · rw [hout a ha hr]
      exact E.blank ha fun s h => hn s (hw.mpr h)

/-- A buffer is bound to a range that is free. -/
theorem map {slot address : Nat} {o : Owner} {bo : BufferObject Owner}
    (E : Exact buffers addresses m pt) (hslot : addresses slot = 0) (ho : buffers slot = some o)
    (hbo : m.objects o = some bo) (hub : bo.bound = false) (hne0 : address ≠ 0)
    (haligned : address % 4096 = 0) (hlimit : address + bo.size ≤ kVirtualAddressLimit)
    (hfree : ∀ s a, InWindow buffers addresses m s a → ¬ Range address bo.size a)
    (hobj : m'.objects = m.objects)
    (hpages : ∀ {i o}, buffers i = some o → m'.pages o = m.pages o)
    (hs : pt'.scratchPage = pt.scratchPage)
    (hin : ∀ a, Range address bo.size a → Entered address (m.pages o) a (pt'.translate a))
    (hout : ∀ a, a < 2 ^ 48 → ¬ Range address bo.size a → pt'.translate a = pt.translate a) :
    Exact buffers (Function.update addresses slot address) m' pt' := by
  have hsize (o : Owner) : m'.size o = m.size o := by rw [Memory.size, hobj, Memory.size]
  have hnew : m.size o = bo.size := by rw [Memory.size, hbo]
  have hne {t : Nat} (ht : t ≠ slot) : Function.update addresses slot address t = addresses t :=
    Function.update_of_ne ht _ _
  have hself : Function.update addresses slot address slot = address := Function.update_self ..
  -- a window is the new one, or one that was there before
  have hw {t a : Nat} (h : InWindow buffers (Function.update addresses slot address) m' t a) :
      t = slot ∧ Range address bo.size a ∨ t ≠ slot ∧ InWindow buffers addresses m t a := by
    obtain ⟨hne', o', ho', h1, h2⟩ := h
    rw [hsize] at h2
    by_cases ht : t = slot
    · subst ht
      cases ho.symm.trans ho'
      rw [hself] at h1 h2
      exact .inl ⟨rfl, h1, hnew ▸ h2⟩
    · rw [hne ht] at hne' h1 h2
      exact .inr ⟨ht, hne', o', ho', h1, h2⟩
  refine ⟨fun {t} hne' => ?_, fun {s t a} h h' => ?_, fun {t o' a} hne' ho' h1 h2 => ?_,
    fun {a} ha hn => ?_⟩
  · by_cases ht : t = slot
    · subst ht
      rw [hself, hobj]
      exact ⟨o, bo, ho, hbo, hub, haligned, hlimit⟩
    · rw [hne ht] at hne' ⊢
      rw [hobj]
      exact E.slot hne'
  · rcases hw h with ⟨rfl, hr⟩ | ⟨-, hold⟩ <;> rcases hw h' with ⟨rfl, hr'⟩ | ⟨-, hold'⟩
    · rfl
    · exact absurd hr (hfree _ _ hold')
    · exact absurd hr' (hfree _ _ hold)
    · exact E.apart hold hold'
  · rw [hpages ho']
    rw [hsize] at h2
    by_cases ht : t = slot
    · subst ht
      cases ho.symm.trans ho'
      rw [hself] at h1 h2 ⊢
      exact (hin a ⟨h1, hnew ▸ h2⟩).2
    · rw [hne ht] at hne' h1 h2 ⊢
      obtain ⟨o'', bo', ho'', hbo', -, -, hlimit'⟩ := E.slot hne'
      have hlt : a < 2 ^ 48 := by
        cases ho'.symm.trans ho''
        simp only [Memory.size, hbo'] at h2
        unfold kVirtualAddressLimit at hlimit'
        omega
      rw [hout a hlt (hfree t a ⟨hne', o', ho', h1, h2⟩)]
      exact E.shown hne' ho' h1 h2
  · have hr : ¬ Range address bo.size a := by
      rintro ⟨h1, h2⟩
      refine hn slot ⟨by rwa [hself], o, ho, by rwa [hself], ?_⟩
      rw [hself, hsize, hnew]
      exact h2
    rw [hs, hout a ha hr]
    refine E.blank ha fun t h => ?_
    obtain ⟨hne', o', ho', h1, h2⟩ := h
    have ht : t ≠ slot := by
      rintro rfl
      exact hne' hslot
    refine hn t ⟨?_, o', ho', ?_, ?_⟩ <;> rw [hne ht]
    · exact hne'
    · exact h1
    · rwa [hsize]

end Exact

namespace Session
variable {ω : Oracle} {g : GlobalGTT} {s s' : Session} {r : Except Error Reply} {n : NativeState}
  {v : Option NativeState} {m' : Memory}

/-- The virtual address space and the native contexts of the client. -/
def OfNative (s : Session) (o : Owner) : Prop :=
  o = .vm s.client.id ∨ ∃ k, (ContextId.native s.client.id k).Owns o

theorem OfNative.mine {o : Owner} (h : s.OfNative o) : s.Mine o := by
  rcases h with rfl | ⟨k, h⟩
  · rfl
  · exact h.client

theorem not_ofNative_buffer (c h : Nat) : ¬ s.OfNative (.buffer c h) := by
  rintro (h | ⟨k, h⟩)
  · cases h
  · exact h

theorem not_ofNative_part (c : Nat) (e : EngineId) (p : Part) :
    ¬ s.OfNative (.part (.legacy c e) p) := by
  rintro (h | ⟨k, h⟩) <;> cases h

theorem not_ofNative_tables (c : Nat) (e : EngineId) : ¬ s.OfNative (.ownTables (.legacy c e)) := by
  rintro (h | ⟨k, h⟩) <;> cases h

/-- An operation on the native state in which a context may run. -/
theorem Inv.keeps_running {masters : Masters} (I : s.Inv g) (M : Moves g s.OfNative s.mem m')
    (N : NativeInv s.client.id s.client.buffers m' v)
    (D : Advances s.client { s.client with native := v }) (hm : Aged s.masters masters)
    (S : Scheduled ⟨{ s.client with native := v }, masters, m'⟩) :
    Keeps g s ⟨{ s.client with native := v }, masters, m'⟩ := by
  have C := I.client
  have hbuffer {i : Nat} {o : Owner} (ho : s.client.buffers i = some o) : ¬ s.OfNative o := by
    obtain ⟨-, -, rfl, -⟩ := C.holding.slot ho
    exact not_ofNative_buffer _ _
  refine ⟨⟨M.inv, ⟨C.holding.frame M fun _ => not_ofNative_buffer _ _,
    C.equipped.frame M (fun _ _ => not_ofNative_part _ _ _) fun e => ?_, N⟩, ?_, S, ⟨?_⟩⟩, rfl,
    M.mono fun _ => OfNative.mine, .rfl, hm, D⟩
  · rw [M.tables (not_ofNative_tables _ _)]
  · exact I.accounts.congr rfl rfl rfl rfl fun i o ho => M.objects (hbuffer ho)
  · intro e x i o hx hr ho hb
    have hmem := hbuffer ho
    change m'.isBound o = true at hb
    rw [isBound, M.objects hmem] at hb
    obtain ⟨pt, hpt, S⟩ := I.shown.shows hx (hm.older.isReady rfl id hr) ho hb
    obtain ⟨hid, -, hspace, -⟩ := C.equipped.engine hx
    refine ⟨pt, (M.tables ?_).trans hpt, S.change (P := fun _ _ => False) (M.objects hmem)
      (M.pages I.mem hmem) (fun _ _ => .inl rfl) fun _ _ _ => False.elim⟩
    rw [hspace, hid]
    exact not_ofNative_tables _ _

/-- An operation on the native state. -/
theorem Inv.keeps_native (I : s.Inv g) (M : Moves g s.OfNative s.mem m')
    (N : NativeInv s.client.id s.client.buffers m' v)
    (D : Advances s.client { s.client with native := v })
    (hn : Unfaulted s ⟨{ s.client with native := v }, s.masters, m'⟩) :
    Keeps g s ⟨{ s.client with native := v }, s.masters, m'⟩ :=
  I.keeps_running M N D .rfl (I.scheduled.steady hn rfl rfl rfl)

/-! ### The native state -/

theorem nativeState_cases {r : Except Error NativeState} (h : s.nativeState ω = (r, s')) :
    (∃ n, s.client.native = some n ∧ r = .ok n ∧ s' = s) ∨
    s.client.native = none ∧ ((∃ e, r = .error e) ∧ Idle s s' ∨
      ∃ m₁ r₂ m₂, s.mem.Idle m₁ ∧ m₁.newTables ω (.vm s.client.id) = (r₂, m₂) ∧
        ((∃ e, r₂ = .error e ∧ r = .error e) ∧ s' = s.setMem m₂ ∨
          r₂ = .ok () ∧ r = .ok .new ∧
          s' = ⟨{ s.client with native := some .new }, s.masters, m₂⟩)) := by
  unfold nativeState at h
  split at h
  · next n hn =>
    cases h
    exact .inl ⟨n, hn, rfl, rfl⟩
  next hn =>
  refine .inr ⟨hn, ?_⟩
  split at h
  · next hm =>
    cases h
    exact .inl ⟨⟨_, rfl⟩, idle_setMem (allocate_idle hm)⟩
  next m₁ hm₁ =>
  generalize hm₂ : m₁.newTables ω (.vm s.client.id) = res at h
  obtain ⟨r₂, m₂⟩ := res
  refine .inr ⟨m₁, r₂, m₂, allocate_idle hm₁, hm₂, ?_⟩
  cases r₂ with
  | error e =>
    cases h
    exact .inl ⟨⟨e, rfl, rfl⟩, rfl⟩
  | ok u =>
    cases h
    exact .inr ⟨rfl, rfl, rfl⟩

theorem nativeState_keeps {r : Except Error NativeState} (I : s.Inv g)
    (hr : s.client.nativeRender = true) (h : s.nativeState ω = (r, s')) : Keeps g s s' := by
  rcases nativeState_cases h with ⟨n, -, -, rfl⟩ | ⟨hn, ⟨-, hidle⟩ | ⟨m₁, r₂, m₂, I₁, hm₂, h⟩⟩
  · exact Idle.rfl.keeps I
  · exact hidle.keeps I
  have C := I.client
  have N := C.native
  rw [hn] at N
  have M₁ : Moves g (· = .vm s.client.id) s.mem m₁ := I₁.moves I.mem
  obtain ⟨M₂, hobj₂, hgtt₂, herr, hok⟩ :=
    newTables_spec M₁.inv (Owner.isTables_vm _) ((congrFun I₁.tables _).trans N.1) hm₂
  have M := M₁.trans M₂
  have hparts (k : Nat) (p : Part) : m₂.objects (.part (.native s.client.id k) p) = none := by
    rw [hobj₂, I₁.objects]
    exact (N.2 k p).1
  have hown (k : Nat) : m₂.tables (.ownTables (.native s.client.id k)) = none := by
    have hne : Owner.ownTables (.native s.client.id k) ≠ .vm s.client.id := nofun
    rw [M₂.tables hne, I₁.tables]
    exact (N.2 k .ring).2
  rcases h with ⟨⟨e, rfl, -⟩, rfl⟩ | ⟨rfl, -, rfl⟩
  · refine I.keeps_native (v := s.client.native) (M.mono fun _ => .inl) ?_ .rfl (.of_eq rfl)
    rw [hn]
    refine ⟨?_, fun k p => ⟨hparts k p, hown k⟩⟩
    rw [herr e rfl, I₁.tables]
    exact N.1
  · obtain ⟨pt, hpt, hblank⟩ := hok rfl
    refine I.keeps_native (M.mono fun _ => .inl)
      ⟨?_, nofun, pt, by rw [hpt, Function.update_self], ?_⟩ ?_ fun n' hn' => .inr ⟨?_, hr⟩
    · refine ⟨nofun, fun h => absurd rfl h, fun h => absurd rfl h, fun {k p bo} hbo => ?_, hown,
        fun i => ?_, ?_⟩
      · rw [hparts] at hbo
        cases hbo
      · exact Nat.le_of_ble_eq_true rfl
      · exact Nat.le_of_ble_eq_true rfl
    · exact ⟨fun h => absurd rfl h, fun ⟨h, _⟩ => absurd rfl h, fun h => absurd rfl h,
        fun _ _ => hblank _⟩
    · refine .shrink (fun i => .inl rfl) rfl (fun i => .inr rfl) ?_
      rw [RenderClient.nextContext, RenderClient.nextContext, hn]
      rfl
    · cases hn'
      rfl

/-! ### `kCreateContext` and `kDestroyContext` -/

/-- The context a request makes, before it is set up. -/
abbrev newContext (s : Session) (n : NativeState) : RenderEngine :=
  RenderEngine.new (.native s.client.id n.nextContext) .render (.vm s.client.id)

/-- What can become of a request for a context: it is refused, or the context cannot be set up, or
the caller cannot be told of it and its id is lost, or it is there. -/
theorem createContext_cases {context flags : Nat}
    (h : s.createContext ω n context flags = (r, s')) :
    (∃ e, r = .error e) ∧ Idle s s' ∨
    ∃ slot m₁ r₂ x m₂, slot < kMaxContexts ∧ n.contexts slot = none ∧ n.nextContext ≠ 0 ∧
      s.mem.Idle m₁ ∧ (s.newContext n).init ω m₁ = (r₂, x, m₂) ∧
      ((∃ e, r₂ = .error e ∧ r = .error e) ∧ s' = s.setMem (x.destroy m₂) ∨
        r₂ = .ok () ∧ ∃ m₃, m₂.Idle m₃ ∧
          ((∃ e, r = .error e) ∧ s' = ⟨{ s.client with native := some { n with
              nextContext := (n.nextContext + 1) % 2 ^ 32 } }, s.masters, x.destroy m₃⟩ ∨
            r = .ok (.context n.nextContext) ∧
            s' = ⟨{ s.client with native := some { n with
              nextContext := (n.nextContext + 1) % 2 ^ 32
              contexts := Function.update n.contexts slot (some x)
              ids := Function.update n.ids slot n.nextContext } }, s.masters, m₃⟩)) := by
  unfold createContext at h
  split at h
  · cases h
    exact .inl ⟨⟨_, rfl⟩, .rfl⟩
  split at h
  · cases h
    exact .inl ⟨⟨_, rfl⟩, .rfl⟩
  next slot hslot =>
  split at h
  · cases h
    exact .inl ⟨⟨_, rfl⟩, .rfl⟩
  next hn =>
  split at h
  · next hm =>
    cases h
    exact .inl ⟨⟨_, rfl⟩, idle_setMem (allocate_idle hm)⟩
  next m₁ hm₁ =>
  have hmem := List.mem_range.mp (List.mem_of_find?_eq_some hslot)
  have hfree : n.contexts slot = none := by simpa using List.find?_some hslot
  dsimp only at h
  generalize hi : (s.newContext n).init ω m₁ = res at h
  obtain ⟨r₂, x, m₂⟩ := res
  refine .inr ⟨slot, m₁, r₂, x, m₂, hmem, hfree, hn, allocate_idle hm₁, hi, ?_⟩
  cases r₂ with
  | error e =>
    cases h
    exact .inl ⟨⟨e, rfl, rfl⟩, rfl⟩
  | ok u =>
  refine .inr ⟨rfl, ?_⟩
  dsimp only at h
  split at h
  · next e m₃ hm₃ =>
    cases h
    exact ⟨m₃, userMemcpy_idle hm₃, .inl ⟨⟨e, rfl⟩, rfl⟩⟩
  · next m₃ hm₃ =>
    cases h
    exact ⟨m₃, userMemcpy_idle hm₃, .inr ⟨rfl, rfl⟩⟩

theorem createContext_keeps {context flags : Nat} (I : s.Inv g) (hnative : s.client.native = some n)
    (h : s.createContext ω n context flags = (r, s')) : Keeps g s s' := by
  rcases createContext_cases h with ⟨-, hidle⟩ | ⟨slot, m₁, r₂, x, m₂, hslot, hfree, hn, I₁, hi, h⟩
  · exact hidle.keeps I
  have N := I.client.native
  rw [hnative] at N
  obtain ⟨R, hf, pt, hpt, E⟩ := N
  have M₁ : Moves g (ContextId.native s.client.id n.nextContext).Owns s.mem m₁ := I₁.moves I.mem
  have hpt₁ : m₁.tables (.vm s.client.id) = some pt := (congrFun I₁.tables _).trans hpt
  obtain ⟨M₂, ht₂, herr, hok⟩ := init_spec M₁.inv
    (fun p => (congrFun I₁.objects _).trans (R.fresh hn p)) (.inr ⟨pt, hpt₁⟩) hi
  have M₂ := M₁.trans M₂
  have ht₂ := (ht₂ pt hpt₁).trans I₁.tables
  have hof {o : Owner} (h : (ContextId.native s.client.id n.nextContext).Owns o) : s.OfNative o :=
    .inr ⟨_, h⟩
  -- the virtual address space is as it was
  have hexact {m : Memory} (M : Moves g (ContextId.native s.client.id n.nextContext).Owns s.mem m) :
      ∃ pt, m.tables (.vm s.client.id) = some pt ∧ Exact s.client.buffers n.addresses m pt := by
    refine ⟨pt, (M.tables id).trans hpt, E.frame I.mem M (fun _ _ => rfl) (fun i o _ ho => ?_)
      (fun _ _ => rfl) rfl⟩
    obtain ⟨-, -, rfl, -⟩ := I.client.holding.slot ho
    exact id
  -- a context that cannot stay is gone with all it owns
  have hgone {m : Memory} (hx : x.id = .native s.client.id n.nextContext)
      (M : Moves g (ContextId.native s.client.id n.nextContext).Owns s.mem m) :
      Moves g (ContextId.native s.client.id n.nextContext).Owns s.mem (x.destroy m) ∧
        ∀ next, next = n.nextContext ∨ next = (n.nextContext + 1) % 2 ^ 32 →
          Rendering s.client.id n.contexts n.ids next (x.destroy m) := by
    obtain ⟨M', hparts, ht'⟩ := destroy_spec M.inv x
    rw [hx] at M' hparts ht'
    have M' := M.trans M'
    exact ⟨M', fun next hnext => R.skip hn M' hparts (by rw [ht', Function.update_self]) hnext⟩
  rcases h with ⟨⟨e, rfl, -⟩, rfl⟩ | ⟨rfl, m₃, I₃, h⟩
  · obtain ⟨M, hR⟩ := hgone (by rw [herr e rfl]; rfl) M₂
    refine I.keeps_native (v := s.client.native) (M.mono fun _ => hof) ?_ .rfl (.of_eq rfl)
    rw [hnative]
    exact ⟨hR _ (.inl rfl), hf, hexact M⟩
  obtain ⟨rfl, hwhole, -⟩ := hok rfl
  have M₃ := M₂.trans (I₃.moves M₂.inv)
  rcases h with ⟨-, rfl⟩ | ⟨-, rfl⟩
  · obtain ⟨M, hR⟩ := hgone rfl M₃
    refine I.keeps_native (M.mono fun _ => hof) ⟨hR _ (.inr rfl), hf, hexact M⟩
      (.context hnative hn R.small rfl fun _ => .inl rfl)
      fun n' hn' => .inl ⟨n, hnative, by cases hn'; rfl⟩
  · have ht₃ : m₃.tables = s.mem.tables := I₃.tables.trans ht₂
    refine I.keeps_native (M₃.mono fun _ => hof) ⟨R.insert hn M₃ hslot hfree ht₃
      ⟨rfl, rfl, rfl, rfl, fun p => ?_⟩, fun i y hy hfault => ?_, hexact M₃⟩
      (.context hnative hn R.small rfl fun i => ?_)
      fun n' hn' => .inl ⟨n, hnative, by cases hn'; rfl⟩
    · obtain ⟨bo, hbo⟩ := hwhole p
      exact ⟨bo, (congrFun I₃.objects _).trans hbo⟩
    · change Function.update _ _ _ _ = _ at hy
      rw [Function.update_apply] at hy
      split at hy
      · cases hy
        cases hfault
      · exact hf i y hy hfault
    · by_cases hi : i = slot
      · subst hi
        exact .inr (Function.update_self ..)
      · exact .inl (Function.update_of_ne hi _ _)

theorem destroyContext_cases {context reserved : Nat}
    (h : s.destroyContext n context reserved = (r, s')) :
    (∃ e, r = .error e) ∧ s' = s ∨
    ∃ slot, slot < kMaxContexts ∧ n.ids slot = context ∧ context ≠ 0 ∧ r = .ok .none ∧
      s' = ⟨{ s.client with native := some { n with
        contexts := Function.update n.contexts slot none
        ids := Function.update n.ids slot 0 } }, s.masters,
        (n.contexts slot).elim s.mem (·.destroy s.mem)⟩ := by
  unfold destroyContext at h
  split at h
  · cases h
    exact .inl ⟨⟨_, rfl⟩, rfl⟩
  next hbad =>
  split at h
  · cases h
    exact .inl ⟨⟨_, rfl⟩, rfl⟩
  next slot hslot =>
  have hmem := List.mem_range.mp (List.mem_of_find?_eq_some hslot)
  have hid : n.ids slot = context := by simpa using List.find?_some hslot
  cases h
  refine .inr ⟨slot, hmem, hid, fun h => hbad (.inl h), rfl, ?_⟩
  cases n.contexts slot <;> rfl

theorem destroyContext_keeps {context reserved : Nat} (I : s.Inv g)
    (hnative : s.client.native = some n) (h : s.destroyContext n context reserved = (r, s')) :
    Keeps g s s' := by
  rcases destroyContext_cases h with ⟨-, rfl⟩ | ⟨slot, -, hid, h0, -, rfl⟩
  · exact Idle.rfl.keeps I
  have N := I.client.native
  rw [hnative] at N
  obtain ⟨R, hf, pt, hpt, E⟩ := N
  obtain ⟨x, hx⟩ := R.named (hid ▸ h0)
  obtain ⟨-, -, hxid, -⟩ := R.context hx
  obtain ⟨M, hparts, ht⟩ := destroy_spec I.mem x
  rw [hx]
  refine I.keeps_native (M.mono fun o ho => .inr ⟨_, hxid ▸ ho⟩) ⟨R.remove hx M hparts ?_,
    fun i y hy hfault => ?_, pt, (M.tables fun h => ?_).trans hpt, E.frame I.mem M (fun _ _ => rfl)
    (fun i o _ ho h => ?_) (fun _ _ => rfl) rfl⟩ (.shrink (fun _ => .inl rfl) rfl (fun i => ?_) ?_)
    fun n' hn' => .inl ⟨n, hnative, by cases hn'; rfl⟩
  · exact (congrFun ht _).trans (Function.update_self ..)
  · change Function.update _ _ _ _ = _ at hy
    rw [Function.update_apply] at hy
    split at hy
    · cases hy
    · exact hf i y hy hfault
  · exact h
  · obtain ⟨-, -, rfl, -⟩ := I.client.holding.slot ho
    exact h
  · change Function.update n.ids slot 0 i = _ ∨ Function.update n.ids slot 0 i = 0
    rw [RenderClient.ids, hnative]
    by_cases hi : i = slot
    · subst hi
      exact .inr (Function.update_self ..)
    · exact .inl (Function.update_of_ne hi _ _)
  · rw [RenderClient.nextContext, RenderClient.nextContext, hnative]
    rfl

/-! ### `kBindVirtual` and `kUnbindVirtual` -/

/-- A range that passes the overlap check is free. -/
theorem not_overlaps {address size : Nat} (C : s.client.Inv s.mem)
    (h : s.overlaps n address size = false) (t a : Nat)
    (hw : InWindow s.client.buffers n.addresses s.mem t a) : ¬ Range address size a := by
  rintro ⟨h1, h2⟩
  obtain ⟨hne, o, ho, h3, h4⟩ := hw
  obtain ⟨hlt, -⟩ := C.holding.slot ho
  unfold overlaps at h
  rw [List.any_eq_false] at h
  refine h t (List.mem_range.mpr hlt) ?_
  simp only [ho, Option.elim_some, Bool.and_eq_true, ne_eq, decide_eq_true_eq]
  exact ⟨⟨hne, by omega⟩, by omega⟩

/-- What can become of a request to bind a buffer in the virtual address space: it is refused, or
there is nothing to do, or the page tables cannot take it, or it is there. -/
theorem bindVirtual_cases {handle flags address : Nat}
    (h : s.bindVirtual ω n handle flags address = (r, s')) :
    (∃ e, r = .error e) ∧ s' = s ∨
    ∃ slot buffer, s.find handle = some (slot, buffer) ∧ address ≠ 0 ∧ address % 4096 = 0 ∧
      address + s.mem.size buffer ≤ kVirtualAddressLimit ∧
      (n.addresses slot = address ∧ r = .ok .none ∧ s' = s ∨
        n.addresses slot = 0 ∧ s.mem.isBound buffer = false ∧
        s.overlaps n address (s.mem.size buffer) = false ∧ ∃ r₁ done m₁,
          s.mem.map ω (.vm s.client.id) (s.mem.area buffer) address = (r₁, done, m₁) ∧
          ((∃ e, r₁ = .error e ∧ r = .error e) ∧
              s' = s.setMem (m₁.unmap ω (.vm s.client.id) address (m₁.size buffer)).2 ∨
            r₁ = .ok () ∧ r = .ok .none ∧ s' = ⟨{ s.client with native := some { n with
              addresses := Function.update n.addresses slot address } }, s.masters, m₁⟩)) := by
  unfold bindVirtual at h
  split at h
  · cases h
    exact .inl ⟨⟨_, rfl⟩, rfl⟩
  next hbad =>
  split at h
  · cases h
    exact .inl ⟨⟨_, rfl⟩, rfl⟩
  next slot buffer hfind =>
  split at h
  · cases h
    exact .inl ⟨⟨_, rfl⟩, rfl⟩
  next hlimit =>
  simp only [not_or, Nat.not_le] at hbad
  obtain ⟨-, -, hne, hlt, haligned⟩ := hbad
  have haligned : address % 4096 = 0 := Decidable.not_not.mp haligned
  split at h
  · next heq =>
    cases h
    exact .inr ⟨slot, buffer, hfind, hne, haligned, by omega, .inl ⟨heq, rfl, rfl⟩⟩
  split at h
  · cases h
    exact .inl ⟨⟨_, rfl⟩, rfl⟩
  next hbusy =>
  split at h
  · cases h
    exact .inl ⟨⟨_, rfl⟩, rfl⟩
  next hover =>
  simp only [Bool.or_eq_true, not_or, Bool.not_eq_true, decide_eq_true_eq, ne_eq, not_not] at hbusy
  generalize hm : s.mem.map ω (.vm s.client.id) (s.mem.area buffer) address = res at h
  obtain ⟨r₁, done, m₁⟩ := res
  refine .inr ⟨slot, buffer, hfind, hne, haligned, by omega, .inr ⟨hbusy.1, hbusy.2,
    Bool.eq_false_iff.mpr hover, r₁, done, m₁, hm, ?_⟩⟩
  cases r₁ with
  | error e =>
    cases h
    exact .inl ⟨⟨e, rfl, rfl⟩, rfl⟩
  | ok u =>
    cases h
    exact .inr ⟨rfl, rfl, rfl⟩

theorem bindVirtual_keeps {handle flags address : Nat} (I : s.Inv g)
    (hnative : s.client.native = some n) (h : s.bindVirtual ω n handle flags address = (r, s')) :
    Keeps g s s' := by
  rcases bindVirtual_cases h with ⟨-, rfl⟩ | ⟨slot, buffer, hfind, hne, haligned, hlimit,
    ⟨-, -, rfl⟩ | ⟨hslot0, hub, hover, r₁, done, m₁, hm, h⟩⟩
  · exact Idle.rfl.keeps I
  · exact Idle.rfl.keeps I
  obtain ⟨-, -, hslot⟩ := find_some hfind
  have C := I.client
  obtain ⟨-, -, bo, hbo, hpos⟩ := buffer_mem C hslot
  have hsize : s.mem.size buffer = bo.size := by rw [Memory.size, hbo]
  have hfree := not_overlaps C hover
  rw [hsize] at hlimit hfree
  have N := C.native
  rw [hnative] at N
  obtain ⟨R, hf, pt, hpt, E⟩ := N
  obtain ⟨hlen, a, ha, har⟩ := I.mem.size_eq hbo
  have harea : s.mem.area buffer = some a := by
    rw [Memory.area, hbo]
    exact ha
  obtain ⟨M₁, hobj₁, hgtt₁, -⟩ := map_spec I.mem hm
  obtain ⟨hT, hok⟩ := map_retabled I.mem hm harea har
  obtain ⟨pt₁, hpt₁, hs₁, htr₁⟩ := (hT _).2 pt hpt
  dsimp only at hok htr₁
  rw [← hlen] at hok
  have hpages {i : Nat} {o : Owner} (ho : s.client.buffers i = some o) :
      m₁.pages o = s.mem.pages o := by
    refine M₁.pages I.mem fun h => ?_
    obtain ⟨-, -, rfl, -⟩ := C.holding.slot ho
    cases h
  -- outside of the range nothing has changed
  have hout₁ (a : Nat) (ha : a < 2 ^ 48) (hr : ¬ Range address bo.size a) :
      pt₁.translate a = pt.translate a :=
    (htr₁ a ha).resolve_right fun h => hr (hlen ▸ h.2.2.range)
  have hR {m : Memory} (M : Moves g (· = .vm s.client.id) s.mem m) :
      Rendering s.client.id n.contexts n.ids n.nextContext m :=
    R.frame M fun k o ho h => by
      subst h
      exact ho
  rcases h with ⟨-, rfl⟩ | ⟨rfl, -, rfl⟩
  · generalize hu : m₁.unmap ω (.vm s.client.id) address (m₁.size buffer) = res
    obtain ⟨r₂, m₂⟩ := res
    have hsize₁ : m₁.size buffer = bo.size := by rw [Memory.size, hobj₁, hbo]
    have hround : pageRound bo.size = bo.size := by
      have := size_round M₁.inv (o := buffer) (by omega)
      rwa [hsize₁] at this
    unfold kVirtualAddressLimit at hlimit
    obtain ⟨M₂, hobj₂, hmach₂, hunmapped⟩ := unmap_spec M₁.inv hu
    obtain ⟨pt₂, ht₂, hfix, -, hok₂, htr₂⟩ := hunmapped pt₁ hpt₁
    rw [hsize₁] at hok₂ htr₂
    rw [hround] at htr₂
    obtain rfl := hok₂.mpr ⟨haligned, by omega, by omega⟩
    have hs₂ : pt₂.scratchPage = pt₁.scratchPage := congrArg (·.2.2.2.1) hfix
    have M := M₁.trans M₂
    refine I.keeps_native (v := s.client.native) (M.mono fun _ => .inl) ?_ .rfl (.of_eq rfl)
    rw [hnative]
    refine ⟨hR M, hf, pt₂, by rw [ht₂, Function.update_self], E.spare hfree (hobj₂.trans hobj₁)
      (fun ho => (pages_congr hobj₂ hmach₂).trans (hpages ho)) (hs₂.trans hs₁) (fun a ha hr => ?_)
      fun a ha hr => ?_⟩
    · rw [htr₂ a ha, if_pos ⟨rfl, hr⟩, hs₁]
    · rw [htr₂ a ha, if_neg fun h => hr h.2]
      exact hout₁ a ha hr
  · obtain ⟨-, hshown⟩ := hok rfl
    have hub' : bo.bound = false := by
      rw [isBound, hbo] at hub
      exact hub
    refine I.keeps_native (M₁.mono fun _ => .inl) ⟨hR M₁, hf, pt₁, hpt₁, E.map hslot0 hslot hbo hub'
      hne haligned hlimit hfree hobj₁ hpages hs₁ (hshown pt₁ hpt₁) hout₁⟩ (.native hnative rfl rfl)
      fun n' hn' => .inl ⟨n, hnative, by cases hn'; rfl⟩

theorem unbindVirtual_cases {handle reserved : Nat}
    (h : s.unbindVirtual ω handle reserved = (r, s')) :
    (∃ e, r = .error e) ∧ s' = s ∨
    ∃ slot buffer r₁, s.find handle = some (slot, buffer) ∧
      s.unmapVirtual ω slot buffer = (r₁, s') := by
  unfold unbindVirtual at h
  split at h
  · cases h
    exact .inl ⟨⟨_, rfl⟩, rfl⟩
  split at h
  · cases h
    exact .inl ⟨⟨_, rfl⟩, rfl⟩
  next slot buffer hfind =>
  split at h <;>
  · next hu =>
    cases h
    exact .inr ⟨slot, buffer, _, hfind, hu⟩

theorem unbindVirtual_keeps {handle reserved : Nat} (I : s.Inv g)
    (h : s.unbindVirtual ω handle reserved = (r, s')) : Keeps g s s' := by
  rcases unbindVirtual_cases h with ⟨-, rfl⟩ | ⟨slot, buffer, r₁, hfind, hu⟩
  · exact Idle.rfl.keeps I
  obtain ⟨-, -, hslot⟩ := find_some hfind
  obtain ⟨-, M, -, -, hc, hm, C', hnative, -⟩ := unmapVirtual_spec I.mem I.client hslot hu
  obtain ⟨client, masters, mem⟩ := s'
  dsimp only at M hc hm C' hnative
  rw [hc] at C' ⊢
  subst hm
  refine I.keeps_native (M.mono fun _ => .inl) C'.native ?_ fun n' hn' => .inl ?_
  · exact .shrink (fun _ => .inl rfl) rfl
      (fun i => .inl (congrFun (RenderClient.ids_map hnative (fun _ => rfl) fun _ => rfl).1 i))
      (RenderClient.ids_map hnative (fun _ => rfl) fun _ => rfl).2
  · change client.native = _ at hn'
    rw [hnative] at hn'
    obtain ⟨n, hn, rfl⟩ := Option.map_eq_some_iff.mp hn'
    exact ⟨n, hn, rfl⟩

theorem bufferLayout_keeps {handle tiling stride reserved : Nat} (I : s.Inv g)
    (hnative : s.client.native = some n)
    (h : s.bufferLayout n handle tiling stride reserved = (r, s')) : Keeps g s s' := by
  unfold bufferLayout at h
  generalize (if tiling = 1 then 512 else 128) = unit at h
  split at h
  · cases h
    exact Idle.rfl.keeps I
  split at h
  · cases h
    exact Idle.rfl.keeps I
  split at h
  · cases h
    exact Idle.rfl.keeps I
  cases h
  have N := I.client.native
  rw [hnative] at N
  obtain ⟨R, hf, hE⟩ := N
  exact I.keeps_native (.rfl I.mem) ⟨R, hf, hE⟩ (.native hnative rfl rfl)
    fun n' hn' => .inl ⟨n, hnative, by cases hn'; rfl⟩

end Session
end IntelGfx
