import IntelGfx.Kernel.RenderClient
import IntelGfx.Verify.RenderEngine

/-!
# The invariant of a client

`RenderClient.Inv`: the slots of a client name its buffers, its contexts own what they should, and
its native page tables show exactly the buffers that are bound in them. There is a part for each of
the three, stated for the fields it depends on, so that an operation on other fields keeps it as it
is.
-/

namespace IntelGfx
open Memory RenderEngine

/-- The handles below this have been given out. The counter is zero once it has wrapped, and then
no more are given out. -/
def limit (next : Nat) : Nat := if next = 0 then 2 ^ 32 else next

theorem limit_of_ne {next : Nat} (h : next ≠ 0) : limit next = next := if_neg h

theorem limit_succ {next : Nat} (_ : next ≠ 0) (hn : next < 2 ^ 32) :
    limit ((next + 1) % 2 ^ 32) = next + 1 := by
  unfold limit
  split <;> omega

/-- The buffers of a client are in its slots, each under a handle of its own. -/
structure Holding (id : Nat) (buffers : Nat → Option Owner) (handles : Nat → Nat)
    (nextHandle : Nat) (m : Memory) : Prop where
  slot : ∀ {i o}, buffers i = some o → i < kMaxBuffers ∧ handles i ≠ 0 ∧
    o = .buffer id (handles i) ∧ ∃ bo, m.objects o = some bo ∧ 0 < bo.size
  inj : ∀ {i j o}, buffers i = some o → buffers j = some o → i = j
  all : ∀ {h bo}, m.objects (.buffer id h) = some bo → ∃ i, buffers i = some (.buffer id h)
  next : ∀ {i o}, buffers i = some o → handles i < limit nextHandle
  small : nextHandle < 2 ^ 32

/-- The engines a client was given at open. -/
structure Equipped (id : Nat) (engines : EngineId → Option RenderEngine) (m : Memory) : Prop where
  engine : ∀ {e x}, engines e = some x → x.id = .legacy id e ∧ x.engine = e ∧
    x.addressSpace = .ownTables x.id ∧ x.ready = true ∧ Whole m x.id ∧
    ∃ pt, m.tables (.ownTables x.id) = some pt
  absent : ∀ {e}, engines e = none → (∀ p, m.objects (.part (.legacy id e) p) = none) ∧
    m.tables (.ownTables (.legacy id e)) = none

/-- The native contexts of a client. -/
structure Rendering (id : Nat) (contexts : Nat → Option RenderEngine) (ids : Nat → Nat)
    (nextContext : Nat) (m : Memory) : Prop where
  context : ∀ {i x}, contexts i = some x → i < kMaxContexts ∧ ids i ≠ 0 ∧
    x.id = .native id (ids i) ∧ x.engine = .render ∧ x.addressSpace = .vm id ∧ x.ready = true ∧
    Whole m x.id
  named : ∀ {i}, ids i ≠ 0 → ∃ x, contexts i = some x
  inj : ∀ {i j}, ids i ≠ 0 → ids i = ids j → i = j
  all : ∀ {k p bo}, m.objects (.part (.native id k) p) = some bo → ∃ i, ids i = k ∧ k ≠ 0
  own : ∀ k, m.tables (.ownTables (.native id k)) = none
  next : ∀ i, ids i < limit nextContext
  small : nextContext < 2 ^ 32

/-- The address `a` is in the range the buffer in slot `s` is bound to. -/
def InWindow (buffers : Nat → Option Owner) (addresses : Nat →
    Nat) (m : Memory) (s a : Nat) : Prop :=
  addresses s ≠ 0 ∧ ∃ o, buffers s = some o ∧ addresses s ≤ a ∧ a < addresses s + m.size o

/-- The page tables show the buffers that are bound in them, and nothing else. -/
structure Exact (buffers : Nat → Option Owner) (addresses : Nat → Nat) (m : Memory)
    (pt : PageTables Owner) : Prop where
  slot : ∀ {s}, addresses s ≠ 0 → ∃ o bo, buffers s = some o ∧ m.objects o = some bo ∧
    bo.bound = false ∧ addresses s % 4096 = 0 ∧ addresses s + bo.size ≤ kVirtualAddressLimit
  apart : ∀ {s t a}, InWindow buffers addresses m s a → InWindow buffers addresses m t a → s = t
  shown : ∀ {s o a}, addresses s ≠ 0 → buffers s = some o → addresses s ≤ a →
    a < addresses s + m.size o → (m.pages o)[(a - addresses s) / 4096]? = some (pt.translate a)
  blank : ∀ {a}, a < 2 ^ 48 → (∀ s, ¬ InWindow buffers addresses m s a) →
    pt.translate a = pt.scratchPage

/-- The native state of a client, if it has one. -/
def NativeInv (id : Nat) (buffers : Nat → Option Owner) (m : Memory) : Option NativeState → Prop
  | none => m.tables (.vm id) = none ∧ ∀ k p, m.objects (.part (.native id k) p) = none ∧
      m.tables (.ownTables (.native id k)) = none
  | some n => Rendering id n.contexts n.ids n.nextContext m ∧
      (∀ i x, n.contexts i = some x → x.faulted = true → n.faulted = true) ∧
      ∃ pt, m.tables (.vm id) = some pt ∧ Exact buffers n.addresses m pt

namespace RenderClient

structure Inv (c : RenderClient) (m : Memory) : Prop where
  holding : Holding c.id c.buffers c.handles c.nextHandle m
  equipped : Equipped c.id c.engines m
  native : NativeInv c.id c.buffers m c.native

end RenderClient

/-! ## Frames -/

section frames
variable {g g₀ : GlobalGTT} {K : Owner → Prop} {m m' : Memory} {id : Nat}
  {buffers : Nat → Option Owner}

theorem Holding.frame {handles : Nat → Nat} {nextHandle : Nat}
    (H : Holding id buffers handles nextHandle m) (M : Moves g K m m')
    (hK : ∀ h, ¬ K (.buffer id h)) : Holding id buffers handles nextHandle m' where
  slot := fun hi => by
    obtain ⟨h1, h2, rfl, bo, hbo, hs⟩ := H.slot hi
    exact ⟨h1, h2, rfl, bo, (M.objects (hK _)).trans hbo, hs⟩
  inj := H.inj
  all := fun hbo => H.all ((M.objects (hK _)).symm.trans hbo)
  next := H.next
  small := H.small

/-- The tables of the engines may change, but they do not come or go. -/
theorem Equipped.frame {engines : EngineId → Option RenderEngine} (H : Equipped id engines m)
    (M : Moves g K m m') (hK : ∀ e p, ¬ K (.part (.legacy id e) p))
    (ht : ∀ e, (m'.tables (.ownTables (.legacy id e))).isSome =
      (m.tables (.ownTables (.legacy id e))).isSome) : Equipped id engines m' where
  engine := fun {e x} hx => by
    obtain ⟨h1, h2, h3, h4, h5, pt, h6⟩ := H.engine hx
    refine ⟨h1, h2, h3, h4, h5.frame M fun p => h1 ▸ hK e p, Option.isSome_iff_exists.mp ?_⟩
    rw [h1, ht, ← h1, h6]
    rfl
  absent := fun {e} he => by
    obtain ⟨hobj, htab⟩ := H.absent he
    refine ⟨fun p => (M.objects (hK e p)).trans (hobj p), ?_⟩
    have := ht e
    rwa [htab, Option.isSome_none, Option.isSome_eq_false_iff, Option.isNone_iff_eq_none] at this

theorem Rendering.frame {contexts : Nat → Option RenderEngine} {ids : Nat → Nat} {nextContext : Nat}
    (H : Rendering id contexts ids nextContext m) (M : Moves g K m m')
    (hK : ∀ k o, (ContextId.native id k).Owns o → ¬ K o) :
    Rendering id contexts ids nextContext m' where
  context := fun hx => by
    obtain ⟨h1, h2, h3, h4, h5, h6, h7⟩ := H.context hx
    have hw := h7.frame M fun p => h3 ▸ hK _ _ (ContextId.owns_part (.native id _) p)
    exact ⟨h1, h2, h3, h4, h5, h6, hw⟩
  named := H.named
  inj := H.inj
  all := fun hbo => H.all ((M.objects (hK _ _ (ContextId.owns_part _ _))).symm.trans hbo)
  own := fun k => (M.tables (hK k _ (ContextId.owns_tables _))).trans (H.own k)
  next := H.next
  small := H.small

theorem size_frame {o : Owner} (M : Moves g K m m') (ho : ¬ K o) : m'.size o = m.size o := by
  rw [Memory.size, Memory.size, M.objects ho]

theorem Exact.frame {buffers' : Nat → Option Owner} {addresses : Nat → Nat}
    {pt pt' : PageTables Owner} (E : Exact buffers addresses m pt) (H : m.Inv g₀)
    (M : Moves g K m m') (hb : ∀ s, addresses s ≠ 0 → buffers' s = buffers s)
    (hK : ∀ s o, addresses s ≠ 0 → buffers s = some o → ¬ K o)
    (ht : ∀ a, a < 2 ^ 48 → pt'.translate a = pt.translate a)
    (hs : pt'.scratchPage = pt.scratchPage) : Exact buffers' addresses m' pt' := by
  have hw : ∀ {s a}, InWindow buffers' addresses m' s a ↔ InWindow buffers addresses m s a := by
    intro s a
    constructor
    · rintro ⟨hne, o, ho, h1, h2⟩
      rw [hb s hne] at ho
      exact ⟨hne, o, ho, h1, size_frame M (hK s o hne ho) ▸ h2⟩
    · rintro ⟨hne, o, ho, h1, h2⟩
      refine ⟨hne, o, (hb s hne).trans ho, h1, ?_⟩
      rwa [size_frame M (hK s o hne ho)]
  refine ⟨fun {s} hne => ?_, fun h h' => E.apart (hw.mp h) (hw.mp h'),
    fun {s o a} hne ho h1 h2 => ?_, fun ha hn => ?_⟩
  · obtain ⟨o, bo, ho, hbo, hrest⟩ := E.slot hne
    exact ⟨o, bo, (hb s hne).trans ho, (M.objects (hK s o hne ho)).trans hbo, hrest⟩
  · rw [hb s hne] at ho
    obtain ⟨o', bo, ho', hbo, -, -, hlimit⟩ := E.slot hne
    rw [size_frame M (hK s o hne ho)] at h2
    have hlt : a < 2 ^ 48 := by
      cases ho.symm.trans ho'
      simp only [Memory.size, hbo] at h2
      unfold kVirtualAddressLimit at hlimit
      omega
    rw [M.pages H (hK s o hne ho), ht a hlt]
    exact E.shown hne ho h1 h2
  · rw [ht _ ha, hs]
    exact E.blank ha fun s h => hn s (hw.mpr h)

theorem NativeInv.frame {buffers' : Nat → Option Owner} {native : Option NativeState}
    (N : NativeInv id buffers m native) (H : m.Inv g₀) (M : Moves g K m m') (hvm : ¬ K (.vm id))
    (hK : ∀ k o, (ContextId.native id k).Owns o → ¬ K o)
    (hb : ∀ n s, native = some n → n.addresses s ≠ 0 → buffers' s = buffers s)
    (hbuf : ∀ n s o, native = some n → n.addresses s ≠ 0 → buffers s = some o → ¬ K o) :
    NativeInv id buffers' m' native := by
  cases native with
  | none =>
    exact ⟨(M.tables hvm).trans N.1, fun k p =>
      ⟨(M.objects (hK k _ (ContextId.owns_part _ p))).trans (N.2 k p).1,
        (M.tables (hK k _ (ContextId.owns_tables _))).trans (N.2 k p).2⟩⟩
  | some n =>
    obtain ⟨hr, hf, pt, hpt, E⟩ := N
    exact ⟨hr.frame M hK, hf, pt, (M.tables hvm).trans hpt,
      E.frame H M (fun s => hb n s rfl) (fun s o => hbuf n s o rfl) (fun _ _ => rfl) rfl⟩

/-- A slot that is bound in the native page tables holds a buffer. -/
theorem NativeInv.slot {native : Option NativeState} (N : NativeInv id buffers m native)
    {n : NativeState} (hn : native = some n) {s : Nat} (hs : n.addresses s ≠ 0) : ∃ o bo,
      buffers s = some o ∧ m.objects o = some bo ∧ bo.bound = false ∧ n.addresses s % 4096 = 0 ∧
        n.addresses s + bo.size ≤ kVirtualAddressLimit := by
  subst hn
  obtain ⟨-, -, pt, -, E⟩ := N
  exact E.slot hs

/-- No buffer has been made under the next handle. -/
theorem Holding.fresh {nextHandle : Nat} {handles : Nat → Nat}
    (H : Holding id buffers handles nextHandle m) (hn : nextHandle ≠ 0) :
    m.objects (.buffer id nextHandle) = none := by
  by_contra h
  obtain ⟨bo, hbo⟩ := Option.ne_none_iff_exists'.mp h
  obtain ⟨i, hi⟩ := H.all hbo
  obtain ⟨-, -, heq, -⟩ := H.slot hi
  cases heq
  have := H.next hi
  rw [limit_of_ne hn] at this
  omega

theorem Holding.congr {nextHandle : Nat} {handles : Nat → Nat}
    (H : Holding id buffers handles nextHandle m) (h : m'.objects = m.objects) :
    Holding id buffers handles nextHandle m' :=
  ⟨fun hi => h ▸ H.slot hi, H.inj, fun hbo => H.all (h ▸ hbo), H.next, H.small⟩

/-- A handle is never used. -/
theorem Holding.skip {nextHandle : Nat} {handles : Nat → Nat}
    (H : Holding id buffers handles nextHandle m) (hn : nextHandle ≠ 0) :
    Holding id buffers handles ((nextHandle + 1) % 2 ^ 32) m := by
  refine ⟨H.slot, H.inj, H.all, fun hi => ?_, Nat.mod_lt _ (by omega)⟩
  have := H.next hi
  rw [limit_of_ne hn] at this
  rw [limit_succ hn H.small]
  omega

/-- A buffer is put into a free slot. -/
theorem Holding.insert {nextHandle slot : Nat} {handles : Nat → Nat} {bo : BufferObject Owner}
    (H : Holding id buffers handles nextHandle m)
    (M : Moves g (· = .buffer id nextHandle) m m') (hn : nextHandle ≠ 0)
    (hslot : slot < kMaxBuffers)
    (hfree : buffers slot = none) (hbo : m'.objects (.buffer id nextHandle) = some bo)
    (hs : 0 < bo.size) :
    Holding id (Function.update buffers slot (some (.buffer id nextHandle)))
      (Function.update handles slot nextHandle) ((nextHandle + 1) % 2 ^ 32) m' := by
  have hsmall := H.small
  have hlt : ∀ {i o}, buffers i = some o → i ≠ slot ∧ handles i < nextHandle := by
    intro i o hi
    exact ⟨fun h => by simp [h, hfree] at hi, limit_of_ne hn ▸ H.next hi⟩
  have hcase : ∀ {i o}, Function.update buffers slot (some (.buffer id nextHandle)) i = some o →
      i = slot ∧ o = .buffer id nextHandle ∨ i ≠ slot ∧ buffers i = some o := by
    intro i o hi
    rw [Function.update_apply] at hi
    split at hi
    · next heq => exact .inl ⟨heq, by cases hi; rfl⟩
    · next hne => exact .inr ⟨hne, hi⟩
  have hhandle : ∀ {i o}, buffers i = some o →
      Function.update handles slot nextHandle i = handles i :=
    fun hi => Function.update_of_ne (hlt hi).1 _ _
  have hobj : ∀ {i o}, buffers i = some o → o ≠ .buffer id nextHandle := by
    rintro i o hi rfl
    obtain ⟨-, -, heq, -⟩ := H.slot hi
    have := (hlt hi).2
    cases heq
    omega
  refine ⟨fun {i o} hi => ?_, fun {i j o} hi hj => ?_, fun {h bo'} hbo' => ?_, fun {i o} hi => ?_,
    Nat.mod_lt _ (by omega)⟩
  · rcases hcase hi with ⟨rfl, rfl⟩ | ⟨hne, hi⟩
    · rw [Function.update_self]
      exact ⟨hslot, hn, rfl, bo, hbo, hs⟩
    · rw [hhandle hi]
      obtain ⟨h1, h2, h3, bo', h4, h5⟩ := H.slot hi
      exact ⟨h1, h2, h3, bo', (M.objects (hobj hi)).trans h4, h5⟩
  · rcases hcase hi with ⟨hi, ho⟩ | ⟨-, hi⟩ <;> rcases hcase hj with ⟨hj, ho'⟩ | ⟨-, hj⟩
    · exact hi.trans hj.symm
    · exact absurd ho (hobj hj)
    · exact absurd ho' (hobj hi)
    · exact H.inj hi hj
  · by_cases hh : h = nextHandle
    · subst hh
      exact ⟨slot, Function.update_self ..⟩
    · obtain ⟨i, hi⟩ := H.all ((M.objects (by simpa using hh)).symm.trans hbo')
      exact ⟨i, (Function.update_of_ne (hlt hi).1 _ _).trans hi⟩
  · rw [limit_succ hn hsmall]
    rcases hcase hi with ⟨rfl, rfl⟩ | ⟨hne, hi⟩
    · rw [Function.update_self]
      omega
    · rw [hhandle hi]
      have := (hlt hi).2
      omega

/-- A buffer that is in a slot changes, but keeps its pages. -/
theorem Holding.change {nextHandle slot : Nat} {handles : Nat → Nat} {o : Owner}
    {bo : BufferObject Owner} (H : Holding id buffers handles nextHandle m) (M : Moves g K m m')
    (hK : ∀ h, Owner.buffer id h ≠ o → ¬ K (.buffer id h)) (ho : buffers slot = some o)
    (hbo : m'.objects o = some bo) (hs : 0 < bo.size) :
    Holding id buffers handles nextHandle m' := by
  refine ⟨fun {i o'} hi => ?_, H.inj, fun {h bo'} hbo' => ?_, H.next, H.small⟩
  · obtain ⟨h1, h2, rfl, bo', h4, h5⟩ := H.slot hi
    by_cases heq : Owner.buffer id (handles i) = o
    · exact ⟨h1, h2, rfl, bo, heq ▸ hbo, hs⟩
    · exact ⟨h1, h2, rfl, bo', (M.objects (hK _ heq)).trans h4, h5⟩
  · by_cases heq : Owner.buffer id h = o
    · exact ⟨slot, heq ▸ ho⟩
    · exact H.all ((M.objects (hK h heq)).symm.trans hbo')

/-- A buffer is taken out of its slot and deleted. -/
theorem Holding.remove {nextHandle slot : Nat} {handles : Nat → Nat} {o : Owner}
    (H : Holding id buffers handles nextHandle m) (M : Moves g (· = o) m m')
    (ho : buffers slot = some o) (hnone : m'.objects o = none) :
    Holding id (Function.update buffers slot none) (Function.update handles slot 0)
    nextHandle m' := by
  have hcase : ∀ {i o'}, Function.update buffers slot none i = some o' →
      i ≠ slot ∧ buffers i = some o' := by
    intro i o' hi
    rw [Function.update_apply] at hi
    split at hi
    · cases hi
    · next hne => exact ⟨hne, hi⟩
  have hhandle : ∀ {i}, i ≠ slot → Function.update handles slot 0 i = handles i :=
    fun hi => Function.update_of_ne hi _ _
  refine ⟨fun {i o'} hi => ?_, fun hi hj => H.inj (hcase hi).2 (hcase hj).2, fun {h bo} hbo => ?_,
    fun {i o'} hi => ?_, H.small⟩
  · obtain ⟨hne, hi⟩ := hcase hi
    rw [hhandle hne]
    obtain ⟨h1, h2, h3, bo, h4, h5⟩ := H.slot hi
    refine ⟨h1, h2, h3, bo, (M.objects ?_).trans h4, h5⟩
    rintro rfl
    exact hne (H.inj hi ho)
  · have hne : Owner.buffer id h ≠ o := by
      rintro rfl
      rw [hnone] at hbo
      cases hbo
    obtain ⟨i, hi⟩ := H.all ((M.objects hne).symm.trans hbo)
    refine ⟨i, (Function.update_of_ne ?_ _ _).trans hi⟩
    rintro rfl
    rw [ho] at hi
    cases hi
    exact hne rfl
  · obtain ⟨hne, hi⟩ := hcase hi
    rw [hhandle hne]
    exact H.next hi

/-- The window of a slot is blanked. -/
theorem Exact.unmap {addresses : Nat → Nat} {pt pt' : PageTables Owner} {slot : Nat} {o : Owner}
    (E : Exact buffers addresses m pt) (hne : addresses slot ≠ 0) (ho : buffers slot = some o)
    (hobj : m'.objects = m.objects) (hpages : ∀ o, m'.pages o = m.pages o)
    (hs : pt'.scratchPage = pt.scratchPage)
    (ht : ∀ a, a < 2 ^ 48 → pt'.translate a =
      if addresses slot ≤ a ∧
        a < addresses slot + m.size o then pt.scratchPage else pt.translate a) :
    Exact buffers (Function.update addresses slot 0) m' pt' := by
  have hsize : ∀ o, m'.size o = m.size o := fun o => by rw [Memory.size, Memory.size, hobj]
  have hcase : ∀ {t}, Function.update addresses slot 0 t ≠ 0 → t ≠ slot ∧ addresses t ≠ 0 ∧
      Function.update addresses slot 0 t = addresses t := by
    intro t h
    rw [Function.update_apply] at h ⊢
    split at h
    · exact absurd rfl h
    · next hts => exact ⟨hts, h, if_neg hts⟩
  have hw : ∀ {t a}, InWindow buffers (Function.update addresses slot 0) m' t a →
      t ≠ slot ∧ InWindow buffers addresses m t a := by
    rintro t a ⟨hne', o', ho', h1, h2⟩
    obtain ⟨hts, hnet, heq⟩ := hcase hne'
    rw [heq] at h1 h2
    rw [hsize] at h2
    exact ⟨hts, hnet, o', ho', h1, h2⟩
  refine ⟨fun {t} hne' => ?_, fun h h' => E.apart (hw h).2 (hw h').2,
    fun {t o' a} hne' ho' h1 h2 => ?_, fun {a} ha hn => ?_⟩
  · obtain ⟨-, hnet, heq⟩ := hcase hne'
    rw [heq, hobj]
    exact E.slot hnet
  · obtain ⟨hts, hnet, heq⟩ := hcase hne'
    rw [heq] at h1 h2 ⊢
    rw [hsize] at h2
    obtain ⟨o'', bo, ho'', hbo, -, -, hlimit⟩ := E.slot hnet
    have hlt : a < 2 ^ 48 := by
      cases ho'.symm.trans ho''
      simp only [Memory.size, hbo] at h2
      unfold kVirtualAddressLimit at hlimit
      omega
    rw [hpages, ht a hlt, if_neg]
    · exact E.shown hnet ho' h1 h2
    · rintro ⟨h3, h4⟩
      exact hts (E.apart ⟨hnet, o', ho', h1, h2⟩ ⟨hne, o, ho, h3, h4⟩)
  · rw [ht a ha, hs]
    split
    · rfl
    · next hout =>
      refine E.blank ha fun t h => ?_
      by_cases hts : t = slot
      · subst hts
        obtain ⟨-, o', ho', h1, h2⟩ := h
        cases ho.symm.trans ho'
        exact hout ⟨h1, h2⟩
      · obtain ⟨hnet, o', ho', h1, h2⟩ := h
        refine hn t ⟨?_, o', ho', ?_, ?_⟩ <;> rw [Function.update_of_ne hts]
        · exact hnet
        · exact h1
        · rwa [hsize]

/-- What concerns none of the owners that were made for a client does not concern the client. -/
theorem RenderClient.Inv.frame {c : RenderClient} (C : c.Inv m) (H : m.Inv g₀) (M : Moves g K m m')
    (hK : ∀ o, o.client = some c.id → ¬ K o) : c.Inv m' where
  holding := C.holding.frame M fun h => hK _ rfl
  equipped := C.equipped.frame M (fun e p => hK _ rfl) fun e => by rw [M.tables (hK _ rfl)]
  native := C.native.frame H M (hK _ rfl) (fun k o ho => hK _ (ContextId.Owns.client ho))
    (fun _ _ _ _ => rfl) fun n s o _ _ ho => by
      obtain ⟨-, -, rfl, -⟩ := C.holding.slot ho
      exact hK _ rfl

end frames

end IntelGfx
