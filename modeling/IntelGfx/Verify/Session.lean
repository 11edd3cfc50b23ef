import IntelGfx.Verify.Accounts
import IntelGfx.Verify.Engines

/-!
# The invariant of a client at work

`Session.Inv` adds to the invariants of a client that its engines have a scheduler and show every
buffer of the client that is bound in the global GTT. `Keeps` says what an operation of the client
does, whether it succeeds or not: it keeps the invariant, touches nothing but what was made for the
client, and gives out no handle and no id a second time.
-/

namespace IntelGfx
open Memory RenderEngine

/-- The page tables show a buffer where it is bound in the global GTT. -/
structure Memory.Shows (m : Memory) (pt : PageTables Owner) (o : Owner) : Prop where
  limit : m.graphicsAddress o + m.size o ≤ 2 ^ 48
  entered : ∀ {x}, Range (m.graphicsAddress o) (m.size o) x →
    Entered (m.graphicsAddress o) (m.pages o) x (pt.translate x)

/-- A buffer is still shown if what has changed in its place is a page of its own. -/
theorem Memory.Shows.change {m m' : Memory} {pt pt' : PageTables Owner} {o : Owner}
    {P : Nat → Nat → Prop} (S : m.Shows pt o) (hobj : m'.objects o = m.objects o)
    (hpages : m'.pages o = m.pages o)
    (htr : ∀ x, x < 2 ^ 48 → pt'.translate x = pt.translate x ∨ P x (pt'.translate x))
    (hP : ∀ x p, Range (m.graphicsAddress o) (m.size o) x → P x p →
      Entered (m.graphicsAddress o) (m.pages o) x p) : m'.Shows pt' o := by
  have hsize : m'.size o = m.size o := by rw [Memory.size, Memory.size, hobj]
  have haddr : m'.graphicsAddress o = m.graphicsAddress o := by
    rw [Memory.graphicsAddress, Memory.graphicsAddress, hobj]
  have hlimit := S.limit
  refine ⟨by rwa [hsize, haddr], fun {x} hx => ?_⟩
  rw [hsize, haddr] at hx
  rw [haddr, hpages]
  have h48 : x < 2 ^ 48 := by
    have := hx.2
    omega
  rcases htr x h48 with h | h
  · rw [h]
    exact S.entered hx
  · exact hP x _ hx h

/-- Contexts stay what they are, but they run and may fault. -/
def Aged (f f' : EngineId → Option RenderEngine) : Prop :=
  ∀ e, (f e = none → f' e = none) ∧ ∀ x, f e = some x → ∃ x', f' e = some x' ∧
    x' = { x with faulted := x'.faulted, nextSeqno := x'.nextSeqno } ∧
    (x.faulted = true → x'.faulted = true)

namespace Aged
variable {f f' f'' : EngineId → Option RenderEngine}

theorem rfl : Aged f f := fun _ => ⟨id, fun x hx => ⟨x, hx, Eq.refl _, id⟩⟩

theorem trans (h : Aged f f') (h' : Aged f' f'') : Aged f f'' := by
  intro e
  refine ⟨fun hn => (h' e).1 ((h e).1 hn), fun x hx => ?_⟩
  obtain ⟨x', hx', heq, hf⟩ := (h e).2 x hx
  obtain ⟨x'', hx'', heq', hf'⟩ := (h' e).2 x' hx'
  exact ⟨x'', hx'', by rw [heq', heq], fun h => hf' (hf h)⟩

/-- What a context was before. -/
theorem back (h : Aged f f') {e : EngineId} {x' : RenderEngine} (hx' : f' e = some x') :
    ∃ x, f e = some x ∧ x' = { x with faulted := x'.faulted, nextSeqno := x'.nextSeqno } ∧
      (x.faulted = true → x'.faulted = true) := by
  cases hx : f e with
  | none => exact nomatch ((h e).1 hx).symm.trans hx'
  | some x =>
    obtain ⟨x₁, hx₁, heq, hf⟩ := (h e).2 x hx
    cases hx₁.symm.trans hx'
    exact ⟨x, Eq.refl _, heq, hf⟩

end Aged

/-- The schedulers there were are still there, and do not recover from a fault. -/
def Older (masters masters' : Masters) : Prop := ∀ e y, masters e = some y →
  ∃ y', masters' e = some y' ∧ (y.faulted = true → y'.faulted = true)

namespace Older
variable {masters masters' : Masters}

theorem rfl : Older masters masters := fun _ y hy => ⟨y, hy, id⟩

/-- A context that is ready has been so before. -/
theorem isReady (hm : Older masters masters') {x x' : RenderEngine}
    (heq : x' = { x with faulted := x'.faulted, nextSeqno := x'.nextSeqno })
    (hf : x.faulted = true → x'.faulted = true) (hr : x'.isReady masters' = true) :
    x.isReady masters = true := by
  have hready : x'.ready = x.ready := by rw [heq]
  have hengine : x'.engine = x.engine := by rw [heq]
  simp only [RenderEngine.isReady, Bool.and_eq_true, Bool.not_eq_true'] at hr ⊢
  obtain ⟨⟨h1, h2⟩, h3⟩ := hr
  refine ⟨⟨hready ▸ h1, Bool.eq_false_iff.mpr fun h => ?_⟩, Bool.eq_false_iff.mpr fun h => ?_⟩
  · rw [hf h] at h2
    cases h2
  · obtain ⟨y, hy, hyf⟩ := (Option.any_eq_true _ _).mp h
    obtain ⟨y', hy', hyf'⟩ := hm x.engine y hy
    simp [schedulerFaulted, hengine, hy', hyf' hyf] at h3

end Older

theorem Aged.older {masters masters' : Masters} (h : Aged masters masters') :
    Older masters masters' := by
  intro e y hy
  obtain ⟨y', hy', -, hf⟩ := (h e).2 y hy
  exact ⟨y', hy', hf⟩

namespace Session
variable {ω : Oracle} {g : GlobalGTT} {s s' s'' : Session} {r : Except Error Reply}
  {K : Owner → Prop}

theorem find_some {handle slot : Nat} {o : Owner} (h : s.find handle = some (slot, o)) :
    slot < kMaxBuffers ∧ s.client.handles slot = handle ∧ s.client.buffers slot = some o := by
  obtain ⟨i, hi, h⟩ := List.exists_of_findSome?_eq_some h
  split at h
  · next heq =>
    obtain ⟨o', ho', h⟩ := Option.map_eq_some_iff.mp h
    cases h
    exact ⟨List.mem_range.mp hi, heq, ho'⟩
  · cases h

/-- The engines of a client and its native state have a scheduler, and it knows of their faults. -/
structure Scheduled (s : Session) : Prop where
  engine : ∀ {e x}, s.client.engines e = some x →
    ∃ y, s.masters e = some y ∧ (x.faulted = true → y.faulted = true)
  render : s.client.nativeRender = true → ∃ x, s.client.engines .render = some x
  native : ∀ {n}, s.client.native = some n →
    ∃ y, s.masters .render = some y ∧ (n.faulted = true → y.faulted = true)

/-- The engines of the client that are ready show the buffers that are bound. -/
structure Shown (s : Session) : Prop where
  shows : ∀ {e x i o}, s.client.engines e = some x → x.isReady s.masters = true →
    s.client.buffers i = some o → s.mem.isBound o = true →
    ∃ pt, s.mem.tables x.addressSpace = some pt ∧ s.mem.Shows pt o

/-- The engines still show what they have shown, and they show what is new. -/
theorem Shown.change {P : Owner → Nat → Nat → Nat → Prop} (S : s.Shown)
    (hT : Retabled P s.mem s'.mem) (he : Aged s.client.engines s'.client.engines)
    (hm : Aged s.masters s'.masters)
    (hnew : ∀ {e x i o}, s'.client.engines e = some x → x.isReady s'.masters = true →
      s'.client.buffers i = some o → s'.mem.isBound o = true →
      (∃ pt, s'.mem.tables x.addressSpace = some pt ∧ s'.mem.Shows pt o) ∨
        s'.mem.objects o = s.mem.objects o ∧ s'.mem.pages o = s.mem.pages o ∧
        (∃ j, s.client.buffers j = some o) ∧
        ∀ a t p, Range (s.mem.graphicsAddress o) (s.mem.size o) a → P x.addressSpace a t p →
          Entered (s.mem.graphicsAddress o) (s.mem.pages o) a p) : s'.Shown where
  shows := fun {e x' i o} hx' hr ho hb => by
    rcases hnew hx' hr ho hb with h | ⟨hobj, hpages, ⟨j, hj⟩, hP⟩
    · exact h
    obtain ⟨x, hx, heq, hf⟩ := he.back hx'
    have hspace : x'.addressSpace = x.addressSpace := by rw [heq]
    have hb' : s.mem.isBound o = true := by rwa [isBound, hobj] at hb
    obtain ⟨pt, hpt, hshows⟩ := S.shows hx (hm.older.isReady heq hf hr) hj hb'
    obtain ⟨pt', hpt', -, htr⟩ := (hT _).2 pt hpt
    rw [hspace] at hP ⊢
    exact ⟨pt', hpt', hshows.change hobj hpages htr fun a p ha => hP a _ p ha⟩

/-- What holds in every state of a client that a run can reach. -/
structure Inv (g : GlobalGTT) (s : Session) : Prop where
  mem : s.mem.Inv g
  client : s.client.Inv s.mem
  accounts : Accounts s.client s.mem
  scheduled : s.Scheduled
  shown : s.Shown

/-- What was made for the client. -/
abbrev Mine (s : Session) (o : Owner) : Prop := o.client = some s.client.id

/-- What others do does not concern the client. -/
theorem Inv.frame {g₀ : GlobalGTT} (I : s.Inv g₀) (hc : s'.client = s.client)
    (hm : Older s.masters s'.masters) (M : Moves g K s.mem s'.mem) (hK : ∀ o, s.Mine o →
    ¬ K o) : s'.Inv g := by
  have hmine : ∀ {i o}, s.client.buffers i = some o → s.Mine o := by
    intro i o ho
    obtain ⟨-, -, rfl, -⟩ := I.client.holding.slot ho
    rfl
  refine ⟨M.inv, hc ▸ I.client.frame I.mem M hK, ?_, ?_, ?_⟩
  · rw [hc]
    exact I.accounts.congr rfl rfl rfl rfl fun i o ho => M.objects (hK o (hmine ho))
  · refine ⟨fun {e x} hx => ?_, fun h => ?_, fun {n} hn => ?_⟩
    · obtain ⟨y, hy, hf⟩ := I.scheduled.engine (hc ▸ hx)
      obtain ⟨y', hy', hf'⟩ := hm e y hy
      exact ⟨y', hy', fun h => hf' (hf h)⟩
    · rw [hc] at h ⊢
      exact I.scheduled.render h
    · obtain ⟨y, hy, hf⟩ := I.scheduled.native (hc ▸ hn)
      obtain ⟨y', hy', hf'⟩ := hm .render y hy
      exact ⟨y', hy', fun h => hf' (hf h)⟩
  · refine ⟨fun {e x i o} hx hr ho hb => ?_⟩
    rw [hc] at hx ho
    have hmem := hK o (hmine ho)
    rw [isBound, M.objects hmem] at hb
    obtain ⟨pt, hpt, S⟩ := I.shown.shows hx (hm.isReady rfl id hr) ho hb
    obtain ⟨hid, -, hspace, -⟩ := I.client.equipped.engine hx
    refine ⟨pt, (M.tables (hK _ ?_)).trans hpt, S.change (P := fun _ _ => False) (M.objects hmem)
      (M.pages I.mem hmem) (fun _ _ => .inl rfl) fun _ _ _ => False.elim⟩
    rw [hspace, hid]
    rfl

/-- What an operation of the client keeps, and what it may change. -/
structure Keeps (g : GlobalGTT) (s s' : Session) : Prop where
  inv : s'.Inv g
  id : s'.client.id = s.client.id
  moves : Moves g s.Mine s.mem s'.mem
  engines : Aged s.client.engines s'.client.engines
  masters : Aged s.masters s'.masters
  advances : Advances s.client s'.client

theorem Keeps.trans (h : Keeps g s s') (h' : Keeps g s' s'') : Keeps g s s'' :=
  ⟨h'.inv, h'.id.trans h.id,
    h.moves.trans (h'.moves.mono fun _ ho => ho.trans (congrArg some h.id)),
    h.engines.trans h'.engines, h.masters.trans h'.masters, h.advances.trans h'.advances⟩

/-- The native state of a client after an operation that faults nothing. -/
def Unfaulted (s s' : Session) : Prop := ∀ n', s'.client.native = some n' →
  (∃ n, s.client.native = some n ∧ n'.faulted = n.faulted) ∨
    n'.faulted = false ∧ s.client.nativeRender = true

theorem Unfaulted.of_eq (h : s'.client.native = s.client.native) : Unfaulted s s' :=
  fun n' hn' => .inl ⟨n', h ▸ hn', rfl⟩

theorem Scheduled.steady (S : s.Scheduled) (hn : Unfaulted s s')
    (he : s'.client.engines = s.client.engines) (hm : s'.masters = s.masters)
    (hr : s'.client.nativeRender = s.client.nativeRender) : s'.Scheduled := by
  refine ⟨fun hx => ?_, fun h => ?_, fun {n'} hn' => ?_⟩
  · rw [hm]
    exact S.engine (he ▸ hx)
  · rw [he]
    exact S.render (hr ▸ h)
  · rw [hm]
    rcases hn n' hn' with ⟨n, h, hf⟩ | ⟨hf, hr⟩
    · rw [hf]
      exact S.native h
    · obtain ⟨x, hx⟩ := S.render hr
      obtain ⟨y, hy, -⟩ := S.engine hx
      exact ⟨y, hy, fun h => by simp [hf] at h⟩

/-- An operation that concerns neither the engines nor the masters. -/
theorem Inv.keeps (I : s.Inv g) (M : Moves g s.Mine s.mem s'.mem) (C : s'.client.Inv s'.mem)
    (A : Accounts s'.client s'.mem) (S : s'.Shown) (D : Advances s.client s'.client)
    (hn : Unfaulted s s')
    (hid : s'.client.id = s.client.id) (he : s'.client.engines = s.client.engines)
    (hm : s'.masters = s.masters) (hr : s'.client.nativeRender = s.client.nativeRender) :
    Keeps g s s' :=
  ⟨⟨M.inv, C, A, I.scheduled.steady hn he hm hr, S⟩, hid, M, he ▸ .rfl, hm ▸ .rfl, D⟩

/-! ## Calls -/

/-- What the client and the masters have, stays; only calls were made. -/
structure Idle (s s' : Session) : Prop where
  client : s'.client = s.client
  masters : s'.masters = s.masters
  mem : s.mem.Idle s'.mem

namespace Idle

theorem rfl : Idle s s := ⟨Eq.refl _, Eq.refl _, .rfl⟩

theorem trans (h : Idle s s') (h' : Idle s' s'') : Idle s s'' :=
  ⟨h'.client.trans h.client, h'.masters.trans h.masters, h.mem.trans h'.mem⟩

theorem keeps (h : Idle s s') (I : s.Inv g) : Keeps g s s' := by
  have M : Moves g (fun _ => False) s.mem s'.mem := h.mem.moves I.mem
  have hm : Aged s.masters s'.masters := h.masters ▸ .rfl
  refine ⟨I.frame h.client hm.older M fun _ _ => id, by rw [h.client], M.mono nofun, ?_, hm, ?_⟩
  · rw [h.client]
    exact .rfl
  · rw [h.client]
    exact .rfl

end Idle

theorem idle_setMem {m : Memory} (h : s.mem.Idle m) : Idle s (s.setMem m) := ⟨rfl, rfl, h⟩

theorem reply_idle {x : Reply} (h : s.reply ω x = (r, s')) : Idle s s' := by
  unfold reply at h
  split at h <;>
  · next hm =>
    cases h
    exact idle_setMem (userMemcpy_idle hm)

theorem done_idle {m : Memory} {status : Except Error Unit} (hm : s.mem.Idle m)
    (h : s.done (status, m) = (r, s')) : Idle s s' := by
  unfold done at h
  split at h <;>
  · next heq =>
    cases h
    cases heq
    exact idle_setMem hm

theorem readRequest_idle {header : Header} {size : Nat} {r : Except Error Unit}
    (h : s.readRequest ω header size = (r, s')) : Idle s s' := by
  unfold readRequest at h
  split at h
  · cases h
    exact .rfl
  split at h
  · next hm =>
    cases h
    exact idle_setMem (userMemcpy_idle hm)
  · next hm =>
    split at h <;>
    · cases h
      exact idle_setMem (userMemcpy_idle hm)

end Session
end IntelGfx
