import IntelGfx.Verify.Isolation
import IntelGfx.Verify.Quarantine
import IntelGfx.Verify.TableBudget

/-!
# What a hung context can reach

A context that has not finished in time may go on reading and writing whatever its page tables show
it, and its own objects. What a context of the native interface can reach stays, whoever does
whatever. What a context of the legacy interface can reach stays as long as no `kCloseBuffer` and no
`kUnbindBuffer` names it (`exec_retained_iff`): a fault of the legacy interface does not close the
gate of `Ioctl`.
-/

namespace IntelGfx
open Memory RenderEngine

namespace Memory
variable {ω : Oracle} {g : GlobalGTT} {m m' m'' : Memory} {K : Owner → Prop} {o o' : Owner}

/-- The context can reach what belongs to `o`: its own buffer objects, which its descriptor leads
to, its page tables, and whatever else is there that its page tables show a page of. -/
def Reaches (m : Memory) (x : RenderEngine) (o : Owner) : Prop :=
  (∃ p, o = .part x.id p) ∨ o = x.addressSpace ∨
    ¬ m.Gone o ∧ ∃ pt a b pages, m.tables x.addressSpace = some pt ∧ a < 2 ^ 48 ∧
      m.os.find b = some ⟨o, pages⟩ ∧ pt.translate a ∈ pages

/-- The memory of `o` is not freed, and a buffer object stays where it is bound. -/
structure Retains (o : Owner) (m m' : Memory) : Prop where
  object : ∀ {bo}, m.objects o = some bo → ∃ bo', m'.objects o = some bo' ∧ bo'.area = bo.area ∧
    (bo.bound = true → bo' = bo)
  tables : m.tables o ≠ none → m'.tables o ≠ none
  area : ¬ m.Gone o → ∀ {a pages},
    m.os.find a = some ⟨o, pages⟩ → m'.os.find a = some ⟨o, pages⟩

/-- The memory of `o` is not freed, and the global GTT goes on showing it where it is bound. -/
def Retained (o : Owner) (m m' : Memory) : Prop := Retains o m m' ∧ ∀ bo, m.objects o = some bo →
  bo.bound = true → ∃ first, bo.graphicsAddress = (m'.gtt.firstPage + first) * 4096 ∧
    m'.gtt.Maps first (m.pages o)

namespace Retains

theorem rfl : Retains o m m := ⟨fun h => ⟨_, h, Eq.refl _, fun _ => Eq.refl _⟩, id, fun _ _ _ => id⟩

theorem not_gone (h : Retains o m m') (hm : ¬ m.Gone o) : ¬ m'.Gone o := by
  rintro ⟨hobj, ht⟩
  refine hm ⟨?_, ?_⟩
  · by_contra hne
    obtain ⟨bo, hbo⟩ := Option.ne_none_iff_exists'.mp hne
    obtain ⟨bo', hbo', -⟩ := h.object hbo
    cases hobj.symm.trans hbo'
  · by_contra hne
    exact h.tables hne ht

theorem trans (h : Retains o m m') (h' : Retains o m' m'') : Retains o m m'' where
  object hbo := by
    obtain ⟨bo', hbo', harea, hbound⟩ := h.object hbo
    obtain ⟨bo'', hbo'', harea', hbound'⟩ := h'.object hbo'
    refine ⟨bo'', hbo'', harea'.trans harea, fun hb => ?_⟩
    obtain rfl := hbound hb
    exact hbound' hb
  tables ht := h'.tables (h.tables ht)
  area hthere _ _ hfind := h'.area (h.not_gone hthere) (h.area hthere hfind)

/-- What an operation does not touch. -/
theorem of_leaves (h : Leaves K m m') (ho : ¬ K o) : Retains o m m' where
  object hbo := ⟨_, (h.objects ho).trans hbo, Eq.refl _, fun _ => Eq.refl _⟩
  tables ht := (h.tables ho).symm ▸ ht
  area _ _ _ hfind := h.os.kept hfind ho

theorem of_moves (M : Moves g K m m') (ho : ¬ K o) : Retains o m m' :=
  of_leaves (M.leaves fun _ => id) ho

/-- What has not been there. -/
theorem of_gone (h : m.Gone o) : Retains o m m' where
  object hbo := nomatch h.object.symm.trans hbo
  tables ht := absurd h.tables ht
  area hthere := absurd h hthere

/-- Calls change nothing that could be retained. -/
theorem of_idle (h : Retains o m m') (J : m.Idle m'') : Retains o m'' m' where
  object hbo := h.object ((congrFun J.objects o).symm.trans hbo)
  tables ht := h.tables (by rwa [← J.tables])
  area hthere _ _ hfind := by
    refine h.area (fun hgone => hthere ⟨?_, ?_⟩) (J.os.find.symm.trans hfind)
    · rw [J.objects, hgone.object]
    · rw [J.tables, hgone.tables]

theorem retained {g' : GlobalGTT} (h : Retains o m m') (H : m.Inv g) (H' : m'.Inv g') :
    Retained o m m' := by
  refine ⟨h, fun bo hbo hbound => ?_⟩
  obtain ⟨bo', hbo', -, heq⟩ := h.object hbo
  obtain rfl := heq hbound
  obtain ⟨-, a, ha, har⟩ := H.size_eq hbo
  obtain ⟨first, haddr, -, hmaps⟩ := H'.bound_at hbo' hbound
  have hthere : ¬ m.Gone o := fun hgone => nomatch hgone.object.symm.trans hbo
  have hpages : m'.pages o = m.pages o := pages_eq hbo' ha (h.area hthere har)
  exact ⟨first, haddr, hpages ▸ hmaps⟩

end Retains

/-- Nothing but page tables has changed, and nothing has been freed. -/
structure Grows (m m' : Memory) : Prop where
  objects : m'.objects = m.objects
  os : Os.Keeps m.os m'.os
  tables : ∀ {o}, m.tables o ≠ none → m'.tables o ≠ none

namespace Grows

theorem rfl : Grows m m := ⟨Eq.refl _, id, id⟩

theorem trans (h : Grows m m') (h' : Grows m' m'') : Grows m m'' :=
  ⟨h'.objects.trans h.objects, fun ha => h'.os (h.os ha), fun ht => h'.tables (h.tables ht)⟩

theorem of_idle (h : m.Idle m') : Grows m m' :=
  ⟨h.objects, fun ha => h.os.find.trans ha, fun ht => by rwa [h.tables]⟩

theorem of_update {pt : PageTables Owner} (hobj : m'.objects = m.objects)
    (K : Os.Keeps m.os m'.os) (ht : m'.tables = Function.update m.tables o (some pt)) :
    Grows m m' := by
  refine ⟨hobj, K, fun {o'} ho' => ?_⟩
  rw [ht, Function.update_apply]
  split
  · exact Option.some_ne_none pt
  · exact ho'

theorem retains (h : Grows m m') : Retains o m m' :=
  ⟨fun hbo => ⟨_, (congrFun h.objects o).trans hbo, Eq.refl _, fun _ => Eq.refl _⟩, h.tables,
    fun _ _ _ => h.os⟩

end Grows

theorem map_grows {area : Option Nat} {b address done : Nat} {ar : Area Owner}
    {r : Except Error Unit} (H : m.Inv g) (hb : area = some b) (har : m.os.find b = some ar)
    (h : m.map ω o area address = (r, done, m')) : Grows m m' := by
  cases hpt : m.tables o with
  | none =>
    unfold map at h
    rw [hpt] at h
    cases h
    exact .rfl
  | some pt =>
    obtain ⟨-, -, nodes, R⟩ := H.tables hpt
    obtain ⟨-, hobj, -, hmapped⟩ := map_spec H h
    obtain ⟨pt', nodes', ht, M⟩ := hmapped pt nodes b ar hpt R hb har
    exact .of_update hobj M.grown.keeps ht

theorem mapPhysical_grows {address physical size : Nat} {r : Except Error Unit} (H : m.Inv g)
    (h : m.mapPhysical ω o address physical size = (r, m')) : Grows m m' := by
  cases hpt : m.tables o with
  | none =>
    unfold mapPhysical at h
    rw [hpt] at h
    cases h
    exact .rfl
  | some pt =>
    obtain ⟨-, -, nodes, R⟩ := H.tables hpt
    obtain ⟨-, hobj, -, hmapped⟩ := mapPhysical_spec H h
    obtain ⟨done, pt', nodes', ht, M⟩ := hmapped pt nodes hpt R
    exact .of_update hobj M.grown.keeps ht

theorem unmap_grows {address size : Nat} {r : Except Error Unit} (H : m.Inv g)
    (h : m.unmap ω o address size = (r, m')) : Grows m m' := by
  cases hpt : m.tables o with
  | none =>
    unfold unmap at h
    rw [hpt] at h
    cases h
    exact .rfl
  | some pt =>
    obtain ⟨-, hobj, hmachine, hunmapped⟩ := unmap_spec H h
    obtain ⟨pt', ht, -⟩ := hunmapped pt hpt
    refine .of_update hobj (fun ha => ?_) ht
    rwa [Memory.os, hmachine]

theorem submit_grows {e e' : RenderEngine} {masters masters' : Masters} {address length : Nat}
    {status : Except Error Nat} (H : m.Inv g)
    (h : e.submit ω masters m address length = (status, e', masters', m')) : Grows m m' := by
  obtain ⟨-, hobj, -, S, ht | ⟨pt, hpt, ht⟩, -⟩ := submit_spec H h
  · exact ⟨hobj, fun ha => S.find.trans ha, fun hne => by rwa [ht]⟩
  · exact .of_update hobj (fun ha => S.find.trans ha) ht

end Memory

namespace Session
variable {ω : Oracle} {g : GlobalGTT} {m m' : Memory} {s s' : Session} {r : Except Error Reply}
  {engines : List RenderEngine} {n : NativeState} {o : Owner}

/-! ## The loops over the engines -/

theorem unmapEngines_grows (ω : Oracle) (engines : List RenderEngine) (address size : Nat)
    (H : m.Inv g) : Grows m (unmapEngines ω address size engines m) := by
  induction engines generalizing m with
  | nil => exact .rfl
  | cons e engines ih =>
    rw [unmapEngines]
    generalize hu : e.unmapBuffer ω m address size = res
    obtain ⟨r₁, m₁⟩ := res
    obtain ⟨M₁, -⟩ := unmapBuffer_spec H hu
    refine Grows.trans ?_ (ih M₁.inv)
    unfold unmapBuffer at hu
    split at hu
    · cases hu
      exact .rfl
    · exact unmap_grows H hu

theorem mapEngines_grows {area : Option Nat} {b address done : Nat} {ar : Area Owner}
    {r : Except Error Unit} (H : m.Inv g) (hb : area = some b) (har : m.os.find b = some ar)
    (h : mapEngines ω area address engines m = (r, done, m')) : Grows m m' := by
  induction engines generalizing m done with
  | nil =>
    cases h
    exact .rfl
  | cons e engines ih =>
    unfold mapEngines at h
    generalize hm : e.mapBuffer ω m area address = res at h
    obtain ⟨r₁, done₁, m₁⟩ := res
    have h₁ : m₁.Inv g ∧ Grows m m₁ := by
      unfold mapBuffer at hm
      split at hm
      · cases hm
        exact ⟨H, .rfl⟩
      · exact ⟨(map_spec H hm).1.inv, map_grows H hb har hm⟩
    cases r₁ with
    | error e =>
      cases h
      exact h₁.2
    | ok u =>
      cases h
      exact h₁.2.trans (ih h₁.1 (h₁.2.os har) rfl)

theorem mapGlobalPages_grows {e : RenderEngine} {count page : Nat} {r : Except Error Unit}
    (H : m.Inv g) (h : mapGlobalPages ω e count page m = (r, m')) :
    m'.Inv g ∧ Grows m m' := by
  induction count generalizing m page with
  | zero =>
    cases h
    exact ⟨H, .rfl⟩
  | succ count ih =>
    unfold mapGlobalPages at h
    split at h
    · cases h
      exact ⟨H, .rfl⟩
    split at h
    · next hm =>
      cases h
      exact ⟨(mapPhysical_spec H hm).1.inv, mapPhysical_grows H hm⟩
    · next hm =>
      obtain ⟨H', G⟩ := ih (mapPhysical_spec H hm).1.inv h
      exact ⟨H', (mapPhysical_grows H hm).trans G⟩

theorem mapGlobalRanges_grows {address size : Nat} {r : Except Error Unit} (H : m.Inv g)
    (h : mapGlobalRanges ω address size engines m = (r, m')) : Grows m m' := by
  induction engines generalizing m with
  | nil =>
    cases h
    exact .rfl
  | cons e engines ih =>
    unfold mapGlobalRanges at h
    generalize hm : e.mapGlobalRange ω m address size = res at h
    obtain ⟨r₁, m₁⟩ := res
    have h₁ : m₁.Inv g ∧ Grows m m₁ := by
      unfold mapGlobalRange at hm
      split at hm
      · cases hm
        exact ⟨H, .rfl⟩
      · exact mapGlobalPages_grows H hm
    cases r₁ with
    | error e =>
      cases h
      exact h₁.2
    | ok u => exact h₁.2.trans (ih h₁.1 h)

/-! ## The requests -/

/-- The request frees the memory of `o`, or takes it from its place in the global GTT, once it has
been read. -/
def Frees (s : Session) : Request → Owner → Prop
  | .closeBuffer handle reserved, o =>
    reserved = 0 ∧ handle ≠ 0 ∧ ∃ slot, s.find handle = some (slot, o)
  | .unbindBuffer handle reserved, o => reserved = 0 ∧ handle ≠ 0 ∧
    (∃ slot, s.find handle = some (slot, o)) ∧ s.mem.isBound o = true
  | .destroyContext context reserved, o => reserved = 0 ∧ context ≠ 0 ∧
    ∃ n slot x, s.client.native = some n ∧ n.ids slot = context ∧ n.contexts slot = some x ∧
      x.id.Owns o
  | _, _ => False

/-- It does, and it gets past the gate and is read. -/
def Takes (ω : Oracle) (s : Session) (header : Header) (request : Request) (o : Owner) : Prop :=
  s.client.native.any (·.faulted) = false ∧
    (request.isNative = true → s.client.nativeRender = true) ∧
    (s.readRequest ω header request.sizeof).1 = .ok () ∧ s.Frees request o

theorem Frees.passesGate {request : Request} (h : s.Frees request o) :
    Session.passesGate request = false := by
  cases request <;> first | rfl | exact h.elim

theorem find_congr (h : s'.client = s.client) (handle : Nat) : s'.find handle = s.find handle := by
  rw [find, find, h]

theorem Idle.frees {request : Request} (h : Idle s s') :
    s'.Frees request o ↔ s.Frees request o := by
  cases request <;>
    simp only [Frees, find_congr h.client, h.client, isBound, h.mem.objects]

theorem Idle.retains (h : Idle s s') : Retains o s.mem s'.mem := (Grows.of_idle h.mem).retains

theorem createBuffer_retains {size flags reserved : Nat} (I : s.Inv g)
    (h : s.createBuffer ω size flags reserved = (r, s')) : Retains o s.mem s'.mem := by
  rcases createBuffer_cases h with ⟨-, hidle⟩ | ⟨slot, m₁, r₁, m₂, hn, -, -, -, -, -, I₁, hm₂, h⟩
  · exact hidle.retains
  have M₁ : Moves g (· = .buffer s.client.id s.client.nextHandle) s.mem m₁ := I₁.moves I.mem
  have hnone := I.client.holding.fresh hn
  obtain ⟨M₂, -⟩ := newObject_spec M₁.inv (Owner.isObject_buffer _ _)
    ((congrFun I₁.objects _).trans hnone) (pageRound_mod size) hm₂
  have M₂ := M₁.trans M₂
  by_cases ho : o = .buffer s.client.id s.client.nextHandle
  · -- there has been no such buffer
    exact .of_gone (ho ▸ .of_object I.mem (Owner.isObject_buffer _ _) hnone)
  rcases h with ⟨-, rfl⟩ | ⟨-, m₃, I₃, ⟨-, rfl⟩ | ⟨-, rfl⟩⟩
  · exact .of_moves M₂ ho
  · have M₃ := M₂.trans (I₃.moves M₂.inv)
    exact .of_moves (M₃.trans (deleteObject_spec M₃.inv _).1) ho
  · exact .of_moves (M₂.trans (I₃.moves M₂.inv)) ho

theorem unmapVirtual_grows {slot : Nat} {buffer : Owner} {q : Except Error Unit} (H : s.mem.Inv g)
    (h : s.unmapVirtual ω slot buffer = (q, s')) : s'.mem.Inv g ∧ Grows s.mem s'.mem := by
  unfold unmapVirtual at h
  split at h
  · cases h
    exact ⟨H, .rfl⟩
  split at h
  · cases h
    exact ⟨H, .rfl⟩
  split at h
  · next hu =>
    cases h
    exact ⟨(unmap_spec H hu).1.inv, unmap_grows H hu⟩
  · next hu =>
    cases h
    exact ⟨(unmap_spec H hu).1.inv, unmap_grows H hu⟩

theorem leaveEngines_grows (ω : Oracle) (H : s.mem.Inv g) (buffer : Owner) :
    Grows s.mem (s.leaveEngines ω buffer).mem := by
  unfold leaveEngines
  split
  · exact unmapEngines_grows ω _ _ _ H
  · exact .rfl

theorem closeBuffer_retains {handle reserved : Nat} (I : s.Inv g)
    (ho : ¬ s.Frees (.closeBuffer handle reserved) o)
    (h : s.closeBuffer ω handle reserved = (r, s')) : Retains o s.mem s'.mem := by
  by_cases hbad : reserved ≠ 0 ∨ handle = 0
  · rw [closeBuffer, if_pos hbad] at h
    cases h
    exact .rfl
  obtain ⟨hreserved, hhandle⟩ := not_or.mp hbad
  rcases closeBuffer_cases h with ⟨-, rfl⟩ | ⟨slot, buffer, r₁, s₁, hfind, hu, h⟩
  · exact .rfl
  obtain ⟨-, -, M₁, -⟩ := leaveEngines_spec ω I.mem I.client buffer
  obtain ⟨H₂, G₂⟩ := unmapVirtual_grows M₁.inv hu
  have G := (leaveEngines_grows ω I.mem buffer).trans G₂
  rcases h with ⟨-, rfl⟩ | ⟨-, -, rfl⟩
  · exact G.retains
  · refine G.retains.trans (.of_moves (deleteObject_spec H₂ buffer).1 ?_)
    rintro rfl
    exact ho ⟨not_not.mp hreserved, hhandle, slot, hfind⟩

theorem bindBuffer_retains {handle flags graphicsAddress : Nat} (I : s.Inv g)
    (h : s.bindBuffer ω handle flags graphicsAddress = (r, s')) : Retains o s.mem s'.mem := by
  rcases bindBuffer_cases h with ⟨-, rfl, -⟩ | ⟨slot, buffer, r₁, m₁, hbindable, hb, h⟩
  · exact .rfl
  obtain ⟨-, -, hslot⟩ := find_some hbindable.found
  obtain ⟨-, -, -, bo, hbo, -⟩ := I.client.holding.slot hslot
  obtain ⟨-, b, hb', har⟩ := I.mem.size_eq hbo
  have hub : bo.bound = false := by
    have hub := hbindable.unbound
    rwa [isBound, hbo] at hub
  obtain ⟨M₁, ht₁, S₁, herr, hok⟩ := bindObject_spec I.mem hb
  -- the buffer has not been bound, and neither is it if anything fails
  have hbuffer {m : Memory} (bo' : BufferObject Owner) (hobj : m.objects = Function.update
      s.mem.objects buffer (some bo')) (harea : bo'.area = bo.area) (K : Os.Keeps s.mem.os m.os)
      (ht : ∀ {o}, s.mem.tables o ≠ none → m.tables o ≠ none) : Retains o s.mem m := by
    refine ⟨fun {bo₁} hbo₁ => ?_, ht, fun _ _ _ => K⟩
    by_cases heq : o = buffer
    · subst heq
      obtain rfl := Option.some.inj (hbo.symm.trans hbo₁)
      refine ⟨bo', by rw [hobj, Function.update_self], harea, fun hbound => ?_⟩
      rw [hub] at hbound
      cases hbound
    · exact ⟨bo₁, by rw [hobj, Function.update_of_ne heq, hbo₁], rfl, fun _ => rfl⟩
  rcases h with ⟨⟨e, rfl, -⟩, rfl⟩ | ⟨rfl, r₂, done, m₂, m₃, hm, I₃, h⟩
  · exact Idle.retains (idle_setMem ⟨S₁, (herr e rfl).1, ht₁, (herr e rfl).2⟩)
  obtain ⟨bo₁, first, hbo₁, -, hobj₁, -⟩ := hok rfl
  obtain rfl := Option.some.inj (hbo.symm.trans hbo₁)
  have har₁ : m₁.os.find b = some ⟨buffer, s.mem.pages buffer⟩ := S₁.find.trans har
  have harea₁ : m₁.area buffer = some b := by
    rw [Memory.area, hobj₁, Function.update_self, Option.bind_some]
    exact hb'
  have G := (mapEngines_grows M₁.inv harea₁ har₁ hm).trans (.of_idle I₃)
  have hobj₃ := G.objects.trans hobj₁
  have K₃ : Os.Keeps s.mem.os m₃.os := fun ha => G.os (S₁.find.trans ha)
  have ht₃ : ∀ {o}, s.mem.tables o ≠ none → m₃.tables o ≠ none := fun hne => by
    refine G.tables ?_
    rwa [ht₁]
  rcases h with ⟨-, -, rfl⟩ | ⟨-, -, -, rfl⟩
  · obtain ⟨_, _, B⟩ := bind_spec I.client I.mem hslot hb hm
    generalize hu : m₃.unbindObject buffer = res
    obtain ⟨q, m₄⟩ := res
    obtain ⟨bo₄, -, ht₄, hos₄, hobj₄, -, -, harea₄⟩ :=
      unbindObject_spec (I₃.moves (K := fun _ => False) B.moves.inv).inv
        (by rw [hobj₃, Function.update_self]) hu
    refine hbuffer bo₄ ?_ harea₄ (fun ha => ?_) fun hne => ?_
    · exact hobj₄.trans (by rw [hobj₃, Function.update_idem])
    · change m₄.os.find _ = _
      rw [hos₄]
      exact K₃ ha
    · change m₄.tables _ ≠ none
      rw [ht₄]
      exact ht₃ hne
  · exact hbuffer _ hobj₃ rfl K₃ ht₃

theorem unbindBuffer_retains {handle reserved : Nat} (I : s.Inv g)
    (ho : ¬ s.Frees (.unbindBuffer handle reserved) o)
    (h : s.unbindBuffer ω handle reserved = (r, s')) : Retains o s.mem s'.mem := by
  by_cases hbad : reserved ≠ 0 ∨ handle = 0
  · rw [unbindBuffer, if_pos hbad] at h
    cases h
    exact .rfl
  obtain ⟨hreserved, hhandle⟩ := not_or.mp hbad
  rcases unbindBuffer_cases h with ⟨-, rfl⟩ | ⟨slot, buffer, r₁, m₁, bound, hfind, hb, hu, -, rfl⟩
  · exact .rfl
  obtain ⟨-, -, hslot⟩ := find_some hfind
  obtain ⟨-, -, -, bo, hbo, -⟩ := I.client.holding.slot hslot
  obtain ⟨-, M₁, -⟩ := unbindObject_spec I.mem hbo hu
  refine Retains.trans (.of_moves M₁ ?_) (unmapEngines_grows ω s.readyEngines
    (s.mem.graphicsAddress buffer) (s.mem.size buffer) M₁.inv).retains
  rintro rfl
  exact ho ⟨not_not.mp hreserved, hhandle, ⟨slot, hfind⟩, hb⟩

theorem submit_retains {handle flags offset length fence : Nat} (I : s.Inv g)
    (h : s.submit ω handle flags offset length fence = (r, s')) : Retains o s.mem s'.mem := by
  rcases submit_cases h with ⟨-, rfl⟩ | ⟨k, status, x', masters', m', hk, hs, -, hidle⟩
  · exact .rfl
  · obtain ⟨x, slot, buffer, -, -, -, -, -, -, -, -, rfl⟩ := handSubmit_ok hk
    exact ((submit_grows I.mem hs).trans (.of_idle hidle.mem)).retains

theorem framebuffer_retains {shared : Option SharedInfo} (I : s.Inv g)
    (h : s.framebuffer ω shared = (r, s')) : Retains o s.mem s'.mem := by
  rcases framebuffer_cases h with ⟨-, rfl⟩ | ⟨info, engines, r₁, m₁, -, -, hm, hidle⟩
  · exact .rfl
  · exact ((mapGlobalRanges_grows I.mem hm).trans (.of_idle hidle.mem)).retains

theorem nativeState_retains {q : Except Error NativeState} (I : s.Inv g)
    (h : s.nativeState ω = (q, s')) : Retains o s.mem s'.mem := by
  rcases nativeState_cases h with ⟨n, -, -, rfl⟩ | ⟨hn, ⟨-, hidle⟩ | ⟨m₁, r₂, m₂, I₁, hm₂, h⟩⟩
  · exact .rfl
  · exact hidle.retains
  have N := I.client.native
  rw [hn] at N
  have M₁ : Moves g (· = .vm s.client.id) s.mem m₁ := I₁.moves I.mem
  obtain ⟨M₂, -⟩ :=
    newTables_spec M₁.inv (Owner.isTables_vm _) ((congrFun I₁.tables _).trans N.1) hm₂
  by_cases ho : o = .vm s.client.id
  · -- there have been no such page tables
    exact .of_gone (ho ▸ .of_tables I.mem (Owner.isTables_vm _) N.1)
  rcases h with ⟨-, rfl⟩ | ⟨-, -, rfl⟩
  · exact .of_moves (M₁.trans M₂) ho
  · exact .of_moves (M₁.trans M₂) ho

theorem createContext_retains {context flags : Nat} (I : s.Inv g)
    (hnative : s.client.native = some n) (h : s.createContext ω n context flags = (r, s')) :
    Retains o s.mem s'.mem := by
  rcases createContext_cases h with ⟨-, hidle⟩ | ⟨slot, m₁, r₂, x, m₂, hslot, hfree, hn, I₁, hi, h⟩
  · exact hidle.retains
  have N := I.client.native
  rw [hnative] at N
  obtain ⟨R, -, pt, hpt, -⟩ := N
  have M₁ : Moves g (ContextId.native s.client.id n.nextContext).Owns s.mem m₁ := I₁.moves I.mem
  have hpt₁ : m₁.tables (.vm s.client.id) = some pt := (congrFun I₁.tables _).trans hpt
  obtain ⟨M₂, -, herr, hok⟩ := init_spec M₁.inv
    (fun p => (congrFun I₁.objects _).trans (R.fresh hn p)) (.inr ⟨pt, hpt₁⟩) hi
  have hx : x.id = .native s.client.id n.nextContext := by
    cases r₂ with
    | error e => exact congrArg RenderEngine.id (herr e rfl)
    | ok u => exact congrArg RenderEngine.id (hok rfl).1
  by_cases ho : (ContextId.native s.client.id n.nextContext).Owns o
  · -- there has been no such context
    refine .of_gone ?_
    cases o with
    | part y p =>
      obtain rfl := ho
      exact .of_object I.mem (Owner.isObject_part _ _) (R.fresh hn p)
    | ownTables y =>
      obtain rfl := ho
      exact .of_tables I.mem trivial (R.own _)
    | _ => exact ho.elim
  have hgone {m : Memory} (M : Moves g (ContextId.native s.client.id n.nextContext).Owns s.mem m) :
      Retains o s.mem (x.destroy m) := by
    obtain ⟨M', -⟩ := RenderEngine.destroy_spec M.inv x
    rw [hx] at M'
    exact .of_moves (M.trans M') ho
  have M₂ := M₁.trans M₂
  rcases h with ⟨-, rfl⟩ | ⟨-, m₃, I₃, ⟨-, rfl⟩ | ⟨-, rfl⟩⟩
  · exact hgone M₂
  · exact hgone (M₂.trans (I₃.moves M₂.inv))
  · exact .of_moves (M₂.trans (I₃.moves M₂.inv)) ho

theorem destroyContext_retains {context reserved : Nat} (I : s.Inv g)
    (hnative : s.client.native = some n) (ho : ¬ s.Frees (.destroyContext context reserved) o)
    (h : s.destroyContext n context reserved = (r, s')) : Retains o s.mem s'.mem := by
  by_cases hbad : context = 0 ∨ reserved ≠ 0
  · rw [destroyContext, if_pos hbad] at h
    cases h
    exact .rfl
  obtain ⟨hcontext, hreserved⟩ := not_or.mp hbad
  rcases destroyContext_cases h with ⟨-, rfl⟩ | ⟨slot, -, hid, -, -, rfl⟩
  · exact .rfl
  dsimp only
  cases hx : n.contexts slot with
  | none => exact .rfl
  | some x =>
    obtain ⟨M, -⟩ := RenderEngine.destroy_spec I.mem x
    exact .of_moves M fun hk =>
      ho ⟨not_not.mp hreserved, hcontext, n, slot, x, hnative, hid, hx, hk⟩

theorem bindVirtual_retains {handle flags address : Nat} (I : s.Inv g)
    (h : s.bindVirtual ω n handle flags address = (r, s')) : Retains o s.mem s'.mem := by
  rcases bindVirtual_cases h with ⟨-, rfl⟩ | ⟨slot, buffer, hfind, -, -, -, ⟨-, -, rfl⟩ | ⟨-, -, -,
    r₁, done, m₁, hm, h⟩⟩
  · exact .rfl
  · exact .rfl
  obtain ⟨-, -, hslot⟩ := find_some hfind
  obtain ⟨-, -, -, bo, hbo, -⟩ := I.client.holding.slot hslot
  obtain ⟨-, b, hb, har⟩ := I.mem.size_eq hbo
  have harea : s.mem.area buffer = some b := by rw [Memory.area, hbo, Option.bind_some, hb]
  have G := map_grows I.mem harea har hm
  rcases h with ⟨-, rfl⟩ | ⟨-, -, rfl⟩
  · exact (G.trans (unmap_grows (map_spec I.mem hm).1.inv rfl)).retains
  · exact G.retains

theorem submitObjects_retains {context batchHandle offset length fence count flags : Nat}
    {handles : Nat → Nat} (I : s.Inv g) (h : s.submitObjects ω n context batchHandle offset length
      fence count flags handles = (r, s')) : Retains o s.mem s'.mem := by
  rcases submitObjects_cases h with ⟨-, rfl⟩ | ⟨place, k, status, x', masters', m', hk, hs, h⟩
  · exact .rfl
  obtain ⟨x, slot, batch, -, -, -, -, -, -, -, -, rfl⟩ := handObjects_ok hk
  rcases h with ⟨-, rfl⟩ | ⟨-, hidle⟩
  · exact (submit_grows I.mem hs).retains
  · exact ((submit_grows I.mem hs).trans (.of_idle hidle.mem)).retains

theorem legacyRequest_retains {request : Request} (I : s.Inv g) (ho : ¬ s.Frees request o)
    (h : s.legacyRequest ω request = (r, s')) : Retains o s.mem s'.mem := by
  cases request with
  | getInfo | displayStatus => exact (reply_idle h).retains
  | createBuffer => exact createBuffer_retains I h
  | closeBuffer => exact closeBuffer_retains I ho h
  | bindBuffer => exact bindBuffer_retains I h
  | unbindBuffer => exact unbindBuffer_retains I ho h
  | submit => exact submit_retains I h
  | waitFence => exact (waitFence_idle h).retains
  | engineStatus => exact (engineStatus_idle h).retains
  | readRegister => exact (readRegister_idle h).retains
  | framebuffer => exact framebuffer_retains I h
  | _ =>
    cases h
    exact .rfl

theorem nativeRequest_retains {request : Request} (I : s.Inv g) (hnative : s.client.native = some n)
    (ho : ¬ s.Frees request o) (h : s.nativeRequest ω n request = (r, s')) :
    Retains o s.mem s'.mem := by
  cases request with
  | createContext => exact createContext_retains I hnative h
  | destroyContext => exact destroyContext_retains I hnative ho h
  | bindVirtual => exact bindVirtual_retains I h
  | unbindVirtual =>
    rcases unbindVirtual_cases h with ⟨-, rfl⟩ | ⟨slot, buffer, r₁, -, hu⟩
    · exact .rfl
    · exact (unmapVirtual_grows I.mem hu).2.retains
  | submitObjects => exact submitObjects_retains I h
  | waitRenderFence =>
    cases waitRenderFence_eq h
    exact .rfl
  | bufferLayout =>
    rw [bufferLayout_mem h]
    exact .rfl
  | cacheBuffer =>
    cases cacheBuffer_eq h
    exact .rfl
  | getTopology => exact (getTopology_idle h).retains
  | _ =>
    cases h
    exact .rfl

/-- A request retains all that it does not take. -/
theorem ioctl_retains {header : Header} {request : Request} (I : s.Inv g)
    (ho : ¬ s.Takes ω header request o) (h : s.ioctl ω header request = (r, s')) :
    Retains o s.mem s'.mem := by
  unfold ioctl at h
  split at h
  · split at h
    · next hq =>
      cases h
      exact (readRequest_idle hq).retains
    · next hq => exact ((readRequest_idle hq).trans (gpuActivity_idle h)).retains
  split at h
  · cases h
    exact .rfl
  next hgate =>
  have hopen (hp : passesGate request = false) : s.client.native.any (·.faulted) = false := by
    rw [hp, Bool.not_false, Bool.and_true] at hgate
    exact Bool.eq_false_iff.mpr hgate
  split at h
  · next hnative =>
    rcases nativeIoctl_cases h with ⟨-, rfl⟩ | ⟨hr, r₁, s₁, hn, h⟩
    · exact .rfl
    have K₁ := nativeState_keeps I hr hn
    have E₁ := nativeState_retains (o := o) I hn
    rcases h with ⟨-, rfl⟩ | ⟨n, r₂, s₂, rfl, hq, h⟩
    · exact E₁
    have J := readRequest_idle hq
    have E₂ : Retains o s.mem s₂.mem := E₁.trans J.retains
    rcases h with ⟨-, rfl⟩ | ⟨rfl, h⟩
    · exact E₂
    have hn₁ := (nativeState_ok hn).1
    refine E₂.trans (nativeRequest_retains (K₁.trans (J.keeps K₁.inv)).inv (J.client ▸ hn₁)
      (fun hf => ho ?_) h)
    rcases nativeState_cases hn with ⟨n', hn', -, rfl⟩ | ⟨-, ⟨⟨e, he⟩, -⟩ | ⟨m₁, r₂, m₂, -, -,
      ⟨⟨e, -, he⟩, -⟩ | ⟨-, -, rfl⟩⟩⟩
    · have hf := J.frees.mp hf
      exact ⟨hopen hf.passesGate, fun _ => hr, by rw [hq], hf⟩
    · cases he
    · cases he
    · -- the native state that has just been made has no context
      have hf := J.frees.mp hf
      cases request with
      | destroyContext =>
        obtain ⟨-, -, n, slot, x, hn, -, hx, -⟩ := hf
        cases hn
        cases hx
      | closeBuffer | unbindBuffer => cases hnative
      | _ => exact hf.elim
  next hlegacy =>
  split at h
  · next hq =>
    cases h
    exact (readRequest_idle hq).retains
  · next q s₁ hq =>
    have J := readRequest_idle hq
    refine J.retains.trans (legacyRequest_retains (J.keeps I).inv (fun hf => ho ?_) h)
    have hf := J.frees.mp hf
    exact ⟨hopen hf.passesGate, fun hnative => absurd hnative hlegacy, by rw [hq], hf⟩

theorem closeBuffer_frees {handle reserved : Nat} (I : s.Inv g)
    (ho : s.Frees (.closeBuffer handle reserved) o)
    (h : s.closeBuffer ω handle reserved = (r, s')) : ¬ Retains o s.mem s'.mem := by
  obtain ⟨hreserved, hhandle, slot, hfind⟩ := ho
  obtain ⟨-, -, hslot⟩ := find_some hfind
  have C := I.client
  obtain ⟨-, -, -, bo, hbo, -⟩ := C.holding.slot hslot
  rw [closeBuffer, if_neg (by simp [hreserved, hhandle]), hfind] at h
  dsimp only at h
  obtain ⟨hc, -, M₁, -, -, -, C₁⟩ := leaveEngines_spec ω I.mem C o
  have hslot₁ : (s.leaveEngines ω o).client.buffers slot = some o := by rwa [hc]
  have C₁ : (s.leaveEngines ω o).client.Inv (s.leaveEngines ω o).mem := by
    rw [hc]
    exact ⟨C₁.holding, C₁.equipped, C₁.native⟩
  generalize hu : (s.leaveEngines ω o).unmapVirtual ω slot o = res at h
  obtain ⟨q, s₁⟩ := res
  obtain ⟨rfl, M₂, -⟩ := unmapVirtual_spec M₁.inv C₁ hslot₁ hu
  cases h
  intro R
  obtain ⟨bo', hbo', -⟩ := R.object hbo
  obtain ⟨-, -, hobj⟩ := deleteObject_spec M₂.inv o
  dsimp only at hbo'
  rw [hobj, Function.update_self] at hbo'
  cases hbo'

theorem unbindBuffer_frees {handle reserved : Nat} (I : s.Inv g)
    (ho : s.Frees (.unbindBuffer handle reserved) o)
    (h : s.unbindBuffer ω handle reserved = (r, s')) : ¬ Retains o s.mem s'.mem := by
  obtain ⟨hreserved, hhandle, ⟨slot, hfind⟩, hb⟩ := ho
  obtain ⟨-, -, hslot⟩ := find_some hfind
  obtain ⟨-, -, -, bo, hbo, -⟩ := I.client.holding.slot hslot
  rw [unbindBuffer, if_neg (by simp [hreserved, hhandle]), hfind] at h
  dsimp only at h
  rw [hb, Bool.not_true, if_neg Bool.false_ne_true] at h
  generalize hu : s.mem.unbindObject o = res at h
  obtain ⟨status, m₁⟩ := res
  obtain ⟨bo₁, M₁, -, -, hobj₁, hub, -⟩ := unbindObject_spec I.mem hbo hu
  have G := unmapEngines_grows ω s.readyEngines (s.mem.graphicsAddress o) (s.mem.size o) M₁.inv
  have hmem : s'.mem =
      unmapEngines ω (s.mem.graphicsAddress o) (s.mem.size o) s.readyEngines m₁ := by
    unfold done at h
    split at h <;>
    · next heq =>
      cases heq
      cases h
      rfl
  intro R
  obtain ⟨bo', hbo', -, heq⟩ := R.object hbo
  rw [isBound, hbo] at hb
  obtain rfl := heq hb
  rw [hmem, G.objects, hobj₁, Function.update_self] at hbo'
  obtain rfl := Option.some.inj hbo'
  cases hub.symm.trans hb

theorem destroyContext_frees {context reserved : Nat} (I : s.Inv g)
    (hnative : s.client.native = some n) (hthere : ¬ s.mem.Gone o)
    (ho : s.Frees (.destroyContext context reserved) o)
    (h : s.destroyContext n context reserved = (r, s')) : ¬ Retains o s.mem s'.mem := by
  obtain ⟨hreserved, hcontext, n', slot, x, hn', hid, hx, hk⟩ := ho
  cases hnative.symm.trans hn'
  have N := I.client.native
  rw [hnative] at N
  obtain ⟨R, -⟩ := N
  obtain ⟨hlt, -⟩ := R.context hx
  rw [destroyContext, if_neg (by simp [hreserved, hcontext])] at h
  cases hfind : (List.range kMaxContexts).find? fun i => n.ids i = context with
  | none =>
    have hnone := List.find?_eq_none.mp hfind slot (List.mem_range.mpr hlt)
    exact absurd (decide_eq_true hid) hnone
  | some slot' =>
    have hid' : n.ids slot' = context := by simpa using List.find?_some hfind
    obtain rfl := R.inj (hid' ▸ hcontext) (hid'.trans hid.symm)
    rw [hfind] at h
    dsimp only at h
    rw [hx] at h
    cases h
    obtain ⟨M, hparts, ht⟩ := RenderEngine.destroy_spec I.mem x
    refine fun hR => hR.not_gone hthere ?_
    cases o with
    | part y p =>
      obtain rfl := hk
      exact .of_object M.inv (Owner.isObject_part _ _) (hparts p)
    | ownTables y =>
      obtain rfl := hk
      exact .of_tables M.inv trivial ((congrFun ht _).trans (Function.update_self ..))
    | _ => exact hk.elim

/-- A request does not retain what it takes. -/
theorem ioctl_takes {header : Header} {request : Request} (I : s.Inv g) (hthere : ¬ s.mem.Gone o)
    (ho : s.Takes ω header request o) (h : s.ioctl ω header request = (r, s')) :
    ¬ Retains o s.mem s'.mem := by
  obtain ⟨hopen, hrender, hread, hf⟩ := ho
  intro R
  generalize hq : s.readRequest ω header request.sizeof = res at hread
  obtain ⟨q, s₁⟩ := res
  obtain rfl : q = .ok () := hread
  have J := readRequest_idle hq
  have I₁ := (J.keeps I).inv
  have hf := J.frees.mpr hf
  have hthere₁ : ¬ s₁.mem.Gone o := J.retains.not_gone hthere
  replace R := R.of_idle J.mem
  unfold ioctl at h
  split at h
  · exact hf
  rw [hopen, Bool.false_and, if_neg Bool.false_ne_true] at h
  cases request with
  | closeBuffer =>
    simp only [Request.isNative, Bool.false_eq_true, if_false, hq] at h
    exact closeBuffer_frees I₁ hf h R
  | unbindBuffer =>
    simp only [Request.isNative, Bool.false_eq_true, if_false, hq] at h
    exact unbindBuffer_frees I₁ hf h R
  | destroyContext =>
    obtain ⟨-, -, n, -, -, hn, -⟩ := id hf
    have hn' : s.client.native = some n := J.client ▸ hn
    simp only [Request.isNative, if_true, nativeIoctl, hrender rfl, Bool.not_true,
      Bool.false_eq_true, if_false, nativeState, hn', hq] at h
    exact destroyContext_frees I₁ hn hthere₁ hf h R
  | _ => exact hf.elim

/-! ## Hangs -/

/-- The submission that the request asks for has been put before the engine, and the context, which
is `y` then, has not finished it in time. -/
def Hangs (ω : Oracle) (s : Session) (header : Header) (request : Request) (y : RenderEngine) :
    Prop :=
  ∃ k masters m, s.handed ω header request = some k ∧
    k.submit ω = (.error .timedOut, y, masters, m) ∧ k.context.nextSeqno < y.nextSeqno

theorem submit_hung {e y : RenderEngine} {masters masters' : Masters} {address length : Nat}
    {x : Error} (h : e.submit ω masters m address length = (.error x, y, masters', m'))
    (hlt : e.nextSeqno < y.nextSeqno) :
    y = { e with faulted := true, nextSeqno := e.nextSeqno + 1 } := by
  have hstop {status : Except Error Nat} {masters₁ : Masters} {m₁ : Memory}
      (h : (status, e, masters₁, m₁) = (.error x, y, masters', m')) : False := by
    cases h
    exact Nat.lt_irrefl _ hlt
  unfold RenderEngine.submit at h
  iterate 6
    split at h
    · exact (hstop h).elim
  dsimp only at h
  split at h
  · cases h
    rfl
  · cases h

theorem quarantined_of_engine {e : EngineId} {y : RenderEngine} (hy : s.client.engines e = some y)
    (hf : y.faulted = true) : s.quarantined = true := by
  refine Bool.or_eq_true_iff.mpr (.inr (List.any_eq_true.mpr ⟨e, ?_, ?_⟩))
  · cases e with
    | blitter => exact List.mem_cons_self
    | render => exact List.mem_cons_of_mem _ List.mem_cons_self
  · rw [hy]
    exact hf

/-- A context that has hung belongs to the client, and its native state has faulted with a context
of the native interface. -/
theorem ioctl_hung {header : Header} {request : Request} {y : RenderEngine}
    (hh : s.Hangs ω header request y) (h : s.ioctl ω header request = (r, s')) :
    request.isNative = false ∧ s'.client.engines y.engine = some y ∧ y.faulted = true ∨
      ∃ n i, s'.client.native = some n ∧ n.contexts i = some y ∧ n.faulted = true := by
  obtain ⟨k, masters, m, hk, hs, hlt⟩ := hh
  have hy := submit_hung hs hlt
  unfold handed at hk
  split at hk
  · cases hk
  next hgate =>
  cases request with
  | submit handle flags offset length fence =>
    simp only [ioctl, hgate, Bool.false_and, Bool.false_eq_true, if_false, Request.isNative] at h
    dsimp only at hk
    generalize hq : s.readRequest ω header
      (Request.submit handle flags offset length fence).sizeof = res at h hk
    obtain ⟨q, s₁⟩ := res
    cases q with
    | error e => cases hk
    | ok u =>
      dsimp only at h hk
      cases hk₁ : s₁.handSubmit handle flags offset length fence with
      | error e =>
        rw [hk₁] at hk
        cases hk
      | ok k₁ =>
        rw [hk₁] at hk
        obtain rfl := Option.some.inj hk
        refine .inl ⟨rfl, ?_, by rw [hy]⟩
        rcases submit_cases (h : s₁.submit ω handle flags offset length fence = (r, s')) with
          ⟨⟨e, he, -⟩, -⟩ | ⟨k₂, status, x', masters', m', hk₂, hs', -, hidle⟩
        · cases he.symm.trans hk₁
        · cases hk₁.symm.trans hk₂
          cases hs.symm.trans hs'
          rw [hidle.client]
          exact Function.update_self ..
  | submitObjects context batchHandle offset length fence count flags handles =>
    simp only [ioctl, hgate, Bool.false_and, Bool.false_eq_true, if_false, Request.isNative,
      if_true] at h
    dsimp only at hk
    unfold nativeIoctl at h
    cases hrender : s.client.nativeRender with
    | false =>
      rw [hrender] at hk
      cases hk
    | true =>
      rw [hrender, Bool.not_true, if_neg Bool.false_ne_true] at h hk
      generalize hn : s.nativeState ω = res at h hk
      obtain ⟨q₁, s₁⟩ := res
      cases q₁ with
      | error e => cases hk
      | ok n =>
        dsimp only at h hk
        generalize hq : s₁.readRequest ω header (Request.submitObjects context batchHandle offset
          length fence count flags handles).sizeof = res at h hk
        obtain ⟨q₂, s₂⟩ := res
        have J := readRequest_idle hq
        cases q₂ with
        | error e => cases hk
        | ok u =>
          dsimp only at h hk
          cases hk₁ : s₂.handObjects n context batchHandle offset length fence count flags
              handles with
          | error e =>
            rw [hk₁] at hk
            cases hk
          | ok entry =>
            obtain ⟨place, k₁⟩ := entry
            rw [hk₁] at hk
            obtain rfl : k₁ = k := Option.some.inj hk
            rcases submitObjects_cases (h : s₂.submitObjects ω n context batchHandle offset length
              fence count flags handles = (r, s')) with ⟨⟨e, he, -⟩, -⟩ | ⟨place', k₂, status, x',
                masters', m', hk₂, hs', ⟨-, rfl⟩ | ⟨⟨f, hf⟩, -⟩⟩
            · cases he.symm.trans hk₁
            · cases hk₁.symm.trans hk₂
              cases hs.symm.trans hs'
              refine .inr ⟨_, place, rfl, Function.update_self .., ?_⟩
              rw [hy]
              rfl
            · cases hk₁.symm.trans hk₂
              cases hs.symm.trans hs'
              cases hf
  | _ => cases hk

/-- What a context can reach is there. -/
theorem Inv.not_gone {y : RenderEngine} (I : s.Inv g) (hy : (∃ e, s.client.engines e = some y) ∨
      ∃ n i, s.client.native = some n ∧ n.contexts i = some y)
    (h : s.mem.Reaches y o) : ¬ s.mem.Gone o := by
  have hcontext : Whole s.mem y.id ∧ ∃ pt, s.mem.tables y.addressSpace = some pt := by
    rcases hy with ⟨e, hy⟩ | ⟨n, i, hn, hy⟩
    · obtain ⟨-, -, hspace, -, hwhole, hpt⟩ := I.client.equipped.engine hy
      exact ⟨hwhole, hspace ▸ hpt⟩
    · have N := I.client.native
      rw [hn] at N
      obtain ⟨R, -, pt, hpt, -⟩ := N
      obtain ⟨-, -, -, -, hspace, -, hwhole⟩ := R.context hy
      exact ⟨hwhole, pt, hspace ▸ hpt⟩
  obtain ⟨hwhole, pt, hpt⟩ := hcontext
  rcases h with ⟨p, rfl⟩ | rfl | ⟨hthere, -⟩
  · obtain ⟨bo, hbo⟩ := hwhole p
    exact fun hgone => nomatch hgone.object.symm.trans hbo
  · exact fun hgone => nomatch hgone.tables.symm.trans hpt
  · exact hthere

/-- What a context of the native interface can reach belongs to the client. -/
theorem Inv.mine_of_reaches {y : RenderEngine} {i : Nat} (I : s.Inv g)
    (hn : s.client.native = some n) (hy : n.contexts i = some y) (h : s.mem.Reaches y o) :
    s.Mine o := by
  have N := I.client.native
  rw [hn] at N
  obtain ⟨R, -, pt, hpt, E⟩ := N
  obtain ⟨-, -, hid, -, hspace, -⟩ := R.context hy
  rcases h with ⟨p, rfl⟩ | rfl | ⟨-, pt', a, b, pages, hpt', ha, har, hmem⟩
  · exact congrArg ContextId.client hid
  · rw [hspace]
    rfl
  obtain rfl := Option.some.inj ((hspace ▸ hpt').symm.trans hpt)
  -- the page is one of a buffer that is bound there, or the scratch page
  have hpage : ∃ b' o' pages', s.mem.os.find b' = some ⟨o', pages'⟩ ∧ s.Mine o' ∧
      pt'.translate a ∈ pages' := by
    by_cases hw : ∃ t, InWindow s.client.buffers n.addresses s.mem t a
    · obtain ⟨t, ht, o', ho', hle, hlt⟩ := hw
      obtain ⟨-, -, rfl, bo', hbo', -⟩ := I.client.holding.slot ho'
      obtain ⟨-, b', -, har'⟩ := I.mem.size_eq hbo'
      exact ⟨b', _, _, har', rfl, List.mem_of_getElem? (E.shown ht ho' hle hlt)⟩
    · obtain ⟨-, how, nodes, R'⟩ := I.mem.tables hpt
      obtain ⟨b', -, har'⟩ := R'.scratchArea
      refine ⟨b', _, _, har', how ▸ rfl, ?_⟩
      rw [E.blank ha (not_exists.mp hw)]
      exact List.mem_cons_self
  obtain ⟨b', o', pages', har', hmine, hmem'⟩ := hpage
  obtain rfl := I.mem.os.disjoint har har' hmem hmem'
  obtain rfl : o = o' := congrArg Area.owner (Option.some.inj (har.symm.trans har'))
  exact hmine

/-- A client that is quarantined stays so. -/
theorem ioctl_quarantined {header : Header} {request : Request} (I : s.Inv g)
    (hq : s.quarantined = true) (h : s.ioctl ω header request = (r, s')) :
    s'.quarantined = true := by
  rcases Bool.or_eq_true_iff.mp hq with hn | he
  · have J := ioctl_idle_of_faulted hn h
    rwa [quarantined, J.client]
  · obtain ⟨e, -, he⟩ := List.any_eq_true.mp he
    obtain ⟨x, hx, hf⟩ := (Option.any_eq_true _ _).mp he
    obtain ⟨x', hx', -, hf'⟩ := ((ioctl_keeps I h).engines e).2 x hx
    exact quarantined_of_engine hx' (hf' hf)

end Session

namespace Device
variable {ω : Oracle} {g : GlobalGTT} {d : Device} {c : Nat} {x : RenderClient} {o : Owner}

/-- The call takes what belongs to `o` away: it is a request that does, or the close of another
client that owns it. -/
def Takes (c : Nat) (d : Device) (a : Call × Oracle) (o : Owner) : Prop :=
  match a.1 with
  | .ioctl c' header request =>
    ∃ x, d.clients c' = some x ∧ (d.entered x).Takes a.2 header request o
  | .close c' => c' ≠ c ∧ o.client = some c' ∧
    ∃ x, d.clients c' = some x ∧ (d.session x).quarantined = false
  | _ => False

/-- A context of the client has hung. -/
structure Hung (c : Nat) (d : Device) : Prop where
  next : c < d.nextClient
  faulted : Faulted d.masters
  quarantined : ∀ x, d.clients c = some x → (d.session x).quarantined = true

theorem openClient_retains (I : d.Inv g) (ω : Oracle) (h : Faulted d.masters) :
    Memory.Retains o d.mem (d.openClient ω).mem := by
  rw [Device.openClient]
  generalize hs : (if d.openCount = 0 then d.mem.allocate ω else (.ok (), d.mem)) = res
  obtain ⟨status, m⟩ := res
  have hidle : d.mem.Idle m := by
    split at hs
    · exact allocate_idle hs
    · obtain ⟨-, rfl⟩ := Prod.mk.inj hs
      exact .rfl
  have R₁ : Memory.Retains o d.mem m := (Grows.of_idle hidle).retains
  cases status with
  | error e => exact R₁
  | ok u =>
    have I₁ := I.idle hidle
    dsimp only
    rw [initGTT_of_faulted I₁ ω h]
    dsimp only
    split
    · next m₂ ha =>
      have R₂ := R₁.trans (Grows.of_idle (allocate_idle ha)).retains
      split
      · rw [uninit_of_faulted]
        · exact R₂
        · exact h
      · exact R₂
    next m₂ ha =>
    have I₂ := I₁.idle (allocate_idle ha)
    have R₂ := R₁.trans (Grows.of_idle (allocate_idle ha)).retains (o := o)
    have hfree : d.clients d.nextClient = none := by
      by_contra hne
      obtain ⟨x, hx⟩ := Option.ne_none_iff_exists'.mp hne
      exact Nat.lt_irrefl _ (I.client hx).1
    have hgone : ∀ o : Owner, o.client = some d.nextClient → m₂.Gone o := fun o ho =>
      (I₂.gone ho hfree).resolve_right fun h => Nat.lt_irrefl _ h.1
    generalize hnew : RenderClient.new ω d.nextClient d.config d.masters m₂ = res
    obtain ⟨x, m₃⟩ := res
    obtain ⟨M, -⟩ := RenderClient.new_spec I₂.mem hgone hnew
    refine R₂.trans ?_
    by_cases ho : o.client = some d.nextClient
    · exact .of_gone (hgone o ho)
    · exact .of_moves M ho

theorem closeClient_retains {c' : Nat} (I : d.Inv g) (ω : Oracle) (h : Faulted d.masters)
    (ho : ∀ x, d.clients c' = some x → (d.session x).quarantined = false → o.client ≠ some c') :
    Memory.Retains o d.mem (d.closeClient ω c').mem := by
  rw [Device.closeClient]
  cases hx : d.clients c' with
  | none => exact .rfl
  | some x =>
    obtain ⟨-, hid, S⟩ := I.client hx
    have R : Memory.Retains o d.mem ((d.session x).destroy ω) := by
      cases hq : (d.session x).quarantined with
      | true =>
        rw [Session.destroy, if_pos hq]
        exact .rfl
      | false =>
        refine .of_moves (Session.destroy_spec (ω := ω) S hq).1 fun hk => ho x hx hq ?_
        exact hk.trans (congrArg some hid)
    dsimp only
    split
    · rw [uninit_of_faulted]
      · exact R
      · exact h
    · exact R

/-- A step retains all that it does not take. -/
theorem step_retains (a : Call × Oracle) (I : d.Inv g) (Q : Hung c d) (ho : ¬ Takes c d a o) :
    Memory.Retains o d.mem (step a d).mem := by
  obtain ⟨call, ω⟩ := a
  have I₁ := I.idle (idle_enter d.mem)
  have R₁ : Memory.Retains o d.mem d.mem.enter := (Grows.of_idle (idle_enter d.mem)).retains
  cases call with
  | «open» => exact R₁.trans (openClient_retains I₁ ω Q.faulted)
  | ioctl c' header request =>
    cases hx : d.clients c' with
    | none =>
      unfold step
      dsimp only
      rw [Device.ioctl, hx]
      exact R₁
    | some x =>
      generalize hi : (d.entered x).ioctl ω header request = res
      obtain ⟨r, s⟩ := res
      obtain ⟨-, hs⟩ := step_ioctl hx hi
      have R₂ := Session.ioctl_retains (I.entered hx) (fun h => ho ⟨x, hx, h⟩) hi
      rw [← hs] at R₂
      exact R₁.trans R₂
  | close c' =>
    refine R₁.trans (closeClient_retains I₁ ω Q.faulted fun x hx hq hc => ?_)
    refine ho ⟨?_, hc, x, hx, hq⟩
    rintro rfl
    cases hq.symm.trans (Q.quarantined x hx)
  | gart page entry =>
    obtain ⟨g', -, M⟩ := I₁.gart page entry
    exact R₁.trans (.of_moves M id)

/-- A step does not retain what it takes. -/
theorem step_takes (a : Call × Oracle) (I : d.Inv g) (Q : Hung c d) (hthere : ¬ d.mem.Gone o)
    (ho : Takes c d a o) : ¬ Memory.Retains o d.mem (step a d).mem := by
  obtain ⟨call, ω⟩ := a
  have J := idle_enter d.mem
  have hthere₁ : ¬ d.mem.enter.Gone o := (Grows.of_idle J).retains.not_gone hthere
  intro R
  replace R := R.of_idle J
  cases call with
  | «open» | gart => exact ho
  | ioctl c' header request =>
    obtain ⟨x, hx, ho⟩ := ho
    generalize hi : (d.entered x).ioctl ω header request = res
    obtain ⟨r, s⟩ := res
    obtain ⟨-, hs⟩ := step_ioctl hx hi
    refine Session.ioctl_takes (I.entered hx) hthere₁ ho hi ?_
    rwa [← hs]
  | close c' =>
    obtain ⟨-, hc, x, hx, hq⟩ := ho
    have I₁ := I.idle J
    obtain ⟨-, hid, S⟩ := I₁.client hx
    refine R.not_gone hthere₁ ?_
    have hgone := (Session.destroy_spec (ω := ω) S hq).2 o (hc.trans (congrArg some hid.symm))
    unfold step
    dsimp only
    rw [Device.closeClient, hx]
    dsimp only
    split
    · rw [uninit_of_faulted]
      · exact hgone
      · exact Q.faulted
    · exact hgone

theorem Hung.step (Q : Hung c d) (I : d.Inv g) (a : Call × Oracle) : Hung c (step a d) := by
  refine ⟨(step_lives I a Q.next).next, step_faulted a I Q.faulted, fun y hy => ?_⟩
  by_cases hby : a.1.By c
  · obtain ⟨call, ω⟩ := a
    cases call with
    | «open» | gart => exact hby.elim
    | ioctl c' header request =>
      obtain rfl : c' = c := hby
      cases hx : d.clients c' with
      | none =>
        rcases step_absent (.ioctl c' header request, ω) hx with hnone | ⟨h, -⟩
        · cases hnone.symm.trans hy
        · cases h
      | some x =>
        generalize hi : (d.entered x).ioctl ω header request = res
        obtain ⟨r, s⟩ := res
        obtain ⟨hclient, hs⟩ := step_ioctl hx hi
        obtain rfl := Option.some.inj (hclient.symm.trans hy)
        rw [hs]
        exact Session.ioctl_quarantined (I.entered hx) (Q.quarantined x hx) hi
    | close c' =>
      obtain rfl : c' = c := hby
      cases (closeClient_gone ω { d with mem := d.mem.enter } c').symm.trans hy
  · have L := step_leaves a I ⟨Q.next, .inr Q.faulted⟩ hby
    exact Q.quarantined y (L.client ▸ hy)

/-- A run retains what is there, just if no step takes any of it. -/
theorem exec_retained_of_hung {T : Owner → Prop} (calls : List (Call × Oracle))
    (I : ∃ g, d.Inv g) (Q : Hung c d) (hthere : ∀ o, T o → ¬ d.mem.Gone o) :
    Run.Along Device.step (fun d a => ∀ o, T o → Memory.Retained o d.mem (Device.step a d).mem) d
        calls ↔
      Run.Along Device.step (fun d a => ∀ o, T o → ¬ Takes c d a o) d calls := by
  induction calls generalizing d with
  | nil => exact Iff.rfl
  | cons a calls ih =>
    obtain ⟨g, I⟩ := I
    obtain ⟨g', I'⟩ := (step_inv a I).1
    have hstep : (∀ o, T o → Memory.Retained o d.mem (Device.step a d).mem) ↔
        ∀ o, T o → ¬ Takes c d a o := by
      refine ⟨fun h o ho ht => step_takes a I Q (hthere o ho) ht (h o ho).1, fun h o ho => ?_⟩
      exact (step_retains a I Q (h o ho)).retained I.mem I'.mem
    rw [Run.Along_cons, Run.Along_cons, hstep]
    refine and_congr_right fun h => ih ⟨g', I'⟩ (Q.step I a) fun o ho => ?_
    exact (step_retains a I Q (h o ho)).not_gone (hthere o ho)

/-- What belongs to a client whose native state has faulted is retained in every run. -/
theorem exec_retained_of_sealed {T : Owner → Prop} (calls : List (Call × Oracle))
    (I : ∃ g, d.Inv g) (Q : Sealed c x d) (hn : x.native.any (·.faulted) = true)
    (hT : ∀ o, T o → o.client = some c) :
    Run.Along Device.step (fun d a => ∀ o, T o → Memory.Retained o d.mem (Device.step a d).mem) d
      calls := by
  induction calls generalizing d with
  | nil => trivial
  | cons a calls ih =>
    obtain ⟨g, I⟩ := I
    obtain ⟨g', I'⟩ := (step_inv a I).1
    obtain ⟨Q', L⟩ := step_sealed a I Q (.inl hn)
    refine ⟨fun o ho => ?_, ih ⟨g', I'⟩ Q'⟩
    exact (Retains.of_leaves L (not_not.mpr (hT o ho))).retained I.mem I'.mem

/-- A submission of a client has hung. In every run from there on, whoever takes part in it, what
the context can reach at that moment is retained, just if no step takes any of it. What a context of
the native interface can reach is always retained. -/
theorem exec_retained_iff (config : Config) (entries : Nat → Nat) (foreign : List Nat)
    (calls calls' : List (Call × Oracle)) {ω : Oracle} {c : Nat} {header : Header}
    {request : Request} {x : RenderClient} {y : RenderEngine} {d : Device}
    (hx : (Run.exec step (start config entries foreign) calls).clients c = some x)
    (hh : ((Run.exec step (start config entries foreign) calls).entered x).Hangs ω header request y)
    (hd : d = step (.ioctl c header request, ω)
      (Run.exec step (start config entries foreign) calls)) :
    (Run.Along step (fun d' a => ∀ o, d.mem.Reaches y o → Memory.Retained o d'.mem (step a d').mem)
        d calls' ↔
      Run.Along step (fun d' a => ∀ o, d.mem.Reaches y o → ¬ Takes c d' a o) d calls') ∧
    (request.isNative = true → Run.Along step
      (fun d' a => ∀ o, d.mem.Reaches y o → Memory.Retained o d'.mem (step a d').mem) d
      calls') := by
  obtain ⟨g, I⟩ := exec_inv config entries foreign calls
  have S := I.entered hx
  have hid := (I.client hx).2.1
  obtain ⟨g₁, I₁⟩ := (step_inv (.ioctl c header request, ω) I).1
  generalize hi : ((Run.exec step (start config entries foreign) calls).entered x).ioctl ω header
    request = res
  obtain ⟨r, s⟩ := res
  obtain ⟨hclient, hs⟩ := step_ioctl hx hi
  rw [← hd] at I₁ hclient hs
  have K := Session.ioctl_keeps S hi
  have hmem : d.mem = s.mem := congrArg Session.mem hs
  have hhung := Session.ioctl_hung hh hi
  have hq : s.quarantined = true := by
    rcases hhung with ⟨-, hy, hf⟩ | ⟨n, i, hn, -, hf⟩
    · exact Session.quarantined_of_engine hy hf
    · exact Bool.or_eq_true_iff.mpr (.inl (by rw [hn]; exact hf))
  have hfaulted : Faulted d.masters := by
    have h := quarantined_faulted K.inv hq
    rwa [← congrArg Session.masters hs] at h
  have hnext := (I₁.client hclient).1
  refine ⟨exec_retained_of_hung calls' ⟨g₁, I₁⟩ ⟨hnext, hfaulted, fun z hz => ?_⟩ fun o ho => ?_,
    fun hnative => ?_⟩
  · obtain rfl := Option.some.inj (hclient.symm.trans hz)
    rwa [hs]
  · rw [hmem] at ho ⊢
    refine K.inv.not_gone ?_ ho
    exact hhung.imp (fun h => ⟨_, h.2.1⟩) fun ⟨n, i, hn, hy, _⟩ => ⟨n, i, hn, hy⟩
  · rcases hhung with ⟨hlegacy, -⟩ | ⟨n, i, hn, hy, hf⟩
    · cases hlegacy.symm.trans hnative
    refine exec_retained_of_sealed calls' ⟨g₁, I₁⟩ ⟨hnext, hfaulted, .inl hclient, by rwa [hs]⟩
      (by rw [hn]; exact hf) fun o ho => ?_
    rw [hmem] at ho
    exact (K.inv.mine_of_reaches hn hy ho).trans (congrArg some (K.id.trans hid))

/-- The client submits its buffer to the blitter, which does not answer. -/
def hungSubmit : Call × Oracle := (.ioctl 0 ⟨40, 8, 40⟩ (.submit 1 0 0 8 0), Oracle.hung)

set_option maxRecDepth 10000 in
theorem hangs_hungSubmit {d : Device}
    (hd : d = Run.exec step (start Config.blitter (fun _ => 0) []) boundBuffer) :
    ∃ x y, d.clients 0 = some x ∧
      (d.entered x).Hangs Oracle.hung ⟨40, 8, 40⟩ (.submit 1 0 0 8 0) y ∧
      y.addressSpace = .ownTables (.legacy 0 .blitter) := by
  have h : (d.clients 0).any (fun x =>
      ((d.entered x).handed Oracle.hung ⟨40, 8, 40⟩ (.submit 1 0 0 8 0)).any fun k =>
        decide ((k.submit Oracle.hung).1 = .error .timedOut ∧
          k.context.nextSeqno < (k.submit Oracle.hung).2.1.nextSeqno ∧
          (k.submit Oracle.hung).2.1.addressSpace = .ownTables (.legacy 0 .blitter))) = true := by
    subst hd
    decide +kernel
  obtain ⟨x, hx, h⟩ := (Option.any_eq_true _ _).mp h
  obtain ⟨k, hk, h⟩ := (Option.any_eq_true _ _).mp h
  obtain ⟨hstatus, hlt, hspace⟩ := of_decide_eq_true h
  generalize hs : k.submit Oracle.hung = res at hstatus hlt hspace
  obtain ⟨status, y, masters, m⟩ := res
  obtain rfl : status = .error .timedOut := hstatus
  exact ⟨x, y, hx, ⟨k, masters, m, hk, hs, hlt⟩, hspace⟩

/-- The client closes the device, and the next one gets other pages. -/
theorem exec_retained_hungSubmit :
    let d := step hungSubmit (Run.exec step (start Config.blitter (fun _ => 0) []) boundBuffer)
    ∃ y, Run.Along step
      (fun d' a => ∀ o, d.mem.Reaches y o → Memory.Retained o d'.mem (step a d').mem) d
      [(.close 0, .unfailing), (.open, .unfailing),
        (.ioctl 1 ⟨32, 8, 32⟩ (.createBuffer 8192 0 0), .unfailing)] := by
  intro d
  obtain ⟨x, y, hx, hh, -⟩ := hangs_hungSubmit rfl
  refine ⟨y, (exec_retained_iff Config.blitter (fun _ => 0) [] boundBuffer _ hx hh rfl).1.mpr
    ⟨fun o _ ho => ho.1 rfl, fun o _ => id, fun o _ ho => ?_, trivial⟩⟩
  obtain ⟨x, -, -, -, -, hf⟩ := ho
  exact hf

set_option maxRecDepth 10000 in
/-- Or it closes its buffer, which the blitter can still reach: it is gone. -/
theorem not_retained_of_closeBuffer :
    let d := step hungSubmit (Run.exec step (start Config.blitter (fun _ => 0) []) boundBuffer)
    let d' := step (.ioctl 0 ⟨16, 8, 16⟩ (.closeBuffer 1 0), .unfailing) d
    ∃ x y, (Run.exec step (start Config.blitter (fun _ => 0) []) boundBuffer).clients 0 = some x ∧
      ((Run.exec step (start Config.blitter (fun _ => 0) []) boundBuffer).entered x).Hangs
        Oracle.hung ⟨40, 8, 40⟩ (.submit 1 0 0 8 0) y ∧
      d.mem.Reaches y (.buffer 0 1) ∧ ¬ Memory.Retained (.buffer 0 1) d.mem d'.mem ∧
      d'.mem.os.find 22 = none := by
  intro d d'
  obtain ⟨x, y, hx, hh, hspace⟩ := hangs_hungSubmit rfl
  refine ⟨x, y, hx, hh, ?_⟩
  have h : (d.mem.objects (.buffer 0 1)).any (fun bo =>
        (d.mem.tables (.ownTables (.legacy 0 .blitter))).any fun pt =>
          (d.mem.os.find 22).any fun ar => decide (bo.graphicsAddress < 2 ^ 48 ∧
            ar.owner = .buffer 0 1 ∧ pt.translate bo.graphicsAddress ∈ ar.pages)) = true ∧
      d'.mem.objects (.buffer 0 1) = none ∧ d'.mem.os.find 22 = none := by
    decide +kernel
  obtain ⟨h, hnone, hfind⟩ := h
  obtain ⟨bo, hbo, h⟩ := (Option.any_eq_true _ _).mp h
  obtain ⟨pt, hpt, h⟩ := (Option.any_eq_true _ _).mp h
  obtain ⟨⟨owner, pages⟩, har, h⟩ := (Option.any_eq_true _ _).mp h
  obtain ⟨haddress, rfl, hpages⟩ := of_decide_eq_true h
  refine ⟨.inr (.inr ⟨fun hgone => ?_, pt, bo.graphicsAddress, 22, pages, ?_, haddress, har,
    hpages⟩), fun hr => ?_, hfind⟩
  · cases hbo.symm.trans hgone.object
  · rw [hspace]
    exact hpt
  · obtain ⟨bo', hbo', -⟩ := hr.1.object hbo
    cases hnone.symm.trans hbo'

end Device

end IntelGfx
