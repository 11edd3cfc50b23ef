import IntelGfx.Verify.AddressSpace
import IntelGfx.Verify.Frame
import IntelGfx.Verify.TablePool

/-!
# The page tables over the life of a client

What is unbound leaves its tables behind, and nothing else takes them away before the client goes.
So the places where a client has ever bound a buffer share one pool (`exec_budget`), and each of
them stays one where it can bind a buffer (`exec_rebind`).
-/

namespace IntelGfx
open Memory RenderEngine

namespace PageTables
variable {α : Type} {pt pt' : PageTables α} {os os' : Os α} {nodes nodes' : List (Path × Table)}
  {q : Path}

theorem Rep.hasTable_mono (R : pt.Rep os nodes) (R' : pt'.Rep os' nodes')
    (hkept : ∀ {q t}, nodes.lookup q = some t → nodes'.lookup q = some t) (hq : q.length < 4)
    (h : pt.hasTable q = true) : pt'.hasTable q = true := by
  obtain ⟨t, ht⟩ := Option.ne_none_iff_exists'.mp ((R.hasTable_iff hq).mp h)
  rw [R'.hasTable_iff hq, hkept ht]
  exact Option.some_ne_none t

/-- Paths to tables that are there leave room for the top-level table and the three scratch ones
only. -/
theorem Rep.length_le (R : pt.Rep os nodes) {l : List Path} (hl : l.Nodup)
    (h : ∀ q ∈ l, 0 < q.length ∧ q.length < 4 ∧ pt.hasTable q = true) :
    l.length + 4 ≤ kMaxTables := by
  have hnil : [] ∉ l := fun hmem => Nat.lt_irrefl 0 (h [] hmem).1
  have hsub : [] :: l ⊆ nodes.map Prod.fst := by
    refine List.cons_subset.mpr ⟨(mem_keys ..).mpr ?_, fun q hq => (mem_keys ..).mpr ?_⟩
    · rw [R.top]
      exact Option.some_ne_none _
    · exact (R.hasTable_iff (h q hq).2.1).mp (h q hq).2.2
  have := ((List.nodup_cons.mpr ⟨hnil, hl⟩).subperm hsub).length_le
  have := R.length
  have := R.room
  rw [List.length_cons, List.length_map] at *
  omega

/-- New tables have no table of their own but the top level. -/
theorem Rep.not_hasTable (R : pt.Rep os [([], pt.top)]) (h0 : 0 < q.length) (hq : q.length < 4) :
    ¬ pt.hasTable q = true := by
  rw [R.hasTable_iff hq]
  cases q with
  | nil => exact absurd h0 (Nat.lt_irrefl 0)
  | cons i q => simp [List.lookup_cons]

end PageTables

namespace Memory
variable {ω : Oracle} {g : GlobalGTT} {m m' m'' : Memory} {K : Owner → Prop} {o : Owner}
  {S : PageTables.Path → Prop}

/-- Page tables that are there stay, with all their tables, and get others on the paths in `S`
only. -/
structure Extends (S : PageTables.Path → Prop) (o : Owner) (m m' : Memory) : Prop where
  kept : ∀ pt, m.tables o = some pt → ∃ pt', m'.tables o = some pt' ∧
    ∀ q : PageTables.Path, q.length < 4 → pt.hasTable q = true → pt'.hasTable q = true
  added : ∀ pt', m'.tables o = some pt' → ∀ q : PageTables.Path, 0 < q.length → q.length < 4 →
    pt'.hasTable q = true → S q ∨ ∃ pt, m.tables o = some pt ∧ pt.hasTable q = true

namespace Extends

theorem of_eq (h : m'.tables o = m.tables o) : Extends S o m m' :=
  ⟨fun pt hpt => ⟨pt, h.trans hpt, fun _ _ => id⟩,
    fun pt hpt _ _ _ hq => .inr ⟨pt, h.symm.trans hpt, hq⟩⟩

theorem rfl : Extends S o m m := of_eq (Eq.refl _)

theorem trans (h : Extends S o m m') (h' : Extends S o m' m'') : Extends S o m m'' where
  kept pt hpt := by
    obtain ⟨pt', hpt', hsub⟩ := h.kept pt hpt
    obtain ⟨pt'', hpt'', hsub'⟩ := h'.kept pt' hpt'
    exact ⟨pt'', hpt'', fun q hq hhas => hsub' q hq (hsub q hq hhas)⟩
  added pt hpt q h0 hq hhas := by
    rcases h'.added pt hpt q h0 hq hhas with hS | ⟨pt', hpt', hhas'⟩
    · exact .inl hS
    · exact h.added pt' hpt' q h0 hq hhas'

theorem of_moves (M : Moves g K m m') (ho : ¬ K o) : Extends S o m m' := of_eq (M.tables ho)

theorem of_idle (h : m.Idle m') : Extends S o m m' := of_eq (congrFun h.tables o)

/-- Tables change that are a trie before and after. -/
theorem of_rep {pt pt' : PageTables Owner} {os os' : Os Owner}
    {nodes nodes' : List (PageTables.Path × Table)} (R : pt.Rep os nodes)
    (R' : pt'.Rep os' nodes') (hpt : m.tables o = some pt) (hpt' : m'.tables o = some pt')
    (hkept : ∀ {q t}, nodes.lookup q = some t → nodes'.lookup q = some t)
    (hadded : ∀ {q}, nodes'.lookup q ≠ none → nodes.lookup q ≠ none ∨ S q) :
    Extends S o m m' where
  kept pt₁ hpt₁ := by
    obtain rfl := Option.some.inj (hpt.symm.trans hpt₁)
    exact ⟨pt', hpt', fun q hq => R.hasTable_mono R' hkept hq⟩
  added pt₁ hpt₁ q _ hq hhas := by
    obtain rfl := Option.some.inj (hpt'.symm.trans hpt₁)
    rcases hadded ((R'.hasTable_iff hq).mp hhas) with hold | hS
    · exact .inr ⟨pt, hpt, (R.hasTable_iff hq).mpr hold⟩
    · exact .inl hS

end Extends

theorem tables_deleteObject (m : Memory) (o : Owner) : (m.deleteObject o).tables = m.tables := by
  unfold deleteObject
  split
  · rfl
  · rfl

theorem unmap_extends {a size : Nat} {r : Except Error Unit} (H : m.Inv g)
    (h : m.unmap ω o a size = (r, m')) : Extends S o m m' := by
  cases hpt : m.tables o with
  | none =>
    unfold unmap at h
    rw [hpt] at h
    cases h
    exact .rfl
  | some pt =>
    obtain ⟨-, -, -, hunmapped⟩ := unmap_spec H h
    obtain ⟨-, -, nodes, R⟩ := H.tables hpt
    obtain ⟨pt', ht, -, hrep, -⟩ := hunmapped pt hpt
    exact .of_rep R (hrep nodes R) hpt (by rw [ht, Function.update_self]) id .inl

theorem map_extends {bo : BufferObject Owner} {o' : Owner} {a done : Nat} {r : Except Error Unit}
    (H : m.Inv g) (hbo : m.objects o' = some bo)
    (hS : ∀ q ∈ PageTables.rangeTables a (m.pages o').length, S q)
    (h : m.map ω o (m.area o') a = (r, done, m')) : Extends S o m m' := by
  cases hpt : m.tables o with
  | none =>
    unfold map at h
    rw [hpt] at h
    cases h
    exact .rfl
  | some pt =>
    obtain ⟨-, b, hb, har⟩ := H.size_eq hbo
    have harea : m.area o' = some b := by rw [Memory.area, hbo, Option.bind_some, hb]
    obtain ⟨-, -, nodes, R⟩ := H.tables hpt
    obtain ⟨-, -, -, hmapped⟩ := map_spec H h
    obtain ⟨pt', nodes', ht, M⟩ := hmapped pt nodes b _ hpt R harea har
    exact .of_rep R M.grown.rep hpt (by rw [ht, Function.update_self]) M.grown.kept
      fun hq => (M.grown.added hq).imp_right fun hq => hS _ (PageTables.mem_rangeTables.mpr hq)

theorem submit_extends {e e' : RenderEngine} {masters masters' : Masters} {a length : Nat}
    {status : Except Error Nat} (H : m.Inv g)
    (h : e.submit ω masters m a length = (status, e', masters', m')) : Extends S o m m' := by
  obtain ⟨-, -, -, -, ht | ⟨pt, hpt, ht⟩, -⟩ := submit_spec H h
  · exact .of_eq (congrFun ht o)
  · by_cases ho : o = e.addressSpace
    · subst ho
      refine ⟨fun pt' hpt' => ?_, fun pt' hpt' q _ _ hq => .inr ⟨pt, hpt, ?_⟩⟩
      · obtain rfl := Option.some.inj (hpt.symm.trans hpt')
        exact ⟨pt.flush, by rw [ht, Function.update_self], fun _ _ => id⟩
      · rw [ht, Function.update_self] at hpt'
        obtain rfl := Option.some.inj hpt'
        exact hq
    · exact .of_eq (by rw [ht, Function.update_of_ne ho])

end Memory

namespace Session
variable {ω : Oracle} {g : GlobalGTT} {s s' : Session} {r : Except Error Reply} {n : NativeState}
  {S : PageTables.Path → Prop}

/-- The tables of the place where a request asks for a buffer to be bound virtually. -/
def asked (s : Session) : Request → List PageTables.Path
  | .bindVirtual handle _ address =>
    (s.held handle).elim [] fun v => PageTables.rangeTables address (v.size / 4096)
  | _ => []

/-- The page tables of the native state only grow, on the paths in `S`. -/
abbrev Extends (S : PageTables.Path → Prop) (s s' : Session) : Prop :=
  Memory.Extends S (.vm s.client.id) s.mem s'.mem

theorem Idle.extends (h : Idle s s') : Extends S s s' := .of_idle h.mem

theorem not_spaces_vm (C : s.client.Inv s.mem) : ¬ Spaces s.readyEngines (.vm s.client.id) := by
  intro h
  obtain ⟨e, he⟩ := spaces_readyEngines C h
  cases he

theorem createBuffer_extends {size flags reserved : Nat} (I : s.Inv g)
    (h : s.createBuffer ω size flags reserved = (r, s')) : Extends S s s' := by
  rcases createBuffer_cases h with ⟨-, hidle⟩ | ⟨slot, m₁, r₁, m₂, hn, -, -, -, -, -, I₁, hm₂, h⟩
  · exact hidle.extends
  have M₁ : Moves g (· = .buffer s.client.id s.client.nextHandle) s.mem m₁ := I₁.moves I.mem
  have hnone := (congrFun I₁.objects _).trans (I.client.holding.fresh hn)
  obtain ⟨M₂, ht₂, -⟩ := newObject_spec M₁.inv (Owner.isObject_buffer _ _) hnone
    (by unfold pageRound; omega) hm₂
  have hm₂ : Memory.Extends S (.vm s.client.id) s.mem m₂ :=
    .trans (.of_idle I₁) (.of_eq (congrFun ht₂ _))
  rcases h with ⟨-, rfl⟩ | ⟨-, m₃, I₃, ⟨-, rfl⟩ | ⟨-, rfl⟩⟩
  · exact hm₂
  · refine hm₂.trans ((Memory.Extends.of_idle I₃).trans (.of_eq ?_))
    exact congrFun (tables_deleteObject ..) _
  · exact hm₂.trans (.of_idle I₃)

theorem unmapVirtual_extends {slot : Nat} {o : Owner} {q : Except Error Unit} (H : s.mem.Inv g)
    (h : s.unmapVirtual ω slot o = (q, s')) : Extends S s s' := by
  unfold unmapVirtual at h
  split at h
  · cases h
    exact .rfl
  split at h
  · cases h
    exact .rfl
  split at h
  · next hu =>
    cases h
    exact unmap_extends H hu
  · next hu =>
    cases h
    exact unmap_extends H hu

theorem closeBuffer_extends {handle reserved : Nat} (I : s.Inv g)
    (h : s.closeBuffer ω handle reserved = (r, s')) : Extends S s s' := by
  rcases closeBuffer_cases h with ⟨-, rfl⟩ | ⟨slot, buffer, r₁, s₁, hfind, hu, h⟩
  · exact .rfl
  obtain ⟨hc, -, M₁, -⟩ := leaveEngines_spec ω I.mem I.client buffer
  have E₁ : Extends S s (s.leaveEngines ω buffer) := .of_moves M₁ (not_spaces_vm I.client)
  have E₂ := unmapVirtual_extends (S := S) M₁.inv hu
  rw [Extends, hc] at E₂
  rcases h with ⟨-, rfl⟩ | ⟨-, -, rfl⟩
  · exact E₁.trans E₂
  · exact E₁.trans (E₂.trans (.of_eq (congrFun (tables_deleteObject ..) _)))

theorem bindBuffer_extends {handle flags graphicsAddress : Nat} (I : s.Inv g)
    (h : s.bindBuffer ω handle flags graphicsAddress = (r, s')) : Extends S s s' := by
  rcases bindBuffer_cases h with ⟨-, rfl, -⟩ | ⟨slot, buffer, r₁, m₁, hbindable, hb, h⟩
  · exact .rfl
  obtain ⟨-, -, hslot⟩ := find_some hbindable.found
  obtain ⟨-, ht, -⟩ := bindObject_spec I.mem hb
  rcases h with ⟨-, rfl⟩ | ⟨rfl, r₂, done, m₂, m₃, hm, I₃, h⟩
  · exact .of_eq (congrFun ht _)
  obtain ⟨bo, first, B⟩ := bind_spec I.client I.mem hslot hb hm
  have hvm : ¬ s.Around buffer (.vm s.client.id) := by
    rintro (hvm | hvm)
    · obtain ⟨-, -, hbuffer, -⟩ := I.client.holding.slot hslot
      cases hvm.trans hbuffer
    · exact not_spaces_vm I.client hvm
  have E₃ : Memory.Extends S (.vm s.client.id) s.mem m₃ :=
    (Memory.Extends.of_moves B.moves hvm).trans (.of_idle I₃)
  rcases h with ⟨-, -, rfl⟩ | ⟨-, -, -, rfl⟩
  · have hbo₃ : m₃.objects buffer =
        some { bo with bound := true, graphicsAddress := s.mem.gtt.base + first * 4096 } := by
      rw [I₃.objects, B.objects, Function.update_self]
    generalize hu : m₃.unbindObject buffer = res
    obtain ⟨q, m₄⟩ := res
    obtain ⟨-, -, ht, -⟩ :=
      unbindObject_spec (I₃.moves (K := fun _ => False) B.moves.inv).inv hbo₃ hu
    exact E₃.trans (.of_eq (congrFun ht _))
  · exact E₃

theorem unbindBuffer_extends {handle reserved : Nat} (I : s.Inv g)
    (h : s.unbindBuffer ω handle reserved = (r, s')) : Extends S s s' := by
  rcases unbindBuffer_cases h with ⟨-, rfl⟩ | ⟨slot, buffer, r₁, m₁, bound, hfind, hb, hu, -, rfl⟩
  · exact .rfl
  obtain ⟨-, -, hslot⟩ := find_some hfind
  obtain ⟨-, -, -, bo, hbo, -⟩ := I.client.holding.slot hslot
  obtain ⟨-, M₁, ht₁, -⟩ := unbindObject_spec I.mem hbo hu
  obtain ⟨M₂, -⟩ := unmapEngines_spec ω s.readyEngines (s.mem.graphicsAddress buffer)
    (s.mem.size buffer) M₁.inv
  exact (Memory.Extends.of_eq (congrFun ht₁ _)).trans (.of_moves M₂ (not_spaces_vm I.client))

theorem submit_extends {handle flags offset length fence : Nat} (I : s.Inv g)
    (h : s.submit ω handle flags offset length fence = (r, s')) : Extends S s s' := by
  rcases submit_cases h with ⟨-, rfl⟩ | ⟨k, status, x', masters', m', hk, hs, -, hidle⟩
  · exact .rfl
  · obtain ⟨x, slot, buffer, -, -, -, -, -, -, -, -, rfl⟩ := handSubmit_ok hk
    exact (Memory.submit_extends I.mem hs).trans (.of_idle hidle.mem)

theorem framebuffer_extends {shared : Option SharedInfo} (I : s.Inv g)
    (h : s.framebuffer ω shared = (r, s')) : Extends S s s' := by
  rcases framebuffer_cases h with ⟨-, rfl⟩ | ⟨info, engines, r₁, m₁, -, hengines, hm, hidle⟩
  · exact .rfl
  obtain ⟨M, -⟩ := mapGlobalRanges_spec I.mem (fun x hx => by
    obtain ⟨e, hx, -⟩ := mem_readyEngines (hengines x hx)
    obtain ⟨-, -, hspace, -, -, hpt⟩ := I.client.equipped.engine hx
    exact hspace ▸ hpt) hm
  refine (Memory.Extends.of_moves M fun hvm => not_spaces_vm I.client ?_).trans
    (.of_idle hidle.mem)
  obtain ⟨x, hx, ho⟩ := hvm
  exact ⟨x, hengines x hx, ho⟩

theorem createContext_extends {context flags : Nat} (I : s.Inv g)
    (hnative : s.client.native = some n) (h : s.createContext ω n context flags = (r, s')) :
    Extends S s s' := by
  rcases createContext_cases h with ⟨-, hidle⟩ | ⟨slot, m₁, r₂, x, m₂, hslot, hfree, hn, I₁, hi, h⟩
  · exact hidle.extends
  have N := I.client.native
  rw [hnative] at N
  obtain ⟨R, -, pt, hpt, -⟩ := N
  have M₁ : Moves g (ContextId.native s.client.id n.nextContext).Owns s.mem m₁ := I₁.moves I.mem
  have hpt₁ : m₁.tables (.vm s.client.id) = some pt := (congrFun I₁.tables _).trans hpt
  obtain ⟨M₂, -, herr, hok⟩ := init_spec M₁.inv
    (fun p => (congrFun I₁.objects _).trans (R.fresh hn p)) (.inr ⟨pt, hpt₁⟩) hi
  have hx : x.id = .native s.client.id n.nextContext := by
    cases r₂ with
    | error e => exact congrArg RenderEngine.id (herr e rfl)
    | ok u => exact congrArg RenderEngine.id (hok rfl).1
  have hgone {m : Memory} (M : Moves g (ContextId.native s.client.id n.nextContext).Owns s.mem m) :
      Memory.Extends S (.vm s.client.id) s.mem (x.destroy m) := by
    obtain ⟨M', -⟩ := RenderEngine.destroy_spec M.inv x
    rw [hx] at M'
    exact .of_moves (M.trans M') id
  have M₂ := M₁.trans M₂
  rcases h with ⟨-, rfl⟩ | ⟨-, m₃, I₃, ⟨-, rfl⟩ | ⟨-, rfl⟩⟩
  · exact hgone M₂
  · exact hgone (M₂.trans (I₃.moves M₂.inv))
  · exact .of_moves (M₂.trans (I₃.moves M₂.inv)) id

theorem destroyContext_extends {context reserved : Nat} (I : s.Inv g)
    (hnative : s.client.native = some n) (h : s.destroyContext n context reserved = (r, s')) :
    Extends S s s' := by
  rcases destroyContext_cases h with ⟨-, rfl⟩ | ⟨slot, -, hid, h0, -, rfl⟩
  · exact .rfl
  have N := I.client.native
  rw [hnative] at N
  obtain ⟨R, -⟩ := N
  obtain ⟨x, hx⟩ := R.named (hid ▸ h0)
  obtain ⟨-, -, hxid, -⟩ := R.context hx
  obtain ⟨M, -⟩ := RenderEngine.destroy_spec I.mem x
  rw [hx]
  rw [hxid] at M
  exact .of_moves M id

theorem bindVirtual_extends {handle flags address : Nat} (I : s.Inv g)
    (hS : ∀ q ∈ s.asked (.bindVirtual handle flags address), S q)
    (h : s.bindVirtual ω n handle flags address = (r, s')) : Extends S s s' := by
  rcases bindVirtual_cases h with ⟨-, rfl⟩ | ⟨slot, buffer, hfind, -, -, -, ⟨-, -, rfl⟩ | ⟨-, -, -,
    r₁, done, m₁, hm, h⟩⟩
  · exact .rfl
  · exact .rfl
  obtain ⟨-, -, hslot⟩ := find_some hfind
  obtain ⟨-, -, -, bo, hbo, -⟩ := I.client.holding.slot hslot
  have hpages : s.mem.size buffer / 4096 = (s.mem.pages buffer).length := by
    rw [Memory.size, hbo]
    dsimp only
    rw [(I.mem.size_eq hbo).1, Nat.mul_div_cancel _ (by decide)]
  have E₁ := map_extends (S := S) I.mem hbo (fun q hq => hS q (by
    rw [asked, held, hfind, Option.map_some, Option.elim_some, hpages]
    exact hq)) hm
  rcases h with ⟨-, rfl⟩ | ⟨-, -, rfl⟩
  · exact E₁.trans (unmap_extends (map_spec I.mem hm).1.inv rfl)
  · exact E₁

theorem submitObjects_extends {context batchHandle offset length fence count flags : Nat}
    {handles : Nat → Nat} (I : s.Inv g) (h : s.submitObjects ω n context batchHandle offset length
      fence count flags handles = (r, s')) : Extends S s s' := by
  rcases submitObjects_cases h with ⟨-, rfl⟩ | ⟨place, k, status, x', masters', m', hk, hs, h⟩
  · exact .rfl
  obtain ⟨x, slot, batch, -, -, -, -, -, -, -, -, rfl⟩ := handObjects_ok hk
  rcases h with ⟨-, rfl⟩ | ⟨-, hidle⟩
  · exact Memory.submit_extends I.mem hs
  · exact (Memory.submit_extends I.mem hs).trans (.of_idle hidle.mem)

theorem bufferLayout_mem {handle tiling stride reserved : Nat}
    (h : s.bufferLayout n handle tiling stride reserved = (r, s')) : s'.mem = s.mem := by
  unfold bufferLayout at h
  generalize (if tiling = 1 then 512 else 128) = unit at h
  split at h
  · cases h
    rfl
  split at h
  · cases h
    rfl
  split at h <;>
  · cases h
    rfl

theorem nativeState_extends {q : Except Error NativeState} (I : s.Inv g)
    (h : s.nativeState ω = (q, s')) : Extends S s s' := by
  rcases nativeState_cases h with ⟨n, -, -, rfl⟩ | ⟨hn, ⟨-, hidle⟩ | ⟨m₁, r₂, m₂, I₁, hm₂, h⟩⟩
  · exact .rfl
  · exact hidle.extends
  have N := I.client.native
  rw [hn] at N
  have hnone := (congrFun I₁.tables _).trans N.1
  have H₁ := (I₁.moves (K := fun _ => False) I.mem).inv
  rcases h with ⟨⟨e, rfl, -⟩, rfl⟩ | ⟨rfl, -, rfl⟩
  · obtain ⟨-, -, -, herr, -⟩ := newTables_spec H₁ (Owner.isTables_vm _) hnone hm₂
    exact .of_eq ((congrFun (herr e rfl) _).trans (hnone.trans N.1.symm))
  · -- the new tables are the top level and the scratch tables
    obtain ⟨pt, hpt, R⟩ := newTables_fresh H₁ hm₂
    refine ⟨fun pt' hpt' => ?_, fun pt' hpt' q h0 hq hhas => ?_⟩
    · cases N.1.symm.trans hpt'
    · obtain rfl := Option.some.inj (hpt.symm.trans hpt')
      exact absurd hhas (R.not_hasTable h0 hq)

theorem legacyRequest_extends {request : Request} (I : s.Inv g)
    (h : s.legacyRequest ω request = (r, s')) : Extends S s s' := by
  cases request with
  | getInfo | displayStatus => exact (reply_idle h).extends
  | createBuffer => exact createBuffer_extends I h
  | closeBuffer => exact closeBuffer_extends I h
  | bindBuffer => exact bindBuffer_extends I h
  | unbindBuffer => exact unbindBuffer_extends I h
  | submit => exact submit_extends I h
  | waitFence => exact (waitFence_idle h).extends
  | engineStatus => exact (engineStatus_idle h).extends
  | readRegister => exact (readRegister_idle h).extends
  | framebuffer => exact framebuffer_extends I h
  | _ =>
    cases h
    exact .rfl

theorem nativeRequest_extends {request : Request} (I : s.Inv g) (hnative : s.client.native = some n)
    (hS : ∀ q ∈ s.asked request, S q) (h : s.nativeRequest ω n request = (r, s')) :
    Extends S s s' := by
  cases request with
  | createContext => exact createContext_extends I hnative h
  | destroyContext => exact destroyContext_extends I hnative h
  | bindVirtual => exact bindVirtual_extends I hS h
  | unbindVirtual =>
    rcases unbindVirtual_cases h with ⟨-, rfl⟩ | ⟨slot, buffer, r₁, -, hu⟩
    · exact .rfl
    · exact unmapVirtual_extends I.mem hu
  | submitObjects => exact submitObjects_extends I h
  | waitRenderFence =>
    cases waitRenderFence_eq h
    exact .rfl
  | bufferLayout => exact .of_eq (congrFun (congrArg Memory.tables (bufferLayout_mem h)) _)
  | cacheBuffer =>
    cases cacheBuffer_eq h
    exact .rfl
  | getTopology => exact (getTopology_idle h).extends
  | _ =>
    cases h
    exact .rfl

theorem asked_congr {request : Request} (h : s'.held = s.held) :
    s'.asked request = s.asked request := by
  cases request <;> simp only [asked, h]

/-- No request takes a table from the native state, and none adds another than it asks for. -/
theorem ioctl_extends {header : Header} {request : Request} (I : s.Inv g)
    (hS : ∀ q ∈ s.asked request, S q) (h : s.ioctl ω header request = (r, s')) :
    Extends S s s' := by
  unfold ioctl at h
  split at h
  · split at h
    · next hq =>
      cases h
      exact (readRequest_idle hq).extends
    · next hq => exact ((readRequest_idle hq).trans (gpuActivity_idle h)).extends
  split at h
  · cases h
    exact .rfl
  split at h
  · rcases nativeIoctl_cases h with ⟨-, rfl⟩ | ⟨hr, r₁, s₁, hn, h⟩
    · exact .rfl
    have K₁ := nativeState_keeps I hr hn
    have E₁ := nativeState_extends (S := S) I hn
    rcases h with ⟨-, rfl⟩ | ⟨n, r₂, s₂, rfl, hq, h⟩
    · exact E₁
    have J := readRequest_idle hq
    have E₂ : Extends S s s₂ := E₁.trans (.of_idle J.mem)
    rcases h with ⟨-, rfl⟩ | ⟨-, h⟩
    · exact E₂
    have K₂ := K₁.trans (J.keeps K₁.inv)
    have hasked : s₂.asked request = s.asked request :=
      asked_congr (J.held.trans (nativeState_held I hn))
    have E₃ := nativeRequest_extends K₂.inv (J.client ▸ (nativeState_ok hn).1)
      (fun q hq => hS q (hasked ▸ hq)) h
    rw [Extends, K₂.id] at E₃
    exact E₂.trans E₃
  · split at h
    · next hq =>
      cases h
      exact (readRequest_idle hq).extends
    · next q s₁ hq =>
      have J := readRequest_idle hq
      have E := legacyRequest_extends (S := S) (J.keeps I).inv h
      rw [Extends, J.client] at E
      exact (Memory.Extends.of_idle J.mem).trans E

/-- What is bound has all its tables. -/
theorem held_tables {v : Held} {k : Nat} {pt : PageTables Owner} (I : s.Inv g)
    (hv : s.held k = some v) (h0 : v.address ≠ 0)
    (hpt : s.mem.tables (.vm s.client.id) = some pt) :
    ∀ q ∈ PageTables.rangeTables v.address (v.size / 4096), pt.hasTable q = true := by
  intro q hq
  obtain ⟨i, o, hf, hi, ho, rfl⟩ := held_some hv
  obtain ⟨-, -, -, bo, hbo, -⟩ := I.client.holding.slot ho
  dsimp only at h0 hq
  have hrange := PageTables.mem_rangeTables.mp hq
  obtain ⟨j, hj, hqj⟩ := hrange
  obtain ⟨-, -, nodes, R⟩ := I.mem.tables hpt
  have N := I.client.native
  cases hn : s.client.native with
  | none =>
    rw [Session.address, hn] at h0
    exact absurd rfl h0
  | some n =>
    rw [hn] at N
    obtain ⟨-, -, pt', hpt', E⟩ := N
    obtain rfl := Option.some.inj (hpt.symm.trans hpt')
    have ha : s.address i = n.addresses i := by
      rw [Session.address, hn]
      rfl
    rw [ha] at h0 hqj
    -- the page there is one of the buffer, so it is not the scratch page
    have hshown := E.shown (a := n.addresses i + j * 4096) h0 ho (by omega) (by omega)
    refine (R.hasTable_iff (PageTables.length_tablePaths hqj).2).mpr ?_
    refine R.lookup_tablePaths (fun hnone => ?_) q hqj
    rw [R.translate_scratch hnone] at hshown
    exact I.mem.scratchPage_ne hpt hbo hshown

end Session

namespace Device
variable {g : GlobalGTT} {d : Device} {c : Nat} {x x' : RenderClient} {config : Config}
  {entries : Nat → Nat} {foreign : List Nat} {calls : List (Call × Oracle)}
  {S : PageTables.Path → Prop}

/-- The tables of the place where a call asks for a buffer of the client to be bound virtually. -/
def asked (c : Nat) (d : Device) : Call → List PageTables.Path
  | .ioctl c' _ request =>
    if c' = c then (d.clients c).elim [] fun x => (d.entered x).asked request else []
  | _ => []

/-- Those of all the places for which the calls of a run ask. -/
def askedOver (c : Nat) : Device → List (Call × Oracle) → List PageTables.Path
  | _, [] => []
  | d, a :: calls => asked c d a.1 ++ askedOver c (step a d) calls

/-- Only its own end takes a table from the native state of a client, and only its own requests add
one. -/
theorem step_extends (a : Call × Oracle) (I : d.Inv g) (hx : d.clients c = some x)
    (hx' : (step a d).clients c = some x') (hS : ∀ q ∈ asked c d a.1, S q) :
    d.mem.Extends S (.vm c) (step a d).mem := by
  by_cases hby : a.1.By c
  · obtain ⟨call, ω⟩ := a
    cases call with
    | «open» | gart => exact hby.elim
    | ioctl c' header request =>
      obtain rfl : c' = c := hby
      rw [asked, if_pos rfl, hx, Option.elim_some] at hS
      have hid : (d.entered x).client.id = c' := (I.client hx).2.1
      generalize hi : (d.entered x).ioctl ω header request = res
      obtain ⟨r, s⟩ := res
      have E := Session.ioctl_extends (I.entered hx) hS hi
      rw [Session.Extends, hid, ← (step_ioctl hx hi).2] at E
      exact Memory.Extends.trans (.of_idle (idle_enter d.mem)) E
    | close c' =>
      obtain rfl : c' = c := hby
      cases (closeClient_gone ω { d with mem := d.mem.enter } c').symm.trans hx'
  · exact .of_eq (step_leaves a I (I.lasting hx) hby).tables

theorem exec_extends (calls : List (Call × Oracle)) (I : ∃ g, d.Inv g) (hx : d.clients c = some x)
    (hx' : (Run.exec step d calls).clients c = some x') :
    d.mem.Extends (fun _ => True) (.vm c) (Run.exec step d calls).mem := by
  induction calls generalizing d x with
  | nil => exact .rfl
  | cons a calls ih =>
    obtain ⟨g, I⟩ := I
    have I₁ := (step_inv a I).1
    cases hy : (step a d).clients c with
    | none =>
      obtain ⟨hlt, -⟩ := I.client hx
      have L := step_lives I a hlt
      have hnone := (exec_lives calls I₁ L.next).closed hy
      cases hnone.symm.trans hx'
    | some y => exact (step_extends a I hx hy fun _ _ => trivial).trans (ih I₁ hy hx')

/-- The tables that the client has are of places in the list. -/
def Within (c : Nat) (l : List PageTables.Path) (d : Device) : Prop :=
  ∀ x pt, d.clients c = some x → d.mem.tables (.vm c) = some pt →
    ∀ q : PageTables.Path, 0 < q.length → q.length < 4 → pt.hasTable q = true → q ∈ l

theorem Within.step {l : List PageTables.Path} (h : Within c l d) (I : d.Inv g)
    (a : Call × Oracle) : Within c (l ++ asked c d a.1) (step a d) := by
  intro x pt hx hpt q h0 h4 hq
  cases hy : d.clients c with
  | some y =>
    have E := step_extends (S := (· ∈ asked c d a.1)) a I hy hx fun _ => id
    rcases E.added pt hpt q h0 h4 hq with hasked | ⟨pt', hpt', hq'⟩
    · exact List.mem_append_right _ hasked
    · exact List.mem_append_left _ (h y pt' hy hpt' q h0 h4 hq')
  | none =>
    -- a client that has just come has no native state yet
    obtain ⟨call, ω⟩ := a
    rcases step_absent (call, ω) hy with hnone | ⟨rfl, rfl⟩
    · cases hnone.symm.trans hx
    obtain ⟨⟨g', I'⟩, -⟩ := step_inv (.open, ω) I
    obtain ⟨-, hid, S⟩ := I'.client hx
    have hnative : x.native = none := by
      rcases openClient_cases ω { d with mem := d.mem.enter } with ⟨hc, -⟩ | ⟨y, hc, -, hn⟩
      · cases hy.symm.trans ((congrFun hc _).symm.trans hx)
      · have hy' := (congrFun hc d.nextClient).symm.trans hx
        rw [Function.update_self] at hy'
        exact Option.some.inj hy' ▸ hn
    have N := S.client.native
    rw [show ((Device.step (.open, ω) d).session x).client.native = none from hnative] at N
    cases (hid ▸ N.1 : _ = none).symm.trans hpt

theorem Within.exec {l : List PageTables.Path} (h : Within c l d) (I : ∃ g, d.Inv g)
    (calls : List (Call × Oracle)) :
    Within c (l ++ askedOver c d calls) (Run.exec Device.step d calls) := by
  induction calls generalizing d l with
  | nil => exact (List.append_nil l).symm ▸ h
  | cons a calls ih =>
    obtain ⟨g, I⟩ := I
    rw [askedOver, ← List.append_assoc]
    exact ih (h.step I a) (step_inv a I).1

/-- A path to a table of some place where the client has had a buffer bound virtually, at whatever
time. -/
def Visited (config : Config) (entries : Nat → Nat) (foreign : List Nat)
    (calls : List (Call × Oracle)) (c : Nat) (q : PageTables.Path) : Prop :=
  ∃ calls₁ calls₂, calls = calls₁ ++ calls₂ ∧ ∃ h v,
    (Run.exec step (start config entries foreign) calls₁).held c h = some v ∧ v.address ≠ 0 ∧
    q ∈ PageTables.rangeTables v.address (v.size / 4096)

/-- Whatever a client has visited is still there. -/
theorem Visited.hasTable {q : PageTables.Path} (h : Visited config entries foreign calls c q)
    (hx : (Run.exec step (start config entries foreign) calls).clients c = some x) :
    0 < q.length ∧ q.length < 4 ∧ ∃ pt,
      (Run.exec step (start config entries foreign) calls).mem.tables (.vm c) = some pt ∧
      pt.hasTable q = true := by
  obtain ⟨calls₁, calls₂, rfl, k, v, hv, h0, hq⟩ := h
  obtain ⟨g, I⟩ := exec_inv config entries foreign calls₁
  have hlen := (PageTables.mem_rangeTables.mp hq).length
  rw [Run.exec_append] at hx ⊢
  obtain ⟨y, hy, hv⟩ := Option.bind_eq_some_iff.mp hv
  obtain ⟨-, hid, S⟩ := I.client hy
  have hnative : y.native ≠ none := by
    obtain ⟨i, o, -, -, -, rfl⟩ := Session.held_some hv
    intro hn
    rw [Session.address, session, hn] at h0
    exact h0 rfl
  obtain ⟨n, hn⟩ := Option.ne_none_iff_exists'.mp hnative
  have N : NativeInv y.id y.buffers _ y.native := S.client.native
  rw [hn, hid] at N
  obtain ⟨-, -, pt, hpt, -⟩ := N
  have hhas := Session.held_tables S hv h0 (hid.symm ▸ hpt : _ = some pt) q hq
  obtain ⟨pt', hpt', hsub⟩ := (exec_extends calls₂ ⟨g, I⟩ hy hx).kept pt hpt
  exact ⟨hlen.1, hlen.2, pt', hpt', hsub q hlen.2 hhas⟩

/-- All the places where a client has had buffers bound share one pool: the four tables that there
are from the start and the tables of these places are no more than `kMaxTables`. -/
theorem exec_budget (config : Config) (entries : Nat → Nat) (foreign : List Nat)
    (calls : List (Call × Oracle)) {c : Nat} {x : RenderClient}
    (hx : (Run.exec step (start config entries foreign) calls).clients c = some x)
    (paths : Finset PageTables.Path)
    (hvisited : ∀ q ∈ paths, Visited config entries foreign calls c q) :
    paths.card + 4 ≤ PageTables.kMaxTables := by
  rcases paths.eq_empty_or_nonempty with rfl | ⟨q₀, hq₀⟩
  · exact Nat.le_of_ble_eq_true rfl
  obtain ⟨g, I⟩ := exec_inv config entries foreign calls
  obtain ⟨-, -, pt, hpt, -⟩ := (hvisited q₀ hq₀).hasTable hx
  obtain ⟨-, -, nodes, R⟩ := I.mem.tables hpt
  rw [← Finset.length_toList]
  refine R.length_le paths.nodup_toList fun q hq => ?_
  obtain ⟨h0, h4, pt', hpt', hhas⟩ := (hvisited q (Finset.mem_toList.mp hq)).hasTable hx
  obtain rfl := Option.some.inj (hpt.symm.trans hpt')
  exact ⟨h0, h4, hhas⟩

/-- A client binds its buffer of two pages at 1 MiB. -/
def bindOnce : List (Call × Oracle) :=
  [(.open, .unfailing), (.ioctl 0 ⟨32, 8, 32⟩ (.createBuffer 8192 0 0), .unfailing),
    (.ioctl 0 ⟨24, 8, 24⟩ (.bindVirtual 1 0 0x100000), .unfailing)]

/-- It unbinds it and binds it at 1 GiB. -/
def bindElsewhere : List (Call × Oracle) :=
  [(.ioctl 0 ⟨16, 8, 16⟩ (.unbindVirtual 1 0), .unfailing),
    (.ioctl 0 ⟨24, 8, 24⟩ (.bindVirtual 1 0 0x40000000), .unfailing)]

/-- A client has visited where it has had a buffer bound, also once the buffer is unbound. -/
theorem visited_of_held {calls : List (Call × Oracle)} {address n : Nat} {q : PageTables.Path}
    (h : ((Run.exec step (start config entries foreign) calls).held c 1).map
      (fun v => (v.address, v.size / 4096)) = some (address, n)) (h0 : address ≠ 0)
    (hq : q ∈ PageTables.rangeTables address n) (calls' : List (Call × Oracle)) :
    Visited config entries foreign (calls ++ calls') c q := by
  obtain ⟨v, hv, h⟩ := Option.map_eq_some_iff.mp h
  obtain ⟨rfl, rfl⟩ := Prod.mk.inj h
  exact ⟨calls, calls', rfl, 1, v, hv, h0, hq⟩

set_option maxRecDepth 10000 in
theorem visited_bindOnce (calls : List (Call × Oracle)) {q : PageTables.Path}
    (hq : q ∈ PageTables.rangeTables 0x100000 2) :
    Visited Config.render (fun _ => 0) [] (bindOnce ++ calls) 0 q :=
  visited_of_held (by decide +kernel) (by decide) hq calls

set_option maxRecDepth 10000 in
/-- The tables of the pages of both places and the four that were there before, although only one
of the places is bound in the end. -/
theorem exec_budget_bindElsewhere :
    ((PageTables.rangeTables 0x100000 2).toFinset ∪
      (PageTables.rangeTables 0x40000000 2).toFinset).card + 4 ≤ PageTables.kMaxTables := by
  have h : ((Run.exec step (start Config.render (fun _ => 0) [])
      (bindOnce ++ bindElsewhere)).clients 0).isSome = true := by
    decide +kernel
  obtain ⟨x, hx⟩ := Option.isSome_iff_exists.mp h
  refine exec_budget Config.render (fun _ => 0) [] (bindOnce ++ bindElsewhere) hx _ fun q hq => ?_
  rcases Finset.mem_union.mp hq with hq | hq
  · exact visited_bindOnce bindElsewhere (List.mem_toFinset.mp hq)
  · rw [← List.append_nil (bindOnce ++ bindElsewhere)]
    exact visited_of_held (by decide +kernel) (by decide) (List.mem_toFinset.mp hq) []

/-- A place all of whose tables the client has visited is never refused for want of a table: a
buffer within reach is bound there whatever else fills the pool, as long as no call fails. -/
theorem exec_rebind (config : Config) (entries : Nat → Nat) (foreign : List Nat)
    (calls : List (Call × Oracle)) {ω : Oracle} {c h address : Nat} {x : RenderClient} {v : Held}
    {r : Except Error Reply} {s s' : Session}
    (hx : (Run.exec step (start config entries foreign) calls).clients c = some x)
    (hs : s = (Run.exec step (start config entries foreign) calls).entered x)
    (hrenders : x.Renders) (hv : s.held h = some v) (hbound : v.bound = false)
    (h0 : v.address = 0 ∨ v.address = address) (hne : address ≠ 0) (haligned : address % 4096 = 0)
    (hfit : address + v.size ≤ kVirtualAddressLimit)
    (hfree : Placement.Free (Held.sizes s.held) (Held.addresses s.held) (h, address))
    (hreach : s.mem.InReach (.buffer c h))
    (hvisited : ∀ q ∈ PageTables.rangeTables address (v.size / 4096),
      Visited config entries foreign calls c q)
    (hr : s.ioctl ω ⟨24, kABIVersion, 24⟩ (.bindVirtual h 0 address) = (r, s'))
    (hquiet : s'.mem.os.faults = s.mem.os.faults) : r = .ok .none := by
  obtain ⟨g, I⟩ := exec_inv config entries foreign calls
  obtain ⟨-, hid, -⟩ := I.client hx
  have S := I.entered hx
  rw [← hs] at S
  have hc : s.client = x := by
    rw [hs]
    rfl
  have hmain := Session.ioctl_bindVirtual_iff S (hc ▸ hrenders) hv hbound h0 hne haligned hfit hfree
    hquiet hr
  rw [hc, hid] at hmain
  refine hmain.1.mpr (.inr ⟨?_, hreach⟩)
  have htables :
      s.mem.tables = (Run.exec step (start config entries foreign) calls).mem.tables := by
    rw [hs]
    exact (idle_enter _).tables
  obtain ⟨i, o, hf, hi, ho, rfl⟩ := Session.held_some hv
  obtain ⟨-, -, rfl, bo, hbo, hpos⟩ := S.client.holding.slot ho
  rw [hi, hc, hid] at hbo hvisited
  have hsize := (S.mem.size_eq hbo).1
  have hcount : s.mem.size (.buffer c h) / 4096 = (s.mem.pages (.buffer c h)).length := by
    rw [Memory.size, hbo]
    dsimp only
    omega
  rw [hcount] at hvisited
  -- the first page has a table
  have hfirst : ∃ q, q ∈ PageTables.rangeTables address (s.mem.pages (.buffer c h)).length := by
    refine ⟨(PageTables.path (address + 0 * 4096)).take 1, PageTables.mem_rangeTables.mpr
      ⟨0, by omega, ?_⟩⟩
    exact List.mem_map.mpr ⟨1, List.mem_cons_self, rfl⟩
  obtain ⟨q₀, hq₀⟩ := hfirst
  obtain ⟨-, -, pt, hpt, -⟩ := (hvisited q₀ hq₀).hasTable hx
  have hmissing : pt.missing address (s.mem.pages (.buffer c h)).length = [] := by
    refine List.filter_eq_nil_iff.mpr fun q hq => ?_
    obtain ⟨-, -, pt', hpt', hhas⟩ := (hvisited q hq).hasTable hx
    obtain rfl := Option.some.inj (hpt.symm.trans hpt')
    simp [hhas]
  obtain ⟨-, -, nodes, R⟩ := I.mem.tables hpt
  rw [Session.Room, hc, hid, htables, hpt]
  dsimp only
  rw [hmissing]
  exact R.room

set_option maxRecDepth 10000 in
/-- Once the buffer is unbound again it can be bound both at 1 MiB and at 1 GiB. -/
theorem unbound_bindOnce {calls : List (Call × Oracle)} {d : Device}
    (hcalls : bindOnce ++ [(.ioctl 0 ⟨16, 8, 16⟩ (.unbindVirtual 1 0), .unfailing)] = calls)
    (hd : Run.exec step (start Config.render (fun _ => 0) []) calls = d) :
    ∃ x, d.clients 0 = some x ∧ x.Renders ∧ (d.entered x).held 1 = some ⟨8192, 0, false⟩ ∧
      (∀ a, Placement.Free (Held.sizes (d.entered x).held) (Held.addresses (d.entered x).held)
        (1, a)) ∧
      (d.entered x).mem.InReach (.buffer 0 1) ∧ ∀ a ∈ [0x100000, 0x40000000],
        ((d.entered x).ioctl .unfailing ⟨24, 8, 24⟩ (.bindVirtual 1 0 a)).2.mem.os.faults =
          (d.entered x).mem.os.faults := by
  have h : (d.clients 0).any (fun x => x.nativeRender && !x.native.any (·.faulted) &&
      (List.range kMaxBuffers).all (fun i => (d.entered x).address i == 0) &&
      ((d.entered x).held 1).map (fun v => (v.size, v.address, v.bound)) == some (8192, 0, false) &&
      ((d.entered x).mem.pages (.buffer 0 1)).all (fun p => !unaddressable p) &&
      [0x100000, 0x40000000].all fun a =>
        ((d.entered x).ioctl .unfailing ⟨24, 8, 24⟩ (.bindVirtual 1 0 a)).2.mem.os.faults ==
          (d.entered x).mem.os.faults) = true := by
    subst hd
    subst hcalls
    decide +kernel
  obtain ⟨x, hx, h⟩ := (Option.any_eq_true _ _).mp h
  simp only [Bool.and_eq_true, Bool.not_eq_true', beq_iff_eq, Option.map_eq_some_iff, Prod.mk.injEq,
    List.all_eq_true, List.mem_range] at h
  obtain ⟨⟨⟨⟨⟨hrender, hfaulted⟩, hunbound⟩, ⟨_, _, _⟩, hv, rfl, rfl, rfl⟩, hreach⟩, hquiet⟩ := h
  obtain ⟨g, I⟩ := exec_inv Config.render (fun _ => 0) [] calls
  rw [hd] at I
  have S := I.entered hx
  refine ⟨x, hx, ⟨hrender, hfaulted⟩, hv, fun a k _ hmeets => ?_, hreach, hquiet⟩
  obtain ⟨i, o, -, ho, hi⟩ := Session.addresses_ne hmeets.1
  exact hi (hunbound i (S.client.holding.slot ho).1)

/-- The buffer is unbound and bound where it was. -/
theorem exec_rebind_bindOnce :
    let d := Run.exec step (start Config.render (fun _ => 0) [])
      (bindOnce ++ [(.ioctl 0 ⟨16, 8, 16⟩ (.unbindVirtual 1 0), .unfailing)])
    ∃ x, d.clients 0 = some x ∧
      ((d.entered x).ioctl .unfailing ⟨24, 8, 24⟩ (.bindVirtual 1 0 0x100000)).1 = .ok .none := by
  generalize hcalls : bindOnce ++ _ = calls
  intro d
  obtain ⟨x, hx, hrenders, hv, hfree, hreach, hquiet⟩ := unbound_bindOnce hcalls (d := d) rfl
  exact ⟨x, hx, exec_rebind Config.render (fun _ => 0) [] _ hx rfl hrenders hv rfl (.inl rfl)
    (by decide) (by decide) (by decide) (hfree _) hreach
    (fun q hq => hcalls ▸ visited_bindOnce _ hq) Prod.mk.eta.symm
    (hquiet _ (List.mem_cons_self ..))⟩

end Device
end IntelGfx
