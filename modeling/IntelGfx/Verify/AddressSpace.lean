import IntelGfx.Verify.Device

/-!
# The virtual address space of a client

A physical page is in one area only, so the pages that the page tables of a client show tell which
buffer is bound where, and what is not bound shows the scratch page (`exec_exact`).
-/

namespace IntelGfx
open Memory RenderEngine

namespace Memory
variable {g : GlobalGTT} {m : Memory} {o o' : Owner}

/-- A physical page belongs to one buffer object, at one place. -/
theorem Inv.page_unique (H : m.Inv g) {bo bo' : BufferObject Owner} (h : m.objects o = some bo)
    (h' : m.objects o' = some bo') {k k' p : Nat} (hk : (m.pages o)[k]? = some p)
    (hk' : (m.pages o')[k']? = some p) : o = o' ∧ k = k' := by
  obtain ⟨-, a, -, ha⟩ := H.size_eq h
  obtain ⟨-, a', -, ha'⟩ := H.size_eq h'
  obtain rfl := H.os.disjoint ha ha' (List.mem_of_getElem? hk) (List.mem_of_getElem? hk')
  obtain rfl : o = o' := congrArg Area.owner (Option.some.inj (ha.symm.trans ha'))
  obtain ⟨hlt, hget⟩ := List.getElem?_eq_some_iff.mp hk
  obtain ⟨hlt', hget'⟩ := List.getElem?_eq_some_iff.mp hk'
  exact ⟨rfl, (H.os.nodup ha).getElem_inj_iff.mp (hget.trans hget'.symm)⟩

/-- The scratch page of page tables is no page of a buffer object. -/
theorem Inv.scratchPage_ne (H : m.Inv g) {pt : PageTables Owner} (hpt : m.tables o = some pt)
    {bo : BufferObject Owner} (h : m.objects o' = some bo) {k : Nat} :
    (m.pages o')[k]? ≠ some pt.scratchPage := by
  intro hk
  obtain ⟨ht, how, nodes, R⟩ := H.tables hpt
  obtain ⟨a, -, ha⟩ := R.scratchArea
  obtain ⟨-, a', -, ha'⟩ := H.size_eq h
  obtain rfl := H.os.disjoint ha ha' List.mem_cons_self (List.mem_of_getElem? hk)
  have heq : pt.owner = o' := congrArg Area.owner (Option.some.inj (ha.symm.trans ha'))
  exact ht.not_isObject (how.symm.trans heq ▸ (H.object h).1)

end Memory

/-- The page tables of a client show page `k` of the buffer in slot `s` where that page is bound and
nowhere else, and the scratch page at every other address. -/
structure Shared (x : RenderClient) (n : NativeState) (m : Memory) (pt : PageTables Owner) :
    Prop where
  page : ∀ {a}, a < 2 ^ 48 → ∀ s k,
    (∃ o, x.buffers s = some o ∧ (m.pages o)[k]? = some (pt.translate a)) ↔
      n.addresses s ≠ 0 ∧ (∃ o, x.buffers s = some o ∧ k < (m.pages o).length) ∧
        n.addresses s + k * 4096 ≤ a ∧ a < n.addresses s + (k + 1) * 4096
  scratch : ∀ {a}, a < 2 ^ 48 → (∀ s, ¬ InWindow x.buffers n.addresses m s a) →
    pt.translate a = pt.scratchPage
  window : ∀ {s}, n.addresses s ≠ 0 → ∃ o bo, x.buffers s = some o ∧ m.objects o = some bo ∧
    bo.size = (m.pages o).length * 4096 ∧ n.addresses s % 4096 = 0 ∧
    n.addresses s + bo.size ≤ kVirtualAddressLimit ∧ bo.bound = false
  apart : ∀ {s t a}, InWindow x.buffers n.addresses m s a → InWindow x.buffers n.addresses m t a →
    s = t

namespace Shared
variable {g : GlobalGTT} {x : RenderClient} {n : NativeState} {m : Memory}
  {pt : PageTables Owner}

theorem of_inv (H : m.Inv g) (C : x.Inv m) (hn : x.native = some n)
    (hpt : m.tables (.vm x.id) = some pt) : Shared x n m pt := by
  have N := C.native
  rw [hn] at N
  obtain ⟨-, -, pt', hpt', E⟩ := N
  obtain rfl := Option.some.inj (hpt.symm.trans hpt')
  refine ⟨fun {a} ha s k => ⟨fun ⟨o, ho, hk⟩ => ?_, fun ⟨hs, ⟨o, ho, hk⟩, hle, hlt⟩ => ?_⟩,
    fun ha => E.blank ha, fun {s} hs => ?_, E.apart⟩
  · obtain ⟨-, -, -, bo, hbo, -⟩ := C.holding.slot ho
    by_cases hw : ∃ t, InWindow x.buffers n.addresses m t a
    · obtain ⟨t, ht, o', ho', hle, hlt⟩ := hw
      obtain ⟨-, -, -, bo', hbo', -⟩ := C.holding.slot ho'
      obtain ⟨rfl, rfl⟩ := H.page_unique hbo' hbo (E.shown ht ho' hle hlt) hk
      obtain rfl := C.holding.inj ho' ho
      obtain ⟨hsize, -⟩ := H.size_eq hbo
      have hlt : a < n.addresses t + bo.size := by rwa [Memory.size, hbo] at hlt
      exact ⟨ht, ⟨o', ho, by omega⟩, by omega, by omega⟩
    · rw [E.blank ha (not_exists.mp hw)] at hk
      exact absurd hk (H.scratchPage_ne hpt hbo)
  · obtain ⟨-, -, -, bo, hbo, -⟩ := C.holding.slot ho
    obtain ⟨hsize, -⟩ := H.size_eq hbo
    have hin : a < n.addresses s + m.size o := by
      rw [Memory.size, hbo]
      change a < n.addresses s + bo.size
      omega
    have hshown := E.shown hs ho (by omega) hin
    rw [show (a - n.addresses s) / 4096 = k by omega] at hshown
    exact ⟨o, ho, hshown⟩
  · obtain ⟨o, bo, ho, hbo, hb, halign, hlimit⟩ := E.slot hs
    exact ⟨o, bo, ho, hbo, (H.size_eq hbo).1, halign, hlimit, hb⟩

end Shared

namespace Device

/-- Whatever a client and the other users of the device have done: the page tables of its native
state show the buffers that are bound virtually, each where it is bound, and nothing else. An
`Oracle` is relied on to take the page tables from below `2 ^ 39`. -/
theorem exec_exact (config : Config) (entries : Nat → Nat) (foreign : List Nat)
    (calls : List (Call × Oracle)) {c : Nat} {x : RenderClient} {n : NativeState}
    (hx : (Run.exec step (start config entries foreign) calls).clients c = some x)
    (hn : x.native = some n) :
    ∃ pt, (Run.exec step (start config entries foreign) calls).mem.tables (.vm c) = some pt ∧
      Shared x n (Run.exec step (start config entries foreign) calls).mem pt := by
  obtain ⟨g, I⟩ := exec_inv config entries foreign calls
  obtain ⟨-, rfl, S⟩ := I.client hx
  have N : NativeInv x.id x.buffers _ x.native := S.client.native
  rw [hn] at N
  obtain ⟨-, -, pt, hpt, -⟩ := N
  exact ⟨pt, hpt, .of_inv S.mem S.client hn hpt⟩

/-- A device where the driver has enough pages of the global GTT for both engines. -/
def Config.render : Config := ⟨0x1000000, 0x1000000, 9, 0x200000, 0x3ffa0000, true⟩

set_option maxRecDepth 10000 in
/-- A buffer of two pages is bound at 1 MiB: its second page is shown a page further. -/
theorem exec_exact_bindVirtual :
    let d := Run.exec step (start Config.render (fun _ => 0) [])
      [(.open, .unfailing), (.ioctl 0 ⟨32, 8, 32⟩ (.createBuffer 8192 0 0), .unfailing),
        (.ioctl 0 ⟨24, 8, 24⟩ (.bindVirtual 1 0 0x100000), .unfailing)]
    ∃ pt, d.mem.tables (.vm 0) = some pt ∧
      (d.mem.pages (.buffer 0 1))[1]? = some (pt.translate 0x101000) := by
  intro d
  have h : (d.clients 0).bind (fun x => x.native.map fun n =>
      (x.buffers 0, n.addresses 0, (d.mem.pages (.buffer 0 1)).length)) =
        some (some (.buffer 0 1), 0x100000, 2) := by
    decide +kernel
  obtain ⟨x, hx, h⟩ := Option.bind_eq_some_iff.mp h
  obtain ⟨n, hn, h⟩ := Option.map_eq_some_iff.mp h
  obtain ⟨ho, h⟩ := Prod.mk.inj h
  obtain ⟨ha, hlen⟩ := Prod.mk.inj h
  obtain ⟨pt, hpt, S⟩ := exec_exact Config.render (fun _ => 0) [] _ hx hn
  obtain ⟨o, ho', hk⟩ := (S.page (a := 0x101000) (by decide) 0 1).mpr
    ⟨ha ▸ by decide, ⟨_, ho, hlen ▸ by decide⟩, ha ▸ by decide, ha ▸ by decide⟩
  obtain rfl := Option.some.inj (ho.symm.trans ho')
  exact ⟨pt, hpt, hk⟩

end Device

end IntelGfx
