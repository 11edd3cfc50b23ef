import IntelGfx.Kernel.Memory
import IntelGfx.Verify.BufferObject
import IntelGfx.Verify.PageTables

/-!
# The invariant of the memory

`Memory.Inv` puts together what holds of the buffer objects and of the page tables, and `Moves K`
says that an operation keeps it and touches nothing but what belongs to the owners in `K`. There is
one lemma for each operation on the memory.
-/

namespace IntelGfx

/-- Owners of buffer objects. -/
def Owner.IsObject : Owner → Prop
  | .part .. | .buffer .. => True
  | _ => False

/-- Owners of page tables. -/
def Owner.IsTables : Owner → Prop
  | .ownTables _ | .vm _ => True
  | _ => False

theorem Owner.isObject_part (x : ContextId) (p : Part) : (part x p).IsObject := trivial
theorem Owner.isObject_buffer (c h : Nat) : (buffer c h).IsObject := trivial
theorem Owner.isTables_vm (c : Nat) : (vm c).IsTables := trivial

theorem Owner.IsTables.not_isObject {o : Owner} (h : o.IsTables) : ¬ o.IsObject := by
  cases o <;> simp_all [IsObject, IsTables]

namespace Memory
variable {ω : Oracle} {g : GlobalGTT} {m m' m'' : Memory} {o : Owner} {K K' : Owner → Prop}

/-- The physical pages of a buffer object. -/
def pages (m : Memory) (o : Owner) : List Nat := ((m.area o).bind m.os.find).elim [] (·.pages)

theorem pages_eq {bo : BufferObject Owner} {a : Nat} {ar : Area Owner}
    (h : m.objects o = some bo) (ha : bo.area = some a) (har : m.os.find a = some ar) :
    m.pages o = ar.pages := by simp [pages, area, h, ha, har]

theorem pages_congr (hobj : m'.objects = m.objects) (hmach : m'.machine = m.machine) :
    m'.pages o = m.pages o := by
  rw [pages, pages, Memory.area, Memory.area, Memory.os, Memory.os, hobj, hmach]

structure Inv (g : GlobalGTT) (m : Memory) : Prop where
  aperture : Aperture.Inv g m.machine m.objects
  object : ∀ {o bo}, m.objects o = some bo → o.IsObject ∧ bo.area ≠ none
  tables : ∀ {o pt}, m.tables o = some pt → o.IsTables ∧ pt.owner = o ∧ ∃ nodes, pt.Rep m.os nodes
  scratch : ∀ {a}, m.gtt.scratchArea = some a → a < m.os.nextArea ∧
    ∀ ar, m.os.find a = some ar → ar.owner = .gtt

/-- The invariant still holds, and what does not belong to `K` is as it was. -/
structure Moves (g : GlobalGTT) (K : Owner → Prop) (m m' : Memory) : Prop where
  inv : Inv g m'
  os : Os.Changes K m.os m'.os
  objects : ∀ {o}, ¬ K o → m'.objects o = m.objects o
  tables : ∀ {o}, ¬ K o → m'.tables o = m.tables o

namespace Moves

theorem rfl (H : Inv g m) : Moves g K m m := ⟨H, .rfl, fun _ => Eq.refl _, fun _ => Eq.refl _⟩

theorem mono (h : Moves g K m m') (hK : ∀ o, K o → K' o) : Moves g K' m m' :=
  ⟨h.inv, h.os.mono hK, fun ho => h.objects fun hk => ho (hK _ hk),
    fun ho => h.tables fun hk => ho (hK _ hk)⟩

theorem trans (h : Moves g K m m') (h' : Moves g K m' m'') : Moves g K m m'' :=
  ⟨h'.inv, h.os.trans h'.os, fun ho => (h'.objects ho).trans (h.objects ho),
    fun ho => (h'.tables ho).trans (h.tables ho)⟩

end Moves

namespace Inv

theorem os (H : Inv g m) : m.os.WF := H.aperture.os

theorem holds (H : Inv g m) {pt : PageTables Owner} (h : m.tables o = some pt) :
    pt.Holds m.os := by
  obtain ⟨-, -, nodes, R⟩ := H.tables h
  exact R.holds H.os

theorem scratch_changes {gtt : GlobalGTT} {os' : Os Owner} (H : Inv g m)
    (hg : gtt.scratchArea = m.gtt.scratchArea) (C : Os.Changes K m.os os') {a : Nat}
    (ha : gtt.scratchArea = some a) :
    a < os'.nextArea ∧ ∀ ar, os'.find a = some ar → ar.owner = .gtt := by
  obtain ⟨hlt, how⟩ := H.scratch (hg ▸ ha)
  refine ⟨hlt.trans_le C.next, fun ar har => ?_⟩
  rcases C.added har with har | ⟨-, hle⟩
  · exact how ar har
  · omega

theorem gtt_scratchArea (H : Inv g m) (H' : Aperture.Inv g m'.machine m'.objects) :
    m'.gtt.scratchArea = m.gtt.scratchArea := by
  rw [Memory.gtt, Memory.gtt, H.aperture.rest, H'.rest]

/-- An operation on the buffer object `o` and the aperture. -/
theorem moves_object {objects : Owner → Option (BufferObject Owner)} {machine : Machine Owner}
    (H : Inv g m) (ho : o.IsObject) (H' : Aperture.Inv g machine objects)
    (C : Os.Changes (· = o) m.os machine.os) (hrest : ∀ o', o' ≠ o → objects o' = m.objects o')
    (harea : ∀ bo, objects o = some bo → bo.area ≠ none) :
    Moves g (· = o) m ⟨machine, objects, m.tables⟩ := by
  refine ⟨⟨H', fun {o' bo} hbo => ?_, fun {o' pt} hpt => ?_, ?_⟩, C, fun h => hrest _ h,
    fun _ => rfl⟩
  · by_cases h : o' = o
    · subst h
      exact ⟨ho, harea bo hbo⟩
    · exact H.object ((hrest o' h).symm.trans hbo)
  · obtain ⟨ht, hown, nodes, R⟩ := H.tables hpt
    refine ⟨ht, hown, nodes, R.changes C ?_⟩
    rintro rfl
    exact ht.not_isObject (hown ▸ ho)
  · exact H.scratch_changes
      (H.gtt_scratchArea
        (show Aperture.Inv g (Memory.mk machine objects m.tables).machine _ from H')) C

/-- An operation on the page tables `o` and their areas. -/
theorem moves_tables {os' : Os Owner} {b : Option (PageTables Owner)} (H : Inv g m)
    (ho : o.IsTables) (hwf : os'.WF) (C : Os.Changes (· = o) m.os os')
    (hb : ∀ pt, b = some pt → pt.owner = o ∧ ∃ nodes, pt.Rep os' nodes) :
    Moves g (· = o) m ((m.setOs os').setTables o b) := by
  have hne : ∀ o' bo, m.objects o' = some bo → o' ≠ o := by
    rintro o' bo hbo rfl
    exact ho.not_isObject (H.object hbo).1
  refine ⟨⟨H.aperture.changes C hwf hne, H.object, fun {o' pt} hpt => ?_,
    H.scratch_changes rfl C⟩, C, fun _ => rfl, fun {o'} ho' => Function.update_of_ne ho' _ _⟩
  simp only [setTables, Function.update_apply] at hpt
  split at hpt
  · next heq =>
    subst heq
    exact ⟨ho, hb pt hpt⟩
  · next hne' =>
    obtain ⟨ht, hown, nodes, R⟩ := H.tables hpt
    exact ⟨ht, hown, nodes, R.changes C (hown ▸ hne')⟩

theorem moves_os {os' : Os Owner} (H : Inv g m) (S : Os.Same m.os os') :
    Moves g K m (m.setOs os') := by
  refine ⟨⟨H.aperture.same S, H.object, fun hpt => ?_,
    H.scratch_changes (K := K) rfl S.changes⟩, S.changes, fun _ => rfl, fun _ => rfl⟩
  obtain ⟨ht, hown, nodes, R⟩ := H.tables hpt
  exact ⟨ht, hown, nodes, R.keeps S.find.trans⟩

/-- The size of a buffer object is that of its pages. -/
theorem size_eq (H : Inv g m) {bo : BufferObject Owner} (h : m.objects o = some bo) :
    bo.size = (m.pages o).length * 4096 ∧ ∃ a, bo.area = some a ∧
      m.os.find a = some ⟨o, m.pages o⟩ := by
  obtain ⟨a, ha⟩ := Option.ne_none_iff_exists'.mp (H.object h).2
  obtain ⟨ar, har, rfl, hs⟩ := (H.aperture.valid h).area ha
  have hp := pages_eq h ha har
  exact ⟨by rw [hp, hs], a, ha, by rw [hp]; exact har⟩

end Inv

/-- Where a bound buffer object is. -/
theorem Inv.bound_at (H : Inv g m) {bo : BufferObject Owner} (h : m.objects o = some bo)
    (hb : bo.bound = true) : ∃ first, bo.graphicsAddress = (m.gtt.firstPage + first) * 4096 ∧
      0 < (m.pages o).length ∧ m.gtt.Maps first (m.pages o) := by
  obtain ⟨a, ar, first, ha, har, -, -, haddr, hpos, hmaps, -⟩ := (H.aperture.valid h).bound_at hb
  have W := H.aperture.gtt (H.aperture.bound h hb)
  rw [pages_eq h ha har]
  refine ⟨first, ?_, hpos, hmaps⟩
  rw [haddr, W.base, Nat.add_mul]
  rfl

/-- Two bound buffer objects are never in one place. -/
theorem Inv.apart (H : Inv g m) {o' : Owner} {bo bo' : BufferObject Owner} {x : Nat}
    (h : m.objects o = some bo) (h' : m.objects o' = some bo') (hb : bo.bound = true)
    (hb' : bo'.bound = true) (hx : bo.graphicsAddress ≤ x ∧ x < bo.graphicsAddress + bo.size)
    (hx' : bo'.graphicsAddress ≤ x ∧ x < bo'.graphicsAddress + bo'.size) : o = o' := by
  have W := H.aperture.gtt (H.aperture.bound h hb)
  obtain ⟨first, haddr, -⟩ := H.bound_at h hb
  obtain ⟨first', haddr', -⟩ := H.bound_at h' hb'
  have hbase : m.machine.gtt.base = m.machine.gtt.firstPage * 4096 := W.base
  unfold Memory.gtt at haddr haddr'
  refine H.aperture.apart (p := x / 4096 - m.machine.gtt.firstPage) h h' ⟨hb, ?_⟩ ⟨hb',
    ?_⟩ <;> omega

/-- What the global GTT resolves an address to where a buffer object is bound. -/
theorem Inv.lookup (H : Inv g m) {bo : BufferObject Owner} {x p : Nat} (h : m.objects o = some bo)
    (hb : bo.bound = true) (hx : bo.graphicsAddress ≤ x ∧ x < bo.graphicsAddress + bo.size)
    (hp : m.gtt.lookup (x / 4096 * 4096) = .ok p) :
    (m.pages o)[(x - bo.graphicsAddress) / 4096]? = some p := by
  obtain ⟨first, haddr, -, hmaps⟩ := H.bound_at h hb
  obtain ⟨hsize, -⟩ := H.size_eq h
  refine hmaps.lookup (by omega) ?_
  rwa [show m.gtt.firstPage + (first + (x - bo.graphicsAddress) / 4096) = x / 4096 by omega]

/-- What others do does not change the pages of a buffer object. -/
theorem Moves.pages {g₀ : GlobalGTT} (h : Moves g K m m') (H : Inv g₀ m)
    (ho : ¬ K o) : m'.pages o = m.pages o := by
  cases hbo : m.objects o with
  | none => simp [Memory.pages, Memory.area, h.objects ho, hbo]
  | some bo =>
    obtain ⟨-, a, ha, har⟩ := H.size_eq hbo
    exact pages_eq ((h.objects ho).trans hbo) ha (h.os.kept har ho)

/-! ## Buffer objects -/

variable {r : Except Error Unit} {bo : BufferObject Owner}

theorem newObject_spec {size : Nat} (H : Inv g m) (hk : o.IsObject) (ho : m.objects o = none)
    (hs : size % 4096 = 0) (h : m.newObject ω o size = (r, m')) :
    Moves g (· = o) m m' ∧ m'.tables = m.tables ∧ m'.gtt = m.gtt ∧
      (∀ e, r = .error e → m'.objects = m.objects) ∧
      (r = .ok () → ∃ bo, m'.objects = Function.update m.objects o (some bo) ∧ bo.bound = false ∧
        bo.size = size) := by
  unfold newObject at h
  split at h
  · next hi =>
    obtain ⟨rfl, S⟩ := BufferObject.init_error hi
    cases h
    exact ⟨H.moves_os S, rfl, rfl, fun _ _ => rfl, nofun⟩
  · next bo os' hi =>
    have H' := H.aperture.create ho hs hi
    obtain ⟨a, hc, rfl⟩ := BufferObject.init_ok hi
    cases h
    refine ⟨H.moves_object hk H' (Os.changes_createArea rfl hc H.os)
      (fun o' h => Function.update_of_ne h _ _) ?_, rfl, rfl, nofun,
      fun _ => ⟨_, rfl, rfl, rfl⟩⟩
    rintro bo hbo
    rw [Function.update_self] at hbo
    cases hbo
    exact Option.some_ne_none a

theorem bindObject_spec (H : Inv g m) (h : m.bindObject ω o = (r, m')) :
    Moves g (· = o) m m' ∧ m'.tables = m.tables ∧ Os.Same m.os m'.os ∧
      (∀ e, r = .error e → m'.objects = m.objects ∧ m'.gtt = m.gtt) ∧
      (r = .ok () → ∃ bo first, m.objects o = some bo ∧ bo.bound = false ∧
        m'.objects = Function.update m.objects o
          (some { bo with bound := true, graphicsAddress := m.gtt.base + first * 4096 }) ∧
        m.gtt.Free (m.pages o).length first ∧
        GlobalGTT.Frame first (m.pages o).length m.gtt m'.gtt) := by
  unfold bindObject at h
  split at h
  · cases h
    exact ⟨.rfl H, rfl, .rfl, fun _ _ => ⟨rfl, rfl⟩, nofun⟩
  next bo ho =>
  generalize hb : bo.bind ω m.machine = res at h
  obtain ⟨status, bo', machine⟩ := res
  simp only [Prod.mk.injEq] at h
  obtain ⟨rfl, rfl⟩ := h
  have H' := H.aperture.bind ho hb
  have hrest : ∀ o', o' ≠ o → Function.update m.objects o (some bo') o' = m.objects o' :=
    fun o' h => Function.update_of_ne h _ _
  cases status with
  | error e =>
    obtain ⟨rfl, S, hg, -⟩ := H.aperture.bind_error ho hb
    have hupd : Function.update m.objects o (some bo') = m.objects :=
      Function.update_eq_self_iff.mpr ho.symm
    refine ⟨H.moves_object (H.object ho).1 H' S.changes hrest fun bo h => ?_, rfl, S,
      fun _ _ => ⟨hupd, hg⟩, nofun⟩
    rw [hupd] at h
    exact (H.object h).2
  | ok u =>
    obtain ⟨S, hub, -, a, ar, first, ha, har, -, rfl, hfree, -, hF, -⟩ := H.aperture.bind_ok ho hb
    have hp : m.pages o = ar.pages := pages_eq ho ha har
    refine ⟨H.moves_object (H.object ho).1 H' S.changes hrest fun bo h => ?_, rfl, S, nofun,
      fun _ => ⟨bo, first, ho, hub, rfl, hp ▸ hfree, hp ▸ hF⟩⟩
    rw [Function.update_self] at h
    cases h
    exact (H.object ho).2

theorem unbindObject_spec (H : Inv g m) (ho : m.objects o = some bo)
    (h : m.unbindObject o = (r, m')) : ∃ bo',
      Moves g (· = o) m m' ∧ m'.tables = m.tables ∧ m'.os = m.os ∧
      m'.objects = Function.update m.objects o (some bo') ∧ bo'.bound = false ∧
      bo'.size = bo.size ∧ bo'.area = bo.area := by
  unfold unbindObject at h
  simp only [ho] at h
  generalize hb : bo.unbind m.machine = res at h
  obtain ⟨status, bo', machine⟩ := res
  simp only [Prod.mk.injEq] at h
  obtain ⟨rfl, rfl⟩ := h
  obtain ⟨H', hos, hub, harea, -⟩ := H.aperture.unbind ho hb
  have hsize : bo'.size = bo.size := by
    unfold BufferObject.unbind at hb
    split at hb <;> cases hb <;> rfl
  refine ⟨bo', H.moves_object (H.object ho).1 H' (hos ▸ .rfl)
    (fun o' h => Function.update_of_ne h _ _) fun bo h => ?_, rfl, hos, rfl, hub, hsize, harea⟩
  rw [Function.update_self] at h
  cases h
  rw [harea]
  exact (H.object ho).2

theorem deleteObject_spec (H : Inv g m) (o : Owner) :
    Moves g (· = o) m (m.deleteObject o) ∧ (m.deleteObject o).tables = m.tables ∧
      (m.deleteObject o).objects = Function.update m.objects o none := by
  unfold deleteObject
  split
  · next ho => exact ⟨.rfl H, rfl, (Function.update_eq_self_iff.mpr ho.symm).symm⟩
  · next bo ho =>
    refine ⟨H.moves_object (H.object ho).1 (H.aperture.destroy ho) (H.aperture.destroy_changes ho)
      (fun o' h => Function.update_of_ne h _ _) fun bo h => ?_, rfl, rfl⟩
    rw [Function.update_self] at h
    cases h

/-! ## Page tables -/

variable {pt : PageTables Owner} {address size done : Nat}

theorem newTables_spec (H : Inv g m) (hk : o.IsTables) (ho : m.tables o = none)
    (h : m.newTables ω o = (r, m')) :
    Moves g (· = o) m m' ∧ m'.objects = m.objects ∧ m'.gtt = m.gtt ∧
      (∀ e, r = .error e → m'.tables = m.tables) ∧
      (r = .ok () → ∃ pt, m'.tables = Function.update m.tables o (some pt) ∧
        ∀ a, pt.translate a = pt.scratchPage) := by
  unfold newTables at h
  split at h
  · next e pt os' hi =>
    cases h
    obtain ⟨hh, hwf, C, how⟩ := PageTables.init_holds H.os hi
    have M := H.moves_tables (b := none) hk (hwf.deleteAreas pt.areas)
      (C.trans (how ▸ PageTables.destroy_changes hh)) nofun
    have hupd : Function.update m.tables o none = m.tables :=
      Function.update_eq_self_iff.mpr ho.symm
    rw [setTables, setOs, hupd] at M
    exact ⟨M, rfl, rfl, fun _ _ => rfl, nofun⟩
  · next pt os' hi =>
    cases h
    obtain ⟨R, hwf, C, how, htr⟩ := PageTables.init_ok H.os hi
    refine ⟨H.moves_tables hk hwf C ?_, rfl, rfl, nofun, fun _ => ⟨pt, rfl, htr⟩⟩
    rintro _ ⟨⟩
    exact ⟨how, _, R⟩

/-- What became of a request to map the pages of an area. -/
theorem map_spec {area : Option Nat} (H : Inv g m)
    (h : m.map ω o area address = (r, done, m')) :
    Moves g (· = o) m m' ∧ m'.objects = m.objects ∧ m'.gtt = m.gtt ∧
      ∀ pt nodes a ar, m.tables o = some pt → pt.Rep m.os nodes → area = some a →
        m.os.find a = some ar → ∃ pt' nodes', m'.tables = Function.update m.tables o (some pt') ∧
          PageTables.Mapped (address % 4096 ≠ 0 ∨ 2 ^ 48 ≤ address ∨
            2 ^ 48 < address + ar.pages.length * 4096) pt m.os nodes
              (PageTables.areaPage ar) address
            ar.pages.length r done pt' m'.os nodes' := by
  unfold map at h
  split at h
  · next pt a hpt =>
    generalize hm : pt.map ω m.os a address = res at h
    obtain ⟨status, done, pt', os'⟩ := res
    simp only [Prod.mk.injEq] at h
    obtain ⟨rfl, rfl, rfl⟩ := h
    obtain ⟨hk, how, nodes, R⟩ := H.tables hpt
    cases har : m.os.find a with
    | none =>
      obtain ⟨e, he⟩ := PageTables.map_not_found ω pt address har
      simp only [he, Prod.mk.injEq] at hm
      obtain ⟨-, -, rfl, rfl⟩ := hm
      refine ⟨H.moves_tables hk H.os .rfl ?_, rfl, rfl, ?_⟩
      · rintro _ ⟨⟩
        exact ⟨how, _, R⟩
      · rintro _ _ b ar - - ⟨⟩ hb
        rw [har] at hb
        cases hb
    | some ar =>
      obtain ⟨nodes', M⟩ := PageTables.map_spec R H.os har hm
      refine ⟨H.moves_tables hk M.grown.wf (how ▸ M.grown.changes) ?_, rfl, rfl, ?_⟩
      · rintro _ ⟨⟩
        exact ⟨M.grown.owner.trans how, _, M.grown.rep⟩
      · rintro pt₁ nodes₁ b ar₁ h₁ R₁ ⟨⟩ har₁
        cases h₁.symm.trans hpt
        cases har₁.symm.trans har
        obtain ⟨nodes', M⟩ := PageTables.map_spec R₁ H.os har hm
        exact ⟨pt', nodes', rfl, M⟩
  · next hne =>
    cases h
    exact ⟨.rfl H, rfl, rfl, fun pt _ a ar hpt _ ha _ => absurd ha (hne pt a hpt)⟩

theorem mapPhysical_spec {physical : Nat} (H : Inv g m)
    (h : m.mapPhysical ω o address physical size = (r, m')) :
    Moves g (· = o) m m' ∧ m'.objects = m.objects ∧ m'.gtt = m.gtt ∧
      ∀ pt nodes, m.tables o = some pt → pt.Rep m.os nodes → ∃ done pt' nodes',
        m'.tables = Function.update m.tables o (some pt') ∧
        PageTables.Mapped (address % 4096 ≠ 0 ∨ physical % 4096 ≠ 0 ∨ 2 ^ 48 ≤ address ∨
          2 ^ 48 - address < size ∨ size % 4096 ≠ 0) pt m.os nodes
          (fun k => (physical + k * 4096) % 2 ^ 64) address
            (size / 4096) r done pt' m'.os nodes' := by
  unfold mapPhysical at h
  split at h
  · next hpt =>
    cases h
    exact ⟨.rfl H, rfl, rfl, fun pt _ h => by simp [hpt] at h⟩
  · next pt hpt =>
    generalize hm : pt.mapPhysical ω m.os address physical size = res at h
    obtain ⟨status, done, pt', os'⟩ := res
    simp only [Prod.mk.injEq] at h
    obtain ⟨rfl, rfl⟩ := h
    obtain ⟨hk, how, nodes, R⟩ := H.tables hpt
    obtain ⟨nodes', M⟩ := PageTables.mapPhysical_spec R H.os hm
    refine ⟨H.moves_tables hk M.grown.wf (how ▸ M.grown.changes) ?_, rfl, rfl, ?_⟩
    · rintro _ ⟨⟩
      exact ⟨M.grown.owner.trans how, _, M.grown.rep⟩
    · rintro _ nodes₁ h₁ R₁
      cases h₁.symm.trans hpt
      obtain ⟨nodes', M⟩ := PageTables.mapPhysical_spec R₁ H.os hm
      exact ⟨done, pt', nodes', rfl, M⟩

/-- Page tables that are changed without a call. -/
theorem Inv.moves_update {pt' : PageTables Owner} (H : Inv g m) (hpt : m.tables o = some pt)
    (h : ∀ nodes, pt.Rep m.os nodes → pt'.owner = pt.owner ∧ pt'.Rep m.os nodes) :
    Moves g (· = o) m (m.setTables o (some pt')) := by
  obtain ⟨hk, how, nodes, R⟩ := H.tables hpt
  obtain ⟨how', R'⟩ := h nodes R
  have M : Moves g (· = o) m ((m.setOs m.os).setTables o (some pt')) :=
    H.moves_tables hk H.os .rfl fun _ h => by
      cases h
      exact ⟨how'.trans how, nodes, R'⟩
  exact M

theorem unmap_spec (H : Inv g m) (h : m.unmap ω o address size = (r, m')) :
    Moves g (· = o) m m' ∧ m'.objects = m.objects ∧ m'.machine = m.machine ∧
      ∀ pt, m.tables o = some pt → ∃ pt', m'.tables = Function.update m.tables o (some pt') ∧
        pt'.fixed = pt.fixed ∧ (∀ nodes, pt.Rep m.os nodes → pt'.Rep m.os nodes) ∧
        (r = .ok () ↔ address % 4096 = 0 ∧ address < 2 ^ 48 ∧ size ≤ 2 ^ 48 - address) ∧
        ∀ a, a < 2 ^ 48 → pt'.translate a =
          if r = .ok () ∧ address ≤ a ∧ a < address + pageRound size then pt.scratchPage
          else pt.translate a := by
  unfold unmap at h
  split at h
  · next hpt =>
    cases h
    exact ⟨.rfl H, rfl, rfl, fun pt h => by simp [hpt] at h⟩
  · next pt hpt =>
    generalize hm : pt.unmap ω m.os address size = res at h
    obtain ⟨status, pt'⟩ := res
    simp only [Prod.mk.injEq] at h
    obtain ⟨rfl, rfl⟩ := h
    refine ⟨H.moves_update hpt fun nodes R => ?_, rfl, rfl, ?_⟩
    · obtain ⟨R', hfix, -⟩ := PageTables.unmap_spec R H.os hm
      exact ⟨congrArg Prod.fst hfix, R'⟩
    · rintro _ h₁
      cases h₁.symm.trans hpt
      obtain ⟨-, -, nodes, R⟩ := H.tables hpt
      obtain ⟨-, hfix, hok, htr⟩ := PageTables.unmap_spec R H.os hm
      exact ⟨pt', rfl, hfix, fun nodes R => (PageTables.unmap_spec R H.os hm).1, hok, htr⟩

theorem flush_spec (H : Inv g m) (o : Owner) :
    Moves g (· = o) m (m.flush o) ∧ (m.flush o).objects = m.objects ∧
      (m.flush o).machine = m.machine ∧
      ∀ pt, m.tables o = some pt →
        (m.flush o).tables = Function.update m.tables o (some pt.flush) := by
  unfold flush
  split
  · next hpt => exact ⟨.rfl H, rfl, rfl, fun pt h => by simp [hpt] at h⟩
  · next pt hpt =>
    refine ⟨H.moves_update hpt fun nodes R => ⟨rfl, R.dirty false⟩, rfl, rfl, ?_⟩
    rintro _ h₁
    cases h₁.symm.trans hpt
    rfl

theorem deleteTables_spec (H : Inv g m) (o : Owner) :
    Moves g (· = o) m (m.deleteTables o) ∧ (m.deleteTables o).objects = m.objects ∧
      (m.deleteTables o).gtt = m.gtt ∧
      (m.deleteTables o).tables = Function.update m.tables o none := by
  unfold deleteTables
  split
  · next hpt => exact ⟨.rfl H, rfl, rfl, (Function.update_eq_self_iff.mpr hpt.symm).symm⟩
  · next pt hpt =>
    obtain ⟨hk, how, -⟩ := H.tables hpt
    exact ⟨H.moves_tables hk (H.os.deleteAreas _) (how ▸ PageTables.destroy_changes (H.holds hpt))
      nofun, rfl, rfl, rfl⟩

/-! ## Calls -/

/-- Nothing has happened but calls to the rest of the system. -/
structure Idle (m m' : Memory) : Prop where
  os : Os.Same m.os m'.os
  objects : m'.objects = m.objects
  tables : m'.tables = m.tables
  gtt : m'.gtt = m.gtt

namespace Idle

theorem rfl : Idle m m := ⟨.rfl, Eq.refl _, Eq.refl _, Eq.refl _⟩

theorem trans (h : Idle m m') (h' : Idle m' m'') : Idle m m'' :=
  ⟨h.os.trans h'.os, h'.objects.trans h.objects, h'.tables.trans h.tables, h'.gtt.trans h.gtt⟩

theorem eq (h : Idle m m') : m' = m.setOs m'.os := by
  obtain ⟨⟨os, gtt⟩, objects, tables⟩ := m'
  obtain ⟨-, rfl, rfl, hg⟩ := h
  cases hg
  rfl

theorem moves (h : Idle m m') (H : Inv g m) : Moves g K m m' := h.eq ▸ H.moves_os h.os

end Idle

theorem idle_enter (m : Memory) : Idle m m.enter := ⟨m.os.same_enter, rfl, rfl, rfl⟩

theorem userMemcpy_idle (h : m.userMemcpy ω = (r, m')) : Idle m m' := by
  cases h
  exact ⟨m.os.same_userMemcpy ω, rfl, rfl, rfl⟩

theorem poll_idle (ω : Oracle) (m : Memory) : Idle m (m.poll ω).2 :=
  ⟨m.os.same_poll ω, rfl, rfl, rfl⟩

theorem allocate_idle (h : m.allocate ω = (r, m')) : Idle m m' := by
  unfold allocate at h
  split at h <;> cases h
  · exact ⟨m.os.same_refused, rfl, rfl, rfl⟩
  · exact ⟨m.os.same_called, rfl, rfl, rfl⟩

/-! ## What becomes of the translations -/

/-- The page tables there were are still there. An address `x` translates as before, or to a page
`p` that `P` allows there; `P` is told the scratch page. -/
def Retabled (P : Owner → (x scratch p : Nat) → Prop) (m m' : Memory) : Prop :=
  ∀ o, (m.tables o = none → m'.tables o = none) ∧ ∀ pt, m.tables o = some pt →
    ∃ pt', m'.tables o = some pt' ∧ pt'.scratchPage = pt.scratchPage ∧ ∀ x, x < 2 ^ 48 →
      pt'.translate x = pt.translate x ∨ P o x pt.scratchPage (pt'.translate x)

namespace Retabled
variable {P Q : Owner → Nat → Nat → Nat → Prop}

theorem of_eq (h : m'.tables = m.tables) : Retabled P m m' := fun _ =>
  ⟨fun hn => h ▸ hn, fun pt hpt => ⟨pt, h ▸ hpt, rfl, fun _ _ => .inl rfl⟩⟩

theorem mono (h : Retabled P m m') (hP : ∀ q x s p, P q x s p → Q q x s p) : Retabled Q m m' := by
  intro o
  refine ⟨(h o).1, fun pt hpt => ?_⟩
  obtain ⟨pt', hpt', hs, htr⟩ := (h o).2 pt hpt
  exact ⟨pt', hpt', hs, fun x hx => (htr x hx).imp_right (hP _ _ _ _)⟩

theorem trans (h : Retabled P m m') (h' : Retabled P m' m'') : Retabled P m m'' := by
  intro o
  refine ⟨fun hn => (h' o).1 ((h o).1 hn), fun pt hpt => ?_⟩
  obtain ⟨pt', hpt', hs', htr'⟩ := (h o).2 pt hpt
  obtain ⟨pt'', hpt'', hs'', htr''⟩ := (h' o).2 pt' hpt'
  refine ⟨pt'', hpt'', hs''.trans hs', fun x hx => ?_⟩
  rcases htr'' x hx with h | h
  · rw [h]
    exact htr' x hx
  · exact .inr (hs' ▸ h)

theorem isSome (h : Retabled P m m') (o : Owner) :
    (m'.tables o).isSome = (m.tables o).isSome := by
  cases hpt : m.tables o with
  | none => rw [(h o).1 hpt]
  | some pt =>
    obtain ⟨pt', hpt', -⟩ := (h o).2 pt hpt
    rw [hpt']
    rfl

/-- The page tables that are there now, before. -/
theorem back (h : Retabled P m m') {pt' : PageTables Owner} (hpt' : m'.tables o = some pt') :
    ∃ pt, m.tables o = some pt ∧ pt'.scratchPage = pt.scratchPage ∧ ∀ x, x < 2 ^ 48 →
      pt'.translate x = pt.translate x ∨ P o x pt.scratchPage (pt'.translate x) := by
  cases hpt : m.tables o with
  | none => exact nomatch ((h o).1 hpt).symm.trans hpt'
  | some pt =>
    obtain ⟨pt₁, hpt₁, hs, htr⟩ := (h o).2 pt hpt
    cases hpt₁.symm.trans hpt'
    exact ⟨pt, rfl, hs, htr⟩

/-- One set of page tables has changed. -/
theorem of_update {pt pt' : PageTables Owner} (hpt : m.tables o = some pt)
    (ht : m'.tables = Function.update m.tables o (some pt')) (hs : pt'.scratchPage = pt.scratchPage)
    (h : ∀ x, x < 2 ^ 48 → pt'.translate x = pt.translate x ∨
      P o x pt.scratchPage (pt'.translate x)) : Retabled P m m' := by
  intro o'
  by_cases ho : o' = o
  · subst ho
    refine ⟨fun hn => by simp [hpt] at hn, fun pt₁ h₁ => ?_⟩
    cases hpt.symm.trans h₁
    exact ⟨pt', by rw [ht, Function.update_self], hs, h⟩
  · rw [ht, Function.update_of_ne ho]
    exact ⟨id, fun pt hpt => ⟨pt, hpt, rfl, fun _ _ => .inl rfl⟩⟩

end Retabled

/-- The bytes from an address on. -/
def Range (address size x : Nat) : Prop := address ≤ x ∧ x < address + size

/-- The pages are mapped from an address on, and the one at `x` is `p`. -/
def Entered (address : Nat) (pages : List Nat) (x p : Nat) : Prop :=
  address ≤ x ∧ pages[(x - address) / 4096]? = some p

theorem Entered.range {pages : List Nat} {x p : Nat} (h : Entered address pages x p) :
    Range address (pages.length * 4096) x := by
  obtain ⟨hle, hp⟩ := h
  obtain ⟨hlt, -⟩ := List.getElem?_eq_some_iff.mp hp
  exact ⟨hle, by omega⟩

/-- What a request to map an area enters into the page tables. -/
theorem map_retabled {area : Option Nat} {a : Nat} {ar : Area Owner} (H : Inv g m)
    (h : m.map ω o area address = (r, done, m')) (ha : area = some a)
    (har : m.os.find a = some ar) :
    Retabled (fun o' x _ p => o' = o ∧ done ≠ 0 ∧ Entered address ar.pages x p) m m' ∧
      (r = .ok () → address + ar.pages.length * 4096 ≤ 2 ^ 48 ∧ ∀ pt', m'.tables o = some pt' →
        ∀ x, Range address (ar.pages.length * 4096) x →
          Entered address ar.pages x (pt'.translate x)) := by
  cases hpt : m.tables o with
  | none =>
    simp only [map, hpt, Prod.mk.injEq] at h
    obtain ⟨rfl, -, rfl⟩ := h
    exact ⟨.of_eq rfl, by rintro ⟨⟩⟩
  | some pt =>
    obtain ⟨-, -, -, hmapped⟩ := map_spec H h
    obtain ⟨-, -, nodes, R⟩ := H.tables hpt
    obtain ⟨pt', nodes', ht, M⟩ := hmapped pt nodes a ar hpt R ha har
    have hle := M.le
    have hentered {x : Nat} (hr : address ≤ x ∧ x < address + done * 4096) :
        Entered address ar.pages x (PageTables.areaPage ar ((x - address) / 4096)) := by
      have hlt : (x - address) / 4096 < ar.pages.length := by omega
      refine ⟨hr.1, ?_⟩
      rw [PageTables.areaPage, List.getD_eq_getElem?_getD, List.getElem?_eq_getElem hlt]
      rfl
    refine ⟨.of_update hpt ht (congrArg (·.2.2.2.1) M.grown.fixed) fun x hx => ?_, ?_⟩
    · rw [M.translate x hx, PageTables.overlay]
      split
      · next hr => exact .inr ⟨rfl, by omega, hentered hr⟩
      · exact .inl rfl
    · rintro rfl
      obtain ⟨hdone, hgood⟩ := M.ok rfl
      refine ⟨by omega, fun pt₁ hpt₁ x hx => ?_⟩
      obtain ⟨h1, h2⟩ := hx
      rw [ht, Function.update_self] at hpt₁
      cases hpt₁
      subst hdone
      rw [M.translate x (by omega), PageTables.overlay, if_pos ⟨h1, h2⟩]
      exact hentered ⟨h1, h2⟩

/-- A request that has mapped a page, or succeeds, shows the first page. -/
theorem map_entered {area : Option Nat} {a : Nat} {ar : Area Owner} (H : Inv g m)
    (h : m.map ω o area address = (r, done, m')) (ha : area = some a)
    (har : m.os.find a = some ar) (hpos : 0 < ar.pages.length) (hdone : done ≠ 0 ∨ r = .ok ()) :
    address < 2 ^ 48 ∧
      ∃ pt', m'.tables o = some pt' ∧ Entered address ar.pages address (pt'.translate address) := by
  cases hpt : m.tables o with
  | none =>
    simp only [map, hpt, Prod.mk.injEq] at h
    obtain ⟨rfl, rfl, -⟩ := h
    rcases hdone with h | h
    · exact absurd rfl h
    · cases h
  | some pt =>
    obtain ⟨-, -, -, hmapped⟩ := map_spec H h
    obtain ⟨-, -, nodes, R⟩ := H.tables hpt
    obtain ⟨pt', nodes', ht, M⟩ := hmapped pt nodes a ar hpt R ha har
    have hdone : done ≠ 0 := by
      rcases hdone with h | h
      · exact h
      · rw [(M.ok h).1]
        exact Nat.ne_of_gt hpos
    have hlt : address < 2 ^ 48 :=
      Nat.lt_of_not_le fun hle => hdone (M.idle (.inr (.inl hle)))
    refine ⟨hlt, pt', by rw [ht, Function.update_self], Nat.le_refl _, ?_⟩
    rw [M.translate address hlt, PageTables.overlay, if_pos ⟨Nat.le_refl _, by omega⟩,
      Nat.sub_self, PageTables.areaPage, List.getD_eq_getElem?_getD,
      List.getElem?_eq_getElem (by simpa using hpos)]
    rfl

theorem unmap_retabled (H : Inv g m) (h : m.unmap ω o address size = (r, m')) :
    Retabled (fun o' x s p => o' = o ∧ Range address (pageRound size) x ∧ p = s) m m' := by
  cases hpt : m.tables o with
  | none =>
    simp only [unmap, hpt, Prod.mk.injEq] at h
    obtain ⟨-, rfl⟩ := h
    exact .of_eq rfl
  | some pt =>
    obtain ⟨-, -, -, hunmapped⟩ := unmap_spec H h
    obtain ⟨pt', ht, hfix, -, -, htr⟩ := hunmapped pt hpt
    refine .of_update hpt ht (congrArg (·.2.2.2.1) hfix) fun x hx => ?_
    rw [htr x hx]
    split
    · next hr => exact .inr ⟨rfl, hr.2, rfl⟩
    · exact .inl rfl

end Memory
end IntelGfx
