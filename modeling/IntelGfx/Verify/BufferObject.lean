import IntelGfx.Kernel.BufferObject
import IntelGfx.Verify.GlobalGTT
import IntelGfx.Theory.Run

/-!
# The buffer objects of a GTT

`Aperture.Inv`: the used pages of the GTT are shared out between the bound buffer objects, each of
which finds its own memory there. Every call keeps the invariant, whatever fails in it.
-/

namespace IntelGfx
variable {α : Type}

namespace BufferObject
variable {ω : Oracle} {bo bo' : BufferObject α} {m m' : Machine α} {o : α} {g g' : GlobalGTT}

/-- The managed page `p` is bound to the buffer object. -/
def Covers (g : GlobalGTT) (bo : BufferObject α) (p : Nat) : Prop :=
  bo.bound = true ∧ bo.graphicsAddress ≤ g.base + p * 4096 ∧
    g.base + p * 4096 < bo.graphicsAddress + bo.size

/-- The area of a buffer object is its own, and its pages are where it is bound. -/
structure Valid (m : Machine α) (o : α) (bo : BufferObject α) : Prop where
  owner : bo.owner = o
  area : ∀ {a}, bo.area = some a → ∃ ar, m.os.find a = some ar ∧ ar.owner = o ∧
    bo.size = ar.pages.length * 4096
  bound : bo.bound = true → ∃ a ar first, bo.area = some a ∧ m.os.find a = some ar ∧
    bo.graphicsAddress = m.gtt.base + first * 4096 ∧ 0 < ar.pages.length ∧
    m.gtt.Maps first ar.pages

/-- Where a bound buffer object is. -/
theorem Valid.bound_at (V : bo.Valid m o) (hb : bo.bound = true) : ∃ a ar first,
    bo.area = some a ∧ m.os.find a = some ar ∧ ar.owner = o ∧ bo.size = ar.pages.length * 4096 ∧
    bo.graphicsAddress = m.gtt.base + first * 4096 ∧ 0 < ar.pages.length ∧
    m.gtt.Maps first ar.pages ∧
    ∀ p, bo.Covers m.gtt p ↔ first ≤ p ∧ p < first + ar.pages.length := by
  obtain ⟨a, ar, first, ha, har, haddr, hpos, hmaps⟩ := V.bound hb
  obtain ⟨ar', har', how, hsize⟩ := V.area ha
  rw [har] at har'
  cases har'
  refine ⟨a, ar, first, ha, har, how, hsize, haddr, hpos, hmaps, fun p => ?_⟩
  rw [Covers, haddr, hsize]
  constructor
  · rintro ⟨-, h1, h2⟩
    omega
  · rintro ⟨h1, h2⟩
    exact ⟨hb, by omega, by omega⟩

/-- What others do with areas of their own does not concern a buffer object. -/
theorem Valid.changes {T : α → Prop} (V : bo.Valid m o) (C : Os.Changes T m.os m'.os)
    (hT : ¬ T o) (hg : m'.gtt = m.gtt) : bo.Valid m' o := by
  refine ⟨V.owner, fun ha => ?_, fun hb => ?_⟩
  · obtain ⟨ar, har, how, hs⟩ := V.area ha
    exact ⟨ar, C.kept har (how ▸ hT), how, hs⟩
  · obtain ⟨a, ar, first, ha, har, how, -, haddr, hpos, hmaps, -⟩ := V.bound_at hb
    exact ⟨a, ar, first, ha, C.kept har (how ▸ hT), hg ▸ haddr, hpos, hg ▸ hmaps⟩

/-- What happens in other pages of the GTT does not concern a buffer object. -/
theorem Valid.frame {first count : Nat} (V : bo.Valid m o)
    (F : GlobalGTT.Frame first count m.gtt g')
    (h : ∀ p, first ≤ p → p < first + count → ¬ bo.Covers m.gtt p) :
    bo.Valid { m with gtt := g' } o := by
  refine ⟨V.owner, V.area, fun hb => ?_⟩
  obtain ⟨a, ar, f, ha, har, -, -, haddr, hpos, hmaps, hcov⟩ := V.bound_at hb
  refine ⟨a, ar, f, ha, har, F.base.symm ▸ haddr, hpos, F.maps hmaps fun i hi hr => ?_⟩
  exact h _ hr.1 hr.2 ((hcov _).mpr ⟨by omega, by omega⟩)

theorem init_ok {os os' : Os α} {size : Nat}
    (h : (new o).init ω os size = (.ok (), bo, os')) : ∃ a,
      os.createArea ω o false (size / 4096) = (.ok a, os') ∧
      bo = { new o with area := some a, size := size } := by
  unfold init at h
  split at h
  · simp at h
  · next a os1 hc =>
    cases h
    exact ⟨a, hc, rfl⟩

theorem init_error {os os' : Os α} {size : Nat} {e : Error}
    (h : (new o).init ω os size = (.error e, bo, os')) : bo = new o ∧ Os.Same os os' := by
  unfold init at h
  split at h
  · next hc =>
    cases h
    exact ⟨rfl, (Os.createArea_error hc).1⟩
  · simp at h

theorem covers_frame {first count : Nat} (F : GlobalGTT.Frame first count g g') {p : Nat} :
    bo.Covers g' p ↔ bo.Covers g p := by simp [Covers, F.base]

end BufferObject

namespace Aperture

/-- The used pages of the GTT are the disjoint union of the pages bound to the buffer objects, and
nothing outside its managed range has changed since it was `g`. -/
structure Inv (g : GlobalGTT) (m : Machine α) (objects : α → Option (BufferObject α)) :
    Prop where
  os : m.os.WF
  gtt : m.gtt.valid = true → m.gtt.WF
  rest : m.gtt = { g with entries := m.gtt.entries, used := m.gtt.used }
  outside : ∀ p, ¬ (g.firstPage ≤ p ∧ p < g.firstPage + g.pageCount) →
    m.gtt.entries p = g.entries p
  valid : ∀ {o bo}, objects o = some bo → bo.Valid m o
  bound : ∀ {o bo}, objects o = some bo → bo.bound = true → m.gtt.valid = true
  used : ∀ {p}, m.gtt.valid = true → m.gtt.used p = true →
    ∃ o bo, objects o = some bo ∧ bo.Covers m.gtt p
  apart : ∀ {o o' bo bo' p}, objects o = some bo → objects o' = some bo' → bo.Covers m.gtt p →
    bo'.Covers m.gtt p → o = o'

namespace Inv
variable {g : GlobalGTT} {m m' : Machine α} {objects : α → Option (BufferObject α)}
  {ω : Oracle} {o : α} {bo bo' : BufferObject α}

theorem firstPage (H : Inv g m objects) : m.gtt.firstPage = g.firstPage := by rw [H.rest]
theorem pageCount (H : Inv g m objects) : m.gtt.pageCount = g.pageCount := by rw [H.rest]
theorem base (H : Inv g m objects) : m.gtt.base = g.base := by rw [H.rest]
theorem gtt_valid (H : Inv g m objects) : m.gtt.valid = g.valid := by rw [H.rest]

theorem scratchEntry (H : Inv g m objects) : m.gtt.scratchEntry = g.scratchEntry := by
  rw [H.rest]
  rfl

/-- A bound page is used. -/
theorem covers_used (H : Inv g m objects) (ho : objects o = some bo) {p : Nat}
    (hp : bo.Covers m.gtt p) : m.gtt.used p = true := by
  obtain ⟨a, ar, first, -, -, -, -, -, -, hmaps, hcov⟩ := (H.valid ho).bound_at hp.1
  obtain ⟨h1, h2⟩ := (hcov p).mp hp
  have := (hmaps.2 (p - first) _ (List.getElem?_eq_getElem (by omega))).1
  rwa [show first + (p - first) = p by omega] at this

/-- What is done with areas that belong to none of the objects. -/
theorem changes {T : α → Prop} {os' : Os α} (H : Inv g m objects)
    (C : Os.Changes T m.os os') (hwf : os'.WF) (hT : ∀ o bo, objects o = some bo → ¬ T o) :
    Inv g { m with os := os' } objects where
  os := hwf
  gtt := H.gtt
  rest := H.rest
  outside := H.outside
  valid := fun ho => (H.valid ho).changes C (hT _ _ ho) rfl
  bound := H.bound
  used := H.used
  apart := H.apart

theorem same {os' : Os α} (H : Inv g m objects) (S : Os.Same m.os os') :
    Inv g { m with os := os' } objects :=
  H.changes (T := fun _ => False) S.changes (S.wf H.os) fun _ _ _ => id

/-- Others write an entry that is not managed. -/
theorem writeEntry {page entry : Nat} (H : Inv g m objects)
    (h : ¬ (m.gtt.firstPage ≤ page ∧ page < m.gtt.firstPage + m.gtt.pageCount)) :
    Inv (g.writeEntry page entry) { m with gtt := m.gtt.writeEntry page entry } objects where
  os := H.os
  gtt := fun hv => (H.gtt hv).writeEntry h
  rest := congrArg (·.writeEntry page entry) H.rest
  outside := fun p hp => if_congr .rfl rfl (H.outside p hp)
  valid := fun ho => by
    refine ⟨(H.valid ho).owner, (H.valid ho).area, fun hb => ?_⟩
    obtain ⟨a, ar, first, ha, har, haddr, hpos, hmaps⟩ := (H.valid ho).bound hb
    exact ⟨a, ar, first, ha, har, haddr, hpos, hmaps.writeEntry h⟩
  bound := H.bound
  used := H.used
  apart := H.apart

variable [DecidableEq α]

/-- An object that holds nothing in the GTT may come, go or change. -/
theorem update (H : Inv g m objects) {b : Option (BufferObject α)}
    (hold : ∀ bo, objects o = some bo → bo.bound = false)
    (hnew : ∀ bo, b = some bo → bo.Valid m o ∧ bo.bound = false) :
    Inv g m (Function.update objects o b) := by
  have hcov : ∀ {o' bo' p}, Function.update objects o b o' = some bo' → bo'.Covers m.gtt p →
      o' ≠ o ∧ objects o' = some bo' := by
    intro o' bo' p ho' hp
    rw [Function.update_apply] at ho'
    split at ho'
    · next h => exact absurd hp.1 (by simp [(hnew _ ho').2])
    · next h => exact ⟨h, ho'⟩
  refine ⟨H.os, H.gtt, H.rest, H.outside, fun {o' bo'} ho' => ?_, fun {o' bo'} ho' hb => ?_,
    fun hv hu => ?_, fun ho hbo hp hp' => ?_⟩
  · rw [Function.update_apply] at ho'
    split at ho'
    · next h => exact h ▸ (hnew _ ho').1
    · exact H.valid ho'
  · rw [Function.update_apply] at ho'
    split at ho'
    · next h => exact absurd hb (by simp [(hnew _ ho').2])
    · exact H.bound ho' hb
  · obtain ⟨o', bo', ho', hp⟩ := H.used hv hu
    refine ⟨o', bo', ?_, hp⟩
    rw [Function.update_apply, if_neg, ho']
    rintro rfl
    exact absurd hp.1 (by simp [hold _ ho'])
  · exact H.apart (hcov ho hp).2 (hcov hbo hp').2 hp hp'

/-! ### What the calls do -/

omit [DecidableEq α] in
theorem bind_ok (H : Inv g m objects) (ho : objects o = some bo)
    (h : bo.bind ω m = (.ok (), bo', m')) :
    Os.Same m.os m'.os ∧ bo.bound = false ∧ m.gtt.valid = true ∧ ∃ a ar first,
      bo.area = some a ∧ m.os.find a = some ar ∧ 0 < ar.pages.length ∧
      bo' = { bo with bound := true, graphicsAddress := m.gtt.base + first * 4096 } ∧
      m.gtt.Free ar.pages.length first ∧ (∀ f, m.gtt.Free ar.pages.length f → first ≤ f) ∧
      GlobalGTT.Frame first ar.pages.length m.gtt m'.gtt ∧ m'.gtt.Maps first ar.pages := by
  unfold BufferObject.bind at h
  split at h
  · simp at h
  next a ha =>
  obtain ⟨ar, har, -, hs⟩ := (H.valid ho).area ha
  split at h
  · simp at h
  next hb =>
  split at h
  · simp at h
  next address os gtt hbind =>
  cases h
  cases hv : m.gtt.valid with
  | false => simp [GlobalGTT.bind_not_valid hv] at hbind
  | true =>
    obtain ⟨hsame, first, rfl, hpos, hfree, hlow, hF, hmaps⟩ :=
      GlobalGTT.bind_ok (H.gtt hv) har (H.os.bounded har) hbind
    exact ⟨hsame, by simpa using hb, rfl, a, ar, first, ha, har, hpos, rfl, hfree, hlow, hF, hmaps⟩

omit [DecidableEq α] in
theorem bind_error {e : Error} (H : Inv g m objects) (ho : objects o = some bo)
    (h : bo.bind ω m = (.error e, bo', m')) :
    bo' = bo ∧ Os.Same m.os m'.os ∧ m'.gtt = m.gtt ∧
      (e = .noMemory → ∃ a ar, bo.area = some a ∧ m.os.find a = some ar ∧
        ∀ f, ¬ m.gtt.Free ar.pages.length f) := by
  unfold BufferObject.bind at h
  split at h
  · cases h
    exact ⟨rfl, .rfl, rfl, by simp⟩
  next a ha =>
  obtain ⟨ar, har, -, hs⟩ := (H.valid ho).area ha
  split at h
  · cases h
    exact ⟨rfl, .rfl, rfl, by simp⟩
  next hb =>
  split at h
  · next e' os gtt hbind =>
    cases h
    cases hv : m.gtt.valid with
    | false =>
      simp only [GlobalGTT.bind_not_valid hv, Prod.mk.injEq, Except.error.injEq] at hbind
      obtain ⟨rfl, rfl, rfl⟩ := hbind
      exact ⟨rfl, .rfl, rfl, by simp⟩
    | true =>
      obtain ⟨hsame, rfl, hno⟩ := GlobalGTT.bind_error (H.gtt hv) har (H.os.bounded har) hbind
      exact ⟨rfl, hsame, rfl, fun he => ⟨a, ar, ha, har, hno he⟩⟩
  · simp at h

omit [DecidableEq α] in
/-- `unbind` frees the pages of a bound buffer object. -/
theorem unbind_bound (H : Inv g m objects) (ho : objects o = some bo)
    (hb : bo.bound = true) : ∃ g' a ar first,
      bo.unbind m = (.ok (), { bo with bound := false, graphicsAddress := 0 },
        { m with gtt := g' }) ∧
      bo.area = some a ∧ m.os.find a = some ar ∧ m.gtt.Maps first ar.pages ∧
      (∀ p, bo.Covers m.gtt p ↔ first ≤ p ∧ p < first + ar.pages.length) ∧
      GlobalGTT.Frame first ar.pages.length m.gtt g' ∧
      ∀ p, first ≤ p → p < first + ar.pages.length →
        g'.used p = false ∧ g'.entries (m.gtt.firstPage + p) = m.gtt.scratchEntry := by
  obtain ⟨a, ar, first, ha, har, -, hs, haddr, hpos, hmaps, hcov⟩ := (H.valid ho).bound_at hb
  obtain ⟨g', hunbind, hF, hfreed⟩ :=
    GlobalGTT.unbind_maps (H.gtt (H.bound ho hb)) hmaps hpos
  refine ⟨g', a, ar, first, ?_, ha, har, hmaps, hcov, hF, hfreed⟩
  simp [BufferObject.unbind, hb, haddr, hs, hunbind]

/-- A run of free pages becomes the binding of an unbound buffer object. -/
theorem bind (H : Inv g m objects) (ho : objects o = some bo) {r : Except Error Unit}
    (h : bo.bind ω m = (r, bo', m')) : Inv g m' (Function.update objects o (some bo')) := by
  cases r with
  | error e =>
    obtain ⟨rfl, hsame, hg, -⟩ := H.bind_error ho h
    rw [Function.update_eq_self_iff.mpr ho.symm]
    obtain ⟨os', gtt'⟩ := m'
    cases hg
    exact H.same hsame
  | ok u =>
    obtain ⟨hsame, hb, hv, a, ar, first, ha, har, hpos, rfl, hfree, -, hF, hmaps⟩ :=
      H.bind_ok ho h
    have W := H.gtt hv
    obtain ⟨os', gtt'⟩ := m'
    dsimp only at hsame hF hmaps
    have hfree' : ∀ p, first ≤ p → p < first + ar.pages.length → m.gtt.used p = false := by
      intro p h1 h2
      have := hfree.2 (p - first) (by omega)
      simpa [GlobalGTT.isUsed, show first + (p - first) = p by omega] using this
    have hmine : ∀ p, ({ bo with bound := true, graphicsAddress := m.gtt.base + first * 4096 } :
        BufferObject α).Covers gtt' p ↔ first ≤ p ∧ p < first + ar.pages.length := by
      intro p
      obtain ⟨ar', har', -, hs⟩ := (H.valid ho).area ha
      rw [har] at har'
      cases har'
      simp only [BufferObject.Covers, hF.base, hs, true_and]
      omega
    -- nobody else is bound in the pages that were free
    have hothers : ∀ {o' bo' p}, objects o' = some bo' → first ≤ p → p < first + ar.pages.length →
        ¬ bo'.Covers m.gtt p := by
      intro o' bo' p ho' h1 h2 hc
      have := H.covers_used ho' hc
      simp [hfree' p h1 h2] at this
    refine ⟨hsame.wf H.os, fun _ => hF.wf W hfree.1 fun p h1 h2 hu => ?_,
      hF.trans_rest H.rest, fun p hp => ?_,
      fun {o' bo'} ho' => ?_, fun _ _ => hF.valid.trans hv, fun {p} _ hu => ?_,
      fun {o1 o2 bo1 bo2 p} ho1 ho2 hp1 hp2 => ?_⟩
    · have := (hmaps.2 (p - first) _ (List.getElem?_eq_getElem (by omega))).1
      simp [show first + (p - first) = p by omega, hu] at this
    · dsimp only
      have := hfree.1
      rw [hF.entries _ (by rw [H.firstPage, H.pageCount] at *; omega), H.outside p hp]
    · rw [Function.update_apply] at ho'
      split at ho'
      · next heq =>
        cases ho'
        subst heq
        obtain ⟨ar', har', how, hs⟩ := (H.valid ho).area ha
        refine ⟨(H.valid ho).owner, fun {a'} ha' => ?_, fun _ => ?_⟩
        · obtain ⟨ar', har', how, hs⟩ := (H.valid ho).area ha'
          exact ⟨ar', hsame.find.trans har', how, hs⟩
        · exact ⟨a, ar, first, ha, hsame.find.trans har, by rw [hF.base], hpos, hmaps⟩
      · exact ((H.same hsame).valid ho').frame hF fun p h1 h2 => hothers ho' h1 h2
    · by_cases hr : first ≤ p ∧ p < first + ar.pages.length
      · exact ⟨o, _, Function.update_self .., (hmine p).mpr hr⟩
      · dsimp only at hu
        rw [hF.used p hr] at hu
        obtain ⟨o', bo', ho', hc⟩ := H.used hv hu
        refine ⟨o', bo', ?_, (BufferObject.covers_frame hF).mpr hc⟩
        rw [Function.update_of_ne, ho']
        rintro rfl
        rw [ho] at ho'
        cases ho'
        simp [hc.1] at hb
    · dsimp only at hp1 hp2
      rw [Function.update_apply] at ho1 ho2
      split at ho1 <;> split at ho2
      · simp_all
      · cases ho1
        obtain ⟨h1, h2⟩ := (hmine p).mp hp1
        exact absurd ((BufferObject.covers_frame hF).mp hp2) (hothers ho2 h1 h2)
      · cases ho2
        obtain ⟨h1, h2⟩ := (hmine p).mp hp2
        exact absurd ((BufferObject.covers_frame hF).mp hp1) (hothers ho1 h1 h2)
      · exact H.apart ho1 ho2 ((BufferObject.covers_frame hF).mp hp1)
          ((BufferObject.covers_frame hF).mp hp2)

/-- The pages of an object that lets go of them show the scratch page again. -/
theorem unbind (H : Inv g m objects) (ho : objects o = some bo) {r : Except Error Unit}
    (h : bo.unbind m = (r, bo', m')) :
    Inv g m' (Function.update objects o (some bo')) ∧ m'.os = m.os ∧ bo'.bound = false ∧
      bo'.area = bo.area ∧ bo'.owner = bo.owner := by
  cases hb : bo.bound with
  | false =>
    simp only [BufferObject.unbind, hb, Bool.not_false, if_true, Prod.mk.injEq] at h
    obtain ⟨-, rfl, rfl⟩ := h
    rw [Function.update_eq_self_iff.mpr ho.symm]
    exact ⟨H, rfl, hb, rfl, rfl⟩
  | true =>
    obtain ⟨g', a, ar, first, hu, ha, har, hmaps, hcov, hF, hfreed⟩ := H.unbind_bound ho hb
    rw [hu] at h
    simp only [Prod.mk.injEq] at h
    obtain ⟨-, rfl, rfl⟩ := h
    refine ⟨?_, rfl, rfl, rfl, rfl⟩
    have hv := H.bound ho hb
    have hkept : ∀ {o' bo' p}, Function.update objects o
        (some { bo with bound := false, graphicsAddress := 0 }) o' = some bo' →
        bo'.Covers g' p → o' ≠ o ∧ objects o' = some bo' ∧ bo'.Covers m.gtt p := by
      intro o' bo' p ho' hp
      rw [Function.update_apply] at ho'
      split at ho'
      · cases ho'
        exact absurd hp.1 (by simp)
      · next hne => exact ⟨hne, ho', (BufferObject.covers_frame hF).mp hp⟩
    refine ⟨H.os, fun _ => hF.wf (H.gtt hv) hmaps.1 fun p h1 h2 _ => (hfreed p h1 h2).2,
      hF.trans_rest H.rest, fun p hp => ?_, fun {o' bo'} ho' => ?_, fun _ _ =>
        hF.valid.trans hv, fun {p} _ hu => ?_,
      fun ho1 ho2 hp1 hp2 => ?_⟩
    · dsimp only
      have := hmaps.1
      rw [hF.entries _ (by rw [H.firstPage, H.pageCount] at *; omega), H.outside p hp]
    · rw [Function.update_apply] at ho'
      split at ho'
      · next heq =>
        cases ho'
        subst heq
        exact ⟨(H.valid ho).owner, (H.valid ho).area, nofun⟩
      · next hne =>
        exact (H.valid ho').frame hF fun p h1 h2 hc =>
          hne (H.apart ho' ho hc ((hcov p).mpr ⟨h1, h2⟩))
    · dsimp only at hu
      by_cases hr : first ≤ p ∧ p < first + ar.pages.length
      · simp [(hfreed p hr.1 hr.2).1] at hu
      · rw [hF.used p hr] at hu
        obtain ⟨o', bo', ho', hc⟩ := H.used hv hu
        refine ⟨o', bo', ?_, (BufferObject.covers_frame hF).mpr hc⟩
        rw [Function.update_of_ne, ho']
        rintro rfl
        rw [ho] at ho'
        cases ho'
        exact hr ((hcov p).mp hc)
    · obtain ⟨-, ho1, hp1⟩ := hkept ho1 hp1
      obtain ⟨-, ho2, hp2⟩ := hkept ho2 hp2
      exact H.apart ho1 ho2 hp1 hp2

omit [DecidableEq α] in
/-- Only the area of the object goes with it. -/
theorem destroy_changes (H : Inv g m objects) (ho : objects o = some bo) :
    Os.Changes (· = o) m.os (bo.destroy m).os := by
  classical
  unfold BufferObject.destroy
  generalize h : bo.unbind m = res
  obtain ⟨r, bo', m'⟩ := res
  obtain ⟨-, hos, -⟩ := H.unbind ho h
  dsimp only
  split
  · exact hos ▸ .rfl
  · next a ha =>
    obtain ⟨ar, har, how, -⟩ := (H.valid ho).area ha
    rw [hos]
    refine Os.changes_deleteArea fun ar' har' => ?_
    rw [har] at har'
    cases har'
    exact how

theorem destroy (H : Inv g m objects) (ho : objects o = some bo) :
    Inv g (bo.destroy m) (Function.update objects o none) := by
  have hC := H.destroy_changes ho
  unfold BufferObject.destroy at hC ⊢
  generalize h : bo.unbind m = res at hC ⊢
  obtain ⟨r, bo', m'⟩ := res
  obtain ⟨H', hos, hb, -, -⟩ := H.unbind ho h
  have hempty : Inv g m' (Function.update objects o none) := by
    have := H'.update (o := o) (b := none) (fun bo ho' => by simp_all) nofun
    rwa [Function.update_idem] at this
  dsimp only at hC ⊢
  split
  · exact hempty
  · next a ha =>
    rw [ha, ← hos] at hC
    refine hempty.changes hC (H'.os.deleteArea) fun o' bo' ho' => ?_
    rintro rfl
    simp at ho'

theorem create {os' : Os α} {size : Nat} (H : Inv g m objects) (ho : objects o = none)
    (hs : size % 4096 = 0) (h : (BufferObject.new o).init ω m.os size = (.ok (), bo, os')) :
    Inv g { m with os := os' } (Function.update objects o (some bo)) := by
  obtain ⟨a, hc, rfl⟩ := BufferObject.init_ok h
  have hC := Os.changes_createArea (T := (· = o)) rfl hc H.os
  have H' := H.changes hC (H.os.createArea hc) fun o' bo' ho' heq => by simp_all
  refine H'.update (fun _ h => by simp [ho] at h) ?_
  rintro _ ⟨⟩
  obtain ⟨rfl, -, -, -, pages, hp, hfind⟩ := Os.createArea_ok hc
  refine ⟨⟨rfl, ?_, nofun⟩, rfl⟩
  rintro _ ⟨⟩
  refine ⟨_, by rw [hfind, if_pos rfl], rfl, ?_⟩
  have := (ω.alloc_length hp).1
  dsimp only
  omega

end Inv

/-! ## Runs -/

variable [DecidableEq α]

theorem step_inv {g : GlobalGTT} {s : Aperture α} (call : Call α × Oracle)
    (H : Inv g s.machine s.objects) :
    Inv g (s.step call).machine (s.step call).objects := by
  have H' := H.same s.machine.os.same_enter
  obtain ⟨call, ω⟩ := call
  cases call with
  | create o pages =>
    simp only [step]
    split
    · exact H
    next ho =>
    split
    · next hi =>
      obtain ⟨rfl, hsame⟩ := BufferObject.init_error hi
      exact H'.same hsame
    · next hi => exact H'.create ho (by omega) hi
  | bind o =>
    simp only [step]
    split
    · exact H
    · next bo ho => exact H'.bind ho rfl
  | unbind o =>
    simp only [step]
    split
    · exact H
    · next bo ho => exact (H.unbind ho rfl).1
  | destroy o =>
    simp only [step]
    split
    · exact H
    · next bo ho => exact H.destroy ho

omit [DecidableEq α] in
/-- A GTT that has just been set up, with no buffer objects yet. -/
theorem inv_init {ω : Oracle} {os os' : Os α} {owner : α} {g g' : GlobalGTT}
    {registers barSize generation tableSize reserved : Nat} (hos : os.WF)
    (h : g.init ω os owner registers barSize generation tableSize reserved = (.ok (), os', g')) :
    Inv g' ⟨os', g'⟩ fun _ => none := by
  obtain ⟨W, hused, -⟩ := GlobalGTT.init_ok h
  exact ⟨(GlobalGTT.init_changes hos h).1, fun _ => W, rfl, fun _ _ => rfl, nofun, nofun,
    fun _ hu => by simp [hused] at hu, nofun⟩

theorem run_inv {ω : Oracle} {os os' : Os α} {owner : α} {g g' : GlobalGTT}
    {registers barSize generation tableSize reserved : Nat} (hos : os.WF)
    (h : g.init ω os owner registers barSize generation tableSize reserved = (.ok (), os', g'))
    (calls : List (Call α × Oracle)) :
    Inv g' (Run.exec step ⟨⟨os', g'⟩, fun _ => none⟩ calls).machine
      (Run.exec step ⟨⟨os', g'⟩, fun _ => none⟩ calls).objects :=
  Run.invariant_of_step (I := fun s : Aperture α => Inv g' s.machine s.objects)
    (fun _ call H => step_inv call H) calls (inv_init hos h)

omit [DecidableEq α] in
/-- A bound page holds the page of the buffer object's own area that belongs there. -/
theorem Inv.entry {g : GlobalGTT} {m : Machine α} {objects : α → Option (BufferObject α)}
    (H : Inv g m objects) {o : α} {bo : BufferObject α} {p : Nat} (ho : objects o = some bo)
    (hp : bo.Covers m.gtt p) : ∃ a ar i x, bo.area = some a ∧ m.os.find a = some ar ∧
      ar.owner = o ∧ m.gtt.base + p * 4096 = bo.graphicsAddress + i * 4096 ∧
      ar.pages[i]? = some x ∧
        m.gtt.entries (m.gtt.firstPage + p) = x ||| GlobalGTT.kEntryPresent := by
  obtain ⟨a, ar, first, ha, har, how, hs, haddr, -, hmaps, hcov⟩ := (H.valid ho).bound_at hp.1
  obtain ⟨h1, h2⟩ := (hcov p).mp hp
  have hx := List.getElem?_eq_getElem (show p - first < ar.pages.length by omega)
  have he := (hmaps.2 _ _ hx).2.1
  rw [show first + (p - first) = p by omega] at he
  exact ⟨a, ar, p - first, _, ha, har, how, by omega, hx, he⟩

/-- The allocator of the global GTT is sound and complete: after any calls by any clients, the used
pages are the disjoint union of the bound ranges and hold the memory bound there, the other managed
pages show the scratch page, nothing else has been written, and the next bind takes the lowest run
of free pages that is long enough and runs out of memory only when there is none. The last is where
an `Oracle` is relied on not to answer a `get_memory_map` with `B_NO_MEMORY`. -/
theorem run_exact {ω : Oracle} {os os' : Os α} {owner : α} {g g' : GlobalGTT}
    {registers barSize generation tableSize reserved : Nat} (hos : os.WF)
    (h : g.init ω os owner registers barSize generation tableSize reserved = (.ok (), os', g'))
    (calls : List (Call α × Oracle)) :
    let s := Run.exec step ⟨⟨os', g'⟩, fun _ => none⟩ calls
    let gtt := s.machine.gtt
    (∀ p, gtt.used p = true ↔ ∃ o bo, s.objects o = some bo ∧ bo.Covers gtt p) ∧
    (∀ o o' bo bo' p, s.objects o = some bo → s.objects o' = some bo' → bo.Covers gtt p →
      bo'.Covers gtt p → o = o') ∧
    (∀ o bo p, s.objects o = some bo → bo.Covers gtt p → ∃ a ar i x, bo.area = some a ∧
      s.machine.os.find a = some ar ∧ ar.owner = o ∧
      gtt.base + p * 4096 = bo.graphicsAddress + i * 4096 ∧ ar.pages[i]? = some x ∧
      gtt.entries (g'.firstPage + p) = x ||| GlobalGTT.kEntryPresent) ∧
    (∀ p, p < g'.pageCount → gtt.used p = false →
      gtt.entries (g'.firstPage + p) = g'.scratchEntry) ∧
    (∀ p, ¬ (g'.firstPage ≤ p ∧ p < g'.firstPage + g'.pageCount) → gtt.entries p = g.entries p) ∧
    (∀ o bo ω r bo' m', s.objects o = some bo → bo.bind ω ⟨s.machine.os.enter, gtt⟩ = (r, bo', m') →
      (r = .ok () → ∃ first, bo'.graphicsAddress = g'.base + first * 4096 ∧
        gtt.Free (bo.size / 4096) first ∧ ∀ f, gtt.Free (bo.size / 4096) f → first ≤ f) ∧
      (r = .error .noMemory → ∀ f, ¬ gtt.Free (bo.size / 4096) f)) := by
  intro s gtt
  have H : Inv g' s.machine s.objects := run_inv hos h calls
  obtain ⟨W, -, hout⟩ := GlobalGTT.init_ok h
  have hv : gtt.valid = true := H.gtt_valid.trans W.valid
  refine ⟨fun p => ⟨H.used hv, fun ⟨o, bo, ho, hp⟩ => H.covers_used ho hp⟩,
    fun o o' bo bo' p => H.apart, fun o bo p ho hp => H.firstPage ▸ H.entry ho hp,
    fun p hp hu => ?_, fun p hp => ?_, fun o bo ω r bo' m' ho hbind => ⟨?_, ?_⟩⟩
  · have := (H.gtt hv).scratch p (by rwa [H.pageCount]) hu
    rwa [H.firstPage, H.scratchEntry] at this
  · rw [H.outside p hp, hout p hp]
  · rintro rfl
    obtain ⟨-, -, -, a, ar, first, ha, har, -, rfl, hfree, hlow, -, -⟩ :=
      (H.same s.machine.os.same_enter).bind_ok ho hbind
    obtain ⟨ar', har', -, hs⟩ := (H.valid ho).area ha
    cases har.symm.trans har'
    rw [hs, Nat.mul_div_cancel _ (by omega)]
    exact ⟨first, by rw [← H.base], hfree, hlow⟩
  · rintro rfl
    obtain ⟨-, -, -, hno⟩ := (H.same s.machine.os.same_enter).bind_error ho hbind
    obtain ⟨a, ar, ha, har, hno⟩ := hno rfl
    obtain ⟨ar', har', -, hs⟩ := (H.valid ho).area ha
    cases har.symm.trans har'
    rwa [hs, Nat.mul_div_cancel _ (by omega)]

/-- A GTT of four managed pages, set up on a system that never fails. -/
def smallGTT : Except Error Unit × Os Nat × GlobalGTT :=
  (GlobalGTT.new fun _ => 0).init .unfailing .empty 0 0x1000000 0x1000000 8 0x200000 0x3fffc000

theorem smallGTT_init : smallGTT = (.ok (), smallGTT.2) := Prod.ext (by decide +kernel) rfl

theorem run_exact_smallGTT :
    let s := Run.exec step ⟨⟨smallGTT.2.1, smallGTT.2.2⟩, fun _ => none⟩
      [(.create 1 2, .unfailing), (.create 2 1, .unfailing), (.bind 1, .unfailing),
        (.bind 2, .unfailing), (.unbind 1, .unfailing)]
    (List.range 4).map s.machine.gtt.used = [false, false, true, false] ∧
    ∀ p, s.machine.gtt.used p = true ↔
      ∃ o bo, s.objects o = some bo ∧ bo.Covers s.machine.gtt p :=
  ⟨by decide +kernel, (run_exact .empty smallGTT_init _).1⟩

end Aperture
end IntelGfx
