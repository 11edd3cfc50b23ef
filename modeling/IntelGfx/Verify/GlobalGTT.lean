import IntelGfx.Kernel.GlobalGTT

/-!
# What the operations of the global GTT do

`Maps g first pages`: the managed pages from `first` on are used and hold `pages`. A successful
`bind` maps the area at the lowest free run and touches nothing else (`bind_ok`); a failed one
leaves the bitmap alone and rewrites nothing but entries of free pages (`bind_error`); `unbind`
frees what it is given (`unbind_ok`).
-/

namespace IntelGfx
namespace GlobalGTT
variable {α : Type} {ω : Oracle} {os os' : Os α} {g g' : GlobalGTT} {area : Nat}

/-! ## Writing entries and marking pages -/

theorem fill_eq (g : GlobalGTT) (first entry count : Nat) :
    g.fill first entry count =
      { g with entries := fun p => if g.firstPage + first ≤ p ∧ p < g.firstPage + first + count
          then entry else g.entries p } := by
  induction count with
  | zero =>
    have : ∀ p, ¬ (g.firstPage + first ≤ p ∧ p < g.firstPage + first) := by omega
    simp [fill, this]
  | succ count ih =>
    simp only [fill, ih, writeEntry, GlobalGTT.mk.injEq, and_true]
    funext p
    by_cases h : p = g.firstPage + first + count
    · simp only [h, if_true]
      rw [if_pos (by omega)]
    · simp only [h, if_false]
      have : (p < g.firstPage + first + count) ↔ (p < g.firstPage + first + (count + 1)) := by omega
      simp only [this]

theorem setUsedRange_eq (g : GlobalGTT) (first : Nat) (used : Bool) (count : Nat) :
    g.setUsedRange first used count =
      { g with used := fun p => if first ≤ p ∧ p < first + count then used else g.used p } := by
  induction count with
  | zero =>
    have : ∀ p, ¬ (first ≤ p ∧ p < first) := by omega
    simp [setUsedRange, this]
  | succ count ih =>
    simp only [setUsedRange, ih, setUsed, GlobalGTT.mk.injEq, true_and]
    funext p
    by_cases h : p = first + count
    · simp only [h, if_true]
      rw [if_pos (by omega)]
    · simp only [h, if_false]
      have : (p < first + count) ↔ (p < first + (count + 1)) := by omega
      simp only [this]

/-- `g'` differs from `g` in the entries from `lo` up to `hi` only. -/
def Wrote (lo hi : Nat) (g g' : GlobalGTT) : Prop :=
  g' = { g with entries := g'.entries } ∧ ∀ p, ¬ (lo ≤ p ∧ p < hi) → g'.entries p = g.entries p

theorem Wrote.rfl {lo hi : Nat} : Wrote lo hi g g := ⟨Eq.refl _, fun _ _ => Eq.refl _⟩

theorem Wrote.trans {lo hi : Nat} {g'' : GlobalGTT} (h : Wrote lo hi g g')
    (h' : Wrote lo hi g' g'') : Wrote lo hi g g'' := by
  refine ⟨?_, fun p hp => (h'.2 p hp).trans (h.2 p hp)⟩
  rw [h'.1, h.1]

theorem Wrote.firstPage {lo hi : Nat} (h : Wrote lo hi g g') : g'.firstPage = g.firstPage := by
  rw [h.1]

theorem Wrote.mono {lo hi lo' hi' : Nat} (h : Wrote lo hi g g') (hl : lo' ≤ lo) (hh : hi ≤ hi') :
    Wrote lo' hi' g g' := ⟨h.1, fun p hp => h.2 p (by omega)⟩

theorem wrote_writeEntry (g : GlobalGTT) (page entry : Nat) : Wrote page (page + 1) g
    (g.writeEntry page entry) :=
  ⟨Eq.refl _, fun p hp => by simp [writeEntry, show p ≠ page by omega]⟩

/-! ## The memory map of an area -/

/-- The two loops over a memory map write one page after the other. -/
private def writePages (first chunk : Nat) : List Nat → (page : Nat) → GlobalGTT →
    Except Error Nat × GlobalGTT
  | [], page, g => (.ok page, g)
  | x :: xs, page, g =>
    if page < chunk then
      if unaddressable x then (.error .badAddress, g)
      else writePages first chunk xs (page + 1)
        (g.writeEntry (g.firstPage + first + page) (x ||| kEntryPresent))
    else (.ok page, g)

private theorem writePages_full {first chunk page : Nat} (xs : List Nat) (h : ¬ page < chunk) :
    writePages first chunk xs page g = (.ok page, g) := by
  cases xs <;> simp [writePages, h]

private theorem writePages_append {first chunk page : Nat} {xs ys : List Nat} :
    writePages first chunk (xs ++ ys) page g =
      match writePages first chunk xs page g with
      | (.error e, g) => (.error e, g)
      | (.ok page, g) => writePages first chunk ys page g := by
  induction xs generalizing page g with
  | nil => rfl
  | cons x xs ih =>
    simp only [List.cons_append, writePages]
    split
    · split
      · rfl
      · exact ih
    · next h => exact (writePages_full ys h).symm

private theorem mapExtent_eq {first chunk left physical page : Nat} :
    mapExtent first chunk left physical page g =
      writePages first chunk ((List.range left).map (physical + · * 4096)) page g := by
  induction left generalizing physical page g with
  | zero => rfl
  | succ left ih =>
    rw [List.range_succ_eq_map, List.map_cons, List.map_map, mapExtent, writePages]
    have : (List.range left).map ((physical + · * 4096) ∘ Nat.succ) =
        (List.range left).map (physical + 4096 + · * 4096) := by
      refine List.map_congr_left fun i _ => ?_
      simp only [Function.comp_apply, Nat.succ_eq_add_one]
      omega
    simp only [Nat.zero_mul, Nat.add_zero, this, ih]

private theorem mapTable_eq {first chunk page : Nat} {table : List (Nat × Nat)}
    (h : ∀ e ∈ table, e.2 % 4096 = 0) :
    mapTable first chunk table page g =
      writePages first chunk (table.flatMap extentPages) page g := by
  induction table generalizing page g with
  | nil => rfl
  | cons e table ih =>
    have he := h e List.mem_cons_self
    have hceil : (e.2 + 4095) / 4096 = e.2 / 4096 := by omega
    rw [List.flatMap_cons, writePages_append, mapTable]
    split
    · rw [hceil, mapExtent_eq, extentPages]
      generalize writePages first chunk _ page g = res
      obtain ⟨r, g'⟩ := res
      cases r with
      | error _ => rfl
      | ok page' => exact ih fun e he => h e (List.mem_cons_of_mem _ he)
    · next hp => simp only [writePages_full _ hp]

private theorem wrote_writePages (g : GlobalGTT) (first : Nat) {chunk page : Nat} {xs : List Nat}
    (hp : page + xs.length ≤ chunk) :
    Wrote (g.firstPage + first + page) (g.firstPage + first + chunk) g
      (writePages first chunk xs page g).2 := by
  induction xs generalizing page g with
  | nil => exact .rfl
  | cons x xs ih =>
    rw [List.length_cons] at hp
    rw [writePages, if_pos (by omega)]
    split
    · exact .rfl
    · have hw := wrote_writeEntry g (g.firstPage + first + page) (x ||| kEntryPresent)
      refine (hw.mono (Nat.le_refl _) (by omega)).trans ?_
      exact (ih _ (by omega)).mono (by simp [writeEntry]) (by simp [writeEntry])

private theorem writePages_ok {first chunk page page' : Nat} {xs : List Nat}
    (hp : page + xs.length ≤ chunk) (h : writePages first chunk xs page g = (.ok page', g')) :
    page' = page + xs.length ∧ ∀ i x, xs[i]? = some x →
      g'.entries (g.firstPage + first + page + i) = x ||| kEntryPresent ∧
        unaddressable x = false := by
  induction xs generalizing page g with
  | nil => simp only [writePages, Prod.mk.injEq, Except.ok.injEq] at h; simp [h.1]
  | cons x xs ih =>
    rw [List.length_cons] at hp ⊢
    rw [writePages, if_pos (by omega)] at h
    split at h
    · simp at h
    · next hx =>
      have hw := wrote_writePages (g.writeEntry (g.firstPage + first + page)
        (x ||| kEntryPresent)) first (show page + 1 + xs.length ≤ chunk by omega)
      obtain ⟨h1, h2⟩ := ih (by omega) h
      rw [h] at hw
      refine ⟨by omega, fun i y hi => ?_⟩
      cases i with
      | zero =>
        simp only [List.getElem?_cons_zero, Option.some.injEq] at hi
        subst hi
        refine ⟨?_, by simpa using hx⟩
        rw [hw.2 _ (by simp [writeEntry])]
        simp [writeEntry]
      | succ i =>
        rw [List.getElem?_cons_succ] at hi
        have := h2 i y hi
        rwa [show g.firstPage + first + page + (i + 1) = g.firstPage + first + (page + 1) + i by
          omega]

private theorem writePages_error {first chunk page : Nat} {xs : List Nat} {e : Error}
    (h : writePages first chunk xs page g = (.error e, g')) : e = .badAddress := by
  induction xs generalizing page g with
  | nil => simp [writePages] at h
  | cons x xs ih =>
    rw [writePages] at h
    split at h
    · split at h
      · cases h; rfl
      · exact ih h
    · simp at h

private theorem length_le_flatMap {extents : List (Nat × Nat)}
    (h : ∀ e ∈ extents, e.2 % 4096 = 0 ∧ 0 < e.2) :
    extents.length ≤ (extents.flatMap extentPages).length := by
  induction extents with
  | nil => simp
  | cons e extents ih =>
    have := ih fun e he => h e (List.mem_cons_of_mem _ he)
    have := h e List.mem_cons_self
    simp only [List.flatMap_cons, List.length_append, List.length_cons, extentPages,
      List.length_map, List.length_range] at *
    omega

/-- A memory map of `pages` fits into the table with its empty last entry. -/
private theorem flatMap_take {pages : List Nat} {n : Nat} (hp : pages.length ≤ kChunkPages) :
    ((ω.extents n pages ++ [(0, 0)]).take kChunkPages).flatMap extentPages = pages := by
  have hpages := ω.extents_pages n pages
  have hlen := length_le_flatMap (ω.extents_aligned n pages)
  rw [hpages] at hlen
  rw [List.take_append, List.take_of_length_le (by omega), List.flatMap_append, hpages]
  rcases Nat.eq_zero_or_pos (kChunkPages - (ω.extents n pages).length) with h0 | h0
  · simp [h0]
  · obtain ⟨k, hk⟩ := Nat.exists_eq_succ_of_ne_zero h0.ne'
    simp [hk, extentPages]

private theorem mapTable_memoryMap (ω : Oracle) (g : GlobalGTT) (first n : Nat) {pages : List Nat}
    (hp : pages.length ≤ kChunkPages) :
    mapTable first pages.length ((ω.extents n pages ++ [(0, 0)]).take kChunkPages) 0 g =
      writePages first pages.length pages 0 g := by
  rw [mapTable_eq, flatMap_take hp]
  intro e he
  rcases List.mem_append.mp (List.mem_of_mem_take he) with he | he
  · exact (ω.extents_aligned n pages e he).1
  · simp [List.mem_singleton.mp he]

/-- The chunks up to `done` are in place, and the rest follows or the area stays half mapped. -/
private theorem mapArea_spec {ar : Area α} {first count fuel done : Nat} {r : Except Error Unit}
    (har : os.find area = some ar) (hc : count = ar.pages.length) (hfuel : count ≤ done + fuel)
    (hd : done ≤ count) (h : mapArea ω area first count fuel done os g = (r, os', g')) :
    Os.Same os os' ∧ Wrote (g.firstPage + (first + done)) (g.firstPage + (first + count)) g g' ∧
      (r = .ok () → ∀ i x, done ≤ i → ar.pages[i]? = some x →
        g'.entries (g.firstPage + (first + i)) = x ||| kEntryPresent ∧
          unaddressable x = false) ∧
      r ≠ .error .noMemory := by
  -- nothing is left to map once `done` has reached `count`
  have hdone : count ≤ done → ∀ i x, done ≤ i → ar.pages[i]? = some x →
      g.entries (g.firstPage + (first + i)) = x ||| kEntryPresent ∧ unaddressable x = false := by
    intro hle i x hi hx
    have := (List.getElem?_eq_some_iff.mp hx).1
    omega
  induction fuel generalizing done os g with
  | zero =>
    cases h
    exact ⟨.rfl, .rfl, fun _ => hdone (by omega), by simp⟩
  | succ fuel ih =>
    rw [mapArea] at h
    split at h
    · next hlt =>
      dsimp only at h
      have hchunk : min (count - done) kChunkPages ≤ kChunkPages := Nat.min_le_right _ _
      have hpos : 0 < min (count - done) kChunkPages := by simp [kChunkPages]; omega
      have hle : min (count - done) kChunkPages ≤ count - done := Nat.min_le_left _ _
      generalize min (count - done) kChunkPages = chunk at *
      have hsame := os.same_memoryMap ω area done chunk
      split at h
      · next e os1 hmap =>
        cases h
        rw [hmap] at hsame
        exact ⟨hsame, .rfl, by simp, by simpa using Os.memoryMap_error har (by omega) hmap⟩
      · next table os1 hmap =>
        rw [hmap] at hsame
        obtain ⟨ar', har', hbound, rfl⟩ := Os.memoryMap_ok hmap
        rw [har] at har'
        cases har'
        have hlen : ((ar.pages.drop done).take chunk).length = chunk := by
          rw [List.length_take, List.length_drop]
          omega
        have heq := mapTable_memoryMap ω g (first + done) os.calls (hlen.trans_le hchunk)
        rw [hlen] at heq
        rw [heq] at h
        have hw := wrote_writePages g (first + done) ((Nat.zero_add _).trans hlen).le
        have hw : Wrote (g.firstPage + (first + done)) (g.firstPage + (first + count)) g _ :=
          hw.mono (by omega) (by omega)
        split at h
        · next e g1 hwrite =>
          cases h
          rw [hwrite] at hw
          exact ⟨hsame, hw, by simp, by simp [writePages_error hwrite]⟩
        · next page g1 hwrite =>
          rw [hwrite] at hw
          obtain ⟨hpage, hentries⟩ := writePages_ok (by omega) hwrite
          rw [if_neg (by omega)] at h
          have hfp : g1.firstPage = g.firstPage := hw.firstPage
          obtain ⟨hsame', hw', hres, hne⟩ := ih (hsame.find.trans har)
            (by omega : count ≤ done + chunk + fuel) (by omega) h (by
              intro hle i x hi hx
              have := (List.getElem?_eq_some_iff.mp hx).1
              omega)
          rw [hfp] at hw' hres
          refine ⟨hsame.trans hsame', hw.trans (hw'.mono (by omega) (Nat.le_refl _)), ?_, hne⟩
          intro hr i x hi hx
          by_cases hic : done + chunk ≤ i
          · exact hres hr i x hic hx
          · have := hentries (i - done) x (by
              rw [List.getElem?_take, if_pos (by omega), List.getElem?_drop,
                show done + (i - done) = i by omega, hx])
            rw [hw'.2 _ (by omega)]
            rwa [show g.firstPage + (first + done) + 0 + (i - done) = g.firstPage + (first + i) by
              omega] at this
    · cases h
      exact ⟨.rfl, .rfl, fun _ => hdone (by omega), by simp⟩

/-! ## Well-formedness -/

/-- The managed pages of a GTT that has been set up: the unused ones show the scratch page. -/
structure WF (g : GlobalGTT) : Prop where
  valid : g.valid = true
  base : g.base = g.firstPage * 4096
  size : g.size = g.pageCount * 4096
  small : g.pageCount ≤ 65536
  fits : g.firstPage + g.pageCount ≤ g.entryCount
  bounded : ∀ p, g.pageCount ≤ p → g.used p = false
  scratch : ∀ p, p < g.pageCount → g.used p = false → g.entries (g.firstPage + p) = g.scratchEntry

/-- The managed pages from `first` on are used and hold `pages`. -/
def Maps (g : GlobalGTT) (first : Nat) (pages : List Nat) : Prop :=
  first + pages.length ≤ g.pageCount ∧ ∀ i x, pages[i]? = some x → g.used (first + i) = true ∧
    g.entries (g.firstPage + (first + i)) = x ||| kEntryPresent ∧ unaddressable x = false

/-- An entry that is not managed may be written by others. -/
theorem WF.writeEntry {page entry : Nat} (W : g.WF)
    (h : ¬ (g.firstPage ≤ page ∧ page < g.firstPage + g.pageCount)) :
    (g.writeEntry page entry).WF := by
  refine ⟨W.valid, W.base, W.size, W.small, W.fits, W.bounded, fun p hp hu => ?_⟩
  have hp : p < g.pageCount := hp
  have hne : g.firstPage + p ≠ page := by
    rintro rfl
    exact h ⟨Nat.le_add_right .., Nat.add_lt_add_left hp _⟩
  exact (if_neg hne).trans (W.scratch p hp hu)

theorem Maps.writeEntry {page entry first : Nat} {pages : List Nat} (hm : Maps g first pages)
    (h : ¬ (g.firstPage ≤ page ∧ page < g.firstPage + g.pageCount)) :
    Maps (g.writeEntry page entry) first pages := by
  obtain ⟨hle, hpages⟩ := hm
  refine ⟨hle, fun i x hx => ?_⟩
  obtain ⟨hu, he, hx'⟩ := hpages i x hx
  have hlt := (List.getElem?_eq_some_iff.mp hx).1
  have hne : g.firstPage + (first + i) ≠ page := by
    rintro rfl
    exact h ⟨Nat.le_add_right .., Nat.add_lt_add_left (by omega) _⟩
  exact ⟨hu, (if_neg hne).trans he, hx'⟩

/-- `g'` differs from `g` in `count` managed pages from `first` on only. -/
structure Frame (first count : Nat) (g g' : GlobalGTT) : Prop where
  rest : g' = { g with entries := g'.entries, used := g'.used }
  used : ∀ p, ¬ (first ≤ p ∧ p < first + count) → g'.used p = g.used p
  entries : ∀ p, ¬ (g.firstPage + first ≤ p ∧ p < g.firstPage + first + count) →
    g'.entries p = g.entries p

namespace Frame
variable {first count : Nat}

theorem firstPage (F : Frame first count g g') : g'.firstPage = g.firstPage := by rw [F.rest]
theorem pageCount (F : Frame first count g g') : g'.pageCount = g.pageCount := by rw [F.rest]
theorem base (F : Frame first count g g') : g'.base = g.base := by rw [F.rest]
theorem valid (F : Frame first count g g') : g'.valid = g.valid := by rw [F.rest]
theorem scratchArea (F : Frame first count g g') : g'.scratchArea = g.scratchArea := by rw [F.rest]
theorem scratchPage (F : Frame first count g g') : g'.scratchPage = g.scratchPage := by rw [F.rest]

theorem trans_rest {g₀ : GlobalGTT} (F : Frame first count g g')
    (h : g = { g₀ with entries := g.entries, used := g.used }) :
    g' = { g₀ with entries := g'.entries, used := g'.used } := by rw [F.rest, h]

theorem scratchEntry (F : Frame first count g g') : g'.scratchEntry = g.scratchEntry := by
  simp [GlobalGTT.scratchEntry, F.scratchPage]

/-- What is mapped elsewhere stays mapped. -/
theorem maps (F : Frame first count g g') {f : Nat} {pages : List Nat} (h : Maps g f pages)
    (hf : ∀ i, i < pages.length → ¬ (first ≤ f + i ∧ f + i < first + count)) :
    Maps g' f pages := by
  refine ⟨F.pageCount ▸ h.1, fun i x hx => ?_⟩
  have hi := hf i (List.getElem?_eq_some_iff.mp hx).1
  rw [F.used _ hi, F.firstPage, F.entries _ (by omega)]
  exact h.2 i x hx

theorem wf (F : Frame first count g g') (W : g.WF) (hc : first + count ≤ g.pageCount)
    (h : ∀ p, first ≤ p → p < first + count → g'.used p = false →
      g'.entries (g.firstPage + p) = g.scratchEntry) : g'.WF where
  valid := F.valid.trans W.valid
  base := by rw [F.rest]; exact W.base
  size := by rw [F.rest]; exact W.size
  small := by rw [F.rest]; exact W.small
  fits := by rw [F.rest]; exact W.fits
  bounded := by
    intro p hp
    rw [F.pageCount] at hp
    rw [F.used p (by omega)]
    exact W.bounded p hp
  scratch := by
    intro p hp hu
    rw [F.pageCount] at hp
    rw [F.scratchEntry, F.firstPage]
    by_cases hr : first ≤ p ∧ p < first + count
    · exact h p hr.1 hr.2 hu
    · rw [F.entries _ (by omega)]
      rw [F.used p hr] at hu
      exact W.scratch p hp hu

end Frame

/-! ## Init -/

/-- What `Init` does when it succeeds. -/
theorem init_eq_ok {owner : α} {registers barSize generation tableSize reserved : Nat}
    (h : g.init ω os owner registers barSize generation tableSize reserved = (.ok (), os', g')) :
    ¬ tableSize / 8 * 4096 % 2 ^ 64 ≤ pageRound reserved ∧ ∃ area os₁ physical os₂,
      os.createArea ω owner false 1 = (.ok area, os₁) ∧
      os₁.memoryPage ω area 0 = (.ok physical, os₂) ∧ os' = os₂.called ∧
      g' = ({ g with
        valid := true, entryCount := tableSize / 8, firstPage := pageRound reserved / 4096,
        pageCount :=
          min (tableSize / 8 * 4096 % 2 ^ 64 - pageRound reserved) kManagedSize / 4096,
        base := pageRound reserved,
        size := min (tableSize / 8 * 4096 % 2 ^ 64 - pageRound reserved) kManagedSize,
        scratchArea := some area, scratchPage := physical,
        used := fun _ => false } : GlobalGTT).fill 0 (physical ||| kEntryPresent)
          (min (tableSize / 8 * 4096 % 2 ^ 64 - pageRound reserved) kManagedSize / 4096) := by
  unfold init at h
  split at h
  · simp at h
  split at h
  · simp at h
  split at h
  · simp at h
  dsimp only at h
  split at h
  · simp at h
  next hspace =>
  split at h
  · simp at h
  next area os₁ hc =>
  split at h
  · simp at h
  next physical os₂ hm =>
  split at h
  · simp at h
  split at h
  · simp at h
  simp only [Prod.mk.injEq, true_and] at h
  exact ⟨hspace, area, os₁, physical, os₂, hc, hm, h.1.symm, h.2.symm⟩

/-- A GTT that has just been set up manages a range of free pages and has written nothing else. -/
theorem init_ok {owner : α} {registers barSize generation tableSize reserved : Nat}
    (h : g.init ω os owner registers barSize generation tableSize reserved = (.ok (), os', g')) :
    g'.WF ∧ (∀ p, g'.used p = false) ∧
      (∀ p, ¬ (g'.firstPage ≤ p ∧ p < g'.firstPage + g'.pageCount) →
        g'.entries p = g.entries p) := by
  obtain ⟨hspace, area, os₁, physical, os₂, -, -, -, rfl⟩ := init_eq_ok h
  rw [fill_eq]
  have hround := pageRound_mod reserved
  have hman : kManagedSize = 65536 * 4096 := rfl
  refine ⟨⟨rfl, ?_, ?_, ?_, ?_, fun _ _ => rfl, ?_⟩, fun _ => rfl, ?_⟩
  · dsimp only
    omega
  · dsimp only
    omega
  · dsimp only
    omega
  · dsimp only
    omega
  · intro p hp _
    dsimp only at hp ⊢
    rw [if_pos (by omega)]
    rfl
  · intro p hp
    dsimp only at hp ⊢
    rw [if_neg (by omega)]

/-- The part of the table that the GTT manages after it has been set up. -/
theorem init_part {owner : α} {registers barSize generation tableSize reserved : Nat}
    (h : g.init ω os owner registers barSize generation tableSize reserved = (.ok (), os', g')) :
    g'.firstPage = pageRound reserved / 4096 ∧
      g'.pageCount =
        min (tableSize / 8 * 4096 % 2 ^ 64 - pageRound reserved) kManagedSize / 4096 := by
  obtain ⟨-, area, os₁, physical, os₂, -, -, -, rfl⟩ := init_eq_ok h
  rw [fill_eq]
  exact ⟨rfl, rfl⟩

theorem init_changes {owner : α} {registers barSize generation tableSize reserved : Nat}
    {r : Except Error Unit} (H : os.WF)
    (h : g.init ω os owner registers barSize generation tableSize reserved = (r, os', g')) :
    os'.WF ∧ Os.Changes (· = owner) os os' := by
  unfold init at h
  split at h
  · cases h
    exact ⟨H, .rfl⟩
  split at h
  · cases h
    exact ⟨H, .rfl⟩
  split at h
  · cases h
    exact ⟨H, .rfl⟩
  dsimp only at h
  split at h
  · cases h
    exact ⟨H, .rfl⟩
  split at h
  · next hc =>
    cases h
    exact ⟨(Os.createArea_error hc).1.wf H, (Os.createArea_error hc).1.changes⟩
  next a os1 hc =>
  have H1 := H.createArea hc
  have C1 : Os.Changes (· = owner) os os1 := Os.changes_createArea rfl hc H
  have hfind : ∀ {os2 : Os α}, Os.Same os1 os2 → ∀ ar, os2.find a = some ar → ar.owner = owner := by
    intro os2 S ar har
    obtain ⟨rfl, -, -, -, pages, -, hfind⟩ := Os.createArea_ok hc
    rw [S.find, hfind, if_pos rfl] at har
    cases har
    rfl
  -- what the rest of the function does when it gives up
  have hundo : ∀ {os2 : Os α}, Os.Same os1 os2 → (os2.deleteArea a).WF ∧
      Os.Changes (· = owner) os (os2.deleteArea a) := fun S =>
    ⟨(S.wf H1).deleteArea, (C1.trans S.changes).trans (Os.changes_deleteArea (hfind S))⟩
  have hsame := os1.same_memoryPage ω a 0
  split at h
  · next hm =>
    rw [hm] at hsame
    cases h
    exact hundo hsame
  next os2 hm =>
  rw [hm] at hsame
  split at h
  · cases h
    exact hundo hsame
  split at h
  · cases h
    exact hundo (hsame.trans (Os.same_refused _))
  · cases h
    exact ⟨(Os.same_called _).wf (hsame.wf H1), C1.trans (hsame.trans (Os.same_called _)).changes⟩

theorem init_error {owner : α} {registers barSize generation tableSize reserved : Nat} {e : Error}
    (h : g.init ω os owner registers barSize generation tableSize reserved = (.error e, os', g')) :
    g' = g := by
  unfold init at h
  split at h
  · cases h
    rfl
  split at h
  · cases h
    rfl
  split at h
  · cases h
    rfl
  dsimp only at h
  split at h
  · cases h
    rfl
  split at h
  · cases h
    rfl
  split at h
  · cases h
    rfl
  split at h
  · cases h
    rfl
  split at h <;> cases h
  rfl

/-- The scratch page is in an area of the GTT's own. -/
theorem init_scratch {owner : α} {registers barSize generation tableSize reserved a : Nat}
    (H : os.WF)
    (h : g.init ω os owner registers barSize generation tableSize reserved = (.ok (), os', g'))
    (ha : g'.scratchArea = some a) :
    a < os'.nextArea ∧ ∀ ar, os'.find a = some ar → ar.owner = owner := by
  obtain ⟨-, area, os₁, physical, os₂, hc, hm, rfl, rfl⟩ := init_eq_ok h
  have H₁ := H.createArea hc
  obtain ⟨rfl, -, -, -, pages, -, hfind⟩ := Os.createArea_ok hc
  have hself : os₁.find os.nextArea = some ⟨owner, pages⟩ := by rw [hfind, if_pos rfl]
  have hsame := os₁.same_memoryPage ω os.nextArea 0
  rw [hm] at hsame
  rw [fill_eq] at ha
  cases ha
  have hfind' : os₂.called.find os.nextArea = some ⟨owner, pages⟩ := by
    rw [Os.find_called, hsame.find, hself]
  refine ⟨((Os.same_called os₂).wf (hsame.wf H₁)).ids hfind', fun ar har => ?_⟩
  cases har.symm.trans hfind'
  rfl

/-- The scratch area is deleted, if there is one. -/
theorem destroy_spec (os : Os α) (g : GlobalGTT) : (g.destroy os).2.valid = false ∧
    (g.destroy os).2.scratchArea = none ∧
    ((g.destroy os).1 = os ∨ ∃ a, g.scratchArea = some a ∧ (g.destroy os).1 = os.deleteArea a) := by
  unfold destroy
  rw [fill_eq]
  cases ha : g.scratchArea with
  | none =>
    refine ⟨?_, ?_, .inl rfl⟩
    · dsimp only
      split
      · rfl
      · next hv => simpa using hv
    · dsimp only
      split
      · rfl
      · exact ha
  | some a =>
    refine ⟨?_, rfl, .inr ⟨a, rfl, rfl⟩⟩
    dsimp only
    split
    · rfl
    · next hv => simpa using hv

/-! ## Bind and unbind -/

/-- A run of `count` unused managed pages. -/
abbrev Free (g : GlobalGTT) (count first : Nat) : Prop :=
  FirstFit.IsRun (fun page => !g.isUsed page) count g.pageCount first

private theorem allocate_ok {count first : Nat} (hc : 0 < count)
    (h : g.allocate count = (.ok first, g')) :
    g.Free count first ∧ (∀ f, g.Free count f → first ≤ f) ∧
      g' = g.setUsedRange first true count := by
  unfold allocate at h
  split at h
  · simp at h
  · next hf =>
    cases h
    obtain ⟨h1, h2⟩ := (FirstFit.firstFit_eq_some_iff hc).mp hf
    exact ⟨h1, h2, rfl⟩

private theorem allocate_error {count : Nat} {e : Error} (hc : 0 < count)
    (h : g.allocate count = (.error e, g')) : g' = g ∧ ∀ f, ¬ g.Free count f := by
  unfold allocate at h
  split at h
  · next hf =>
    cases h
    exact ⟨rfl, (FirstFit.firstFit_eq_none_iff hc).mp hf⟩
  · simp at h

theorem bind_not_valid (h : g.valid = false) : g.bind ω os
    area = (.error .notSupported, os, g) := by
  simp [bind, isValid, h]

/-- `bind` maps the area at the lowest run of free pages that can take it. -/
theorem bind_ok {ar : Area α} {address : Nat} (W : g.WF) (har : os.find area = some ar)
    (hb : ar.pages.length < 2 ^ 51) (h : g.bind ω os area = (.ok address, os', g')) :
    Os.Same os os' ∧ ∃ first, address = g.base + first * 4096 ∧ 0 < ar.pages.length ∧
      g.Free ar.pages.length first ∧ (∀ f, g.Free ar.pages.length f → first ≤ f) ∧
      Frame first ar.pages.length g g' ∧ Maps g' first ar.pages := by
  unfold bind at h
  simp only [isValid, W.valid, Bool.not_true, Bool.false_eq_true, if_false, Os.areaSize, har,
    Area.size, pageRound_mul hb] at h
  split at h
  · simp at h
  next hsize =>
  have hpos : 0 < ar.pages.length := by omega
  rw [Nat.mul_div_cancel _ (by omega)] at h
  split at h
  · simp at h
  next first g1 halloc =>
  obtain ⟨hfree, hlow, rfl⟩ := allocate_ok hpos halloc
  split at h
  · simp at h
  next hmap =>
  cases h
  rw [setUsedRange_eq] at hmap
  obtain ⟨hsame, hw, hres, -⟩ := mapArea_spec har rfl (by omega) (by omega) hmap
  refine ⟨hsame, first, by rw [hw.1], hpos, hfree, hlow, ⟨?_, fun p hp => ?_, fun p hp => ?_⟩,
    by rw [hw.1]; exact hfree.1, fun i x hx => ?_⟩
  · rw [hw.1]
  · rw [hw.1]
    simp only [hp, if_false]
  · exact hw.2 p (by dsimp only; omega)
  · have := (List.getElem?_eq_some_iff.mp hx).1
    refine ⟨?_, hw.firstPage ▸ hres rfl i x (by omega) hx⟩
    rw [hw.1]
    simp only [Nat.le_add_right, true_and, Nat.add_lt_add_iff_left, this, if_true]

/-- A failed `bind` leaves everything as it was, and runs out of memory only when no run of free
pages can take the area. -/
theorem bind_error {ar : Area α} {e : Error} (W : g.WF) (har : os.find area = some ar)
    (hb : ar.pages.length < 2 ^ 51) (h : g.bind ω os area = (.error e, os', g')) :
    Os.Same os os' ∧ g' = g ∧ (e = .noMemory → ∀ f, ¬ g.Free ar.pages.length f) := by
  unfold bind at h
  simp only [isValid, W.valid, Bool.not_true, Bool.false_eq_true, if_false, Os.areaSize, har,
    Area.size, pageRound_mul hb] at h
  split at h
  · cases h
    exact ⟨.rfl, rfl, by simp⟩
  next hsize =>
  have hpos : 0 < ar.pages.length := by omega
  rw [Nat.mul_div_cancel _ (by omega)] at h
  split at h
  · next halloc =>
    cases h
    obtain ⟨rfl, hno⟩ := allocate_error hpos halloc
    exact ⟨.rfl, rfl, fun _ => hno⟩
  next first g1 halloc =>
  obtain ⟨hfree, hlow, rfl⟩ := allocate_ok hpos halloc
  split at h
  · next e' os1 g2 hmap =>
    simp only [Prod.mk.injEq, Except.error.injEq] at h
    obtain ⟨rfl, rfl, rfl⟩ := h
    rw [setUsedRange_eq] at hmap
    obtain ⟨hsame, hw, -, hne⟩ := mapArea_spec har rfl (by omega) (by omega) hmap
    refine ⟨hsame, ?_, fun he => absurd he (by simpa using hne)⟩
    -- what was marked and written was free, and is made to show the scratch page again
    have hu : ∀ p, first ≤ p → p < first + ar.pages.length → g.used p = false := by
      intro p h1 h2
      have := hfree.2 (p - first) (by omega)
      simpa [isUsed, show first + (p - first) = p by omega] using this
    rw [setUsedRange_eq, fill_eq, hw.1]
    cases g with | mk entries _ _ firstPage pageCount _ _ _ scratchPage used =>
    simp only [scratchEntry, GlobalGTT.mk.injEq, true_and] at *
    refine ⟨funext fun p => ?_, funext fun p => ?_⟩
    · split
      · next hp =>
        have := W.scratch (p - firstPage) (by have := hfree.1; dsimp only at *; omega)
          (hu _ (by omega) (by omega))
        simpa [scratchEntry, show firstPage + (p - firstPage) = p by omega] using this.symm
      · next hp => exact hw.2 p (by omega)
    · split
      · next hp => exact (hu p hp.1 hp.2).symm
      · rfl
  · simp at h

/-- `unbind` of a bound range frees its pages. -/
theorem unbind_maps {first : Nat} {pages : List Nat} (W : g.WF) (hm : Maps g first pages)
    (hpos : 0 < pages.length) :
    ∃ g', g.unbind (g.base + first * 4096) (pages.length * 4096) = (.ok (), g') ∧
      Frame first pages.length g g' ∧ ∀ p, first ≤ p → p < first + pages.length →
        g'.used p = false ∧ g'.entries (g.firstPage + p) = g.scratchEntry := by
  have hle := hm.1
  have hsmall := W.small
  have hbase := W.base
  have hsize := W.size
  have hround : pageRound (pages.length * 4096) = pages.length * 4096 := pageRound_mul (by omega)
  have hused : (List.range pages.length).all (fun i => g.isUsed (first + i)) = true := by
    rw [List.all_eq_true]
    intro i hi
    exact (hm.2 i _ (List.getElem?_eq_getElem (List.mem_range.mp hi))).1
  refine ⟨(g.fill first g.scratchEntry pages.length).setUsedRange first false pages.length,
    ?_, ?_⟩
  · unfold unbind
    simp only [isValid, W.valid, Bool.not_true, Bool.false_eq_true, if_false, hround]
    rw [if_neg (by omega), show (g.base + first * 4096 - g.base) / 4096 = first by omega,
      Nat.mul_div_cancel _ (by omega), if_pos hused]
  · rw [setUsedRange_eq, fill_eq]
    refine ⟨⟨rfl, fun p hp => ?_, fun p hp => ?_⟩, fun p h1 h2 => ⟨?_, ?_⟩⟩
    · simp only [hp, if_false]
    · simp only [hp, if_false]
    · simp only [h1, h2, and_self, if_true]
    · dsimp only
      rw [if_pos (by omega)]

/-! ## Lookup -/

theorem lookup_ok {p x : Nat} (h : g.lookup p = .ok x) :
    p % 4096 = 0 ∧ x % 4096 = 0 ∧ x < 2 ^ 39 ∧ p / 4096 < g.entryCount ∧
      g.entries (p / 4096) &&& kEntryPresent ≠ 0 ∧
      x = g.entries (p / 4096) &&& addressMask := by
  unfold lookup at h
  split at h
  · cases h
  split at h
  · cases h
  next hp =>
  dsimp only at h
  split at h
  · cases h
  next hc =>
  split at h
  · cases h
  next he =>
  cases h
  rw [and_addressMask]
  exact ⟨by omega, by omega, by omega, by omega, he, rfl⟩

/-- A managed page that is mapped is found. -/
theorem Maps.lookup {first i p : Nat} {pages : List Nat} (hm : Maps g first pages)
    (hi : i < pages.length) (h : g.lookup ((g.firstPage + (first + i)) * 4096) = .ok p) :
    pages[i]? = some p := by
  obtain ⟨-, -, -, -, -, rfl⟩ := lookup_ok h
  have hx := List.getElem?_eq_getElem hi
  obtain ⟨-, he, hu⟩ := hm.2 i _ hx
  obtain ⟨h1, h2⟩ := unaddressable_eq_false.mp hu
  rw [hx, Nat.mul_div_cancel _ (by omega), he, and_addressMask, kEntryPresent,
    or_of_aligned h1 (by omega)]
  congr 1
  omega

end GlobalGTT
end IntelGfx
