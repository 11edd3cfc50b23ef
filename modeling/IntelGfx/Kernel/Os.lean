import Mathlib.Tactic.Common
import Mathlib.Tactic.NormNum
import Mathlib.Data.List.Nodup
import Mathlib.Data.List.Basic
import Mathlib.Data.List.MinMax
import Mathlib.Data.Nat.Bitwise

/-!
# What the driver takes from the rest of the system

The system calls of `kernel/` that can fail or that hand out memory: `create_area`,
`delete_area`, `get_area_info`, `get_memory_map` and `user_memcpy`, and what the hardware answers
when it is polled. The answers come from an `Oracle`, one for each operation of the driver; its
`n`-th answer is for the `n`-th call the operation makes. A call that fails may do so with any
code.

An area carries the object it was created for as its `owner`. The driver never reads it: it is
there so that two objects can be told apart by the areas they hold.
-/

namespace IntelGfx

/-- The status codes other than `B_OK`. -/
inductive Error where
  | error | noMemory | badValue | badAddress | noInit | busy | notSupported | entryNotFound
  | devNotReady | devInvalidIoctl | timedOut | other (code : Nat)
  deriving DecidableEq, Repr

/-! ## Physical addresses -/

/-- `kPageEntryAddressMask` and `kEntryAddressMask`: the address bits of a page table entry. -/
def addressMask : Nat := 0x0000007ffffff000

/-- `(address & ~mask) != 0`: an address that a page table entry cannot hold. -/
def unaddressable (address : Nat) : Bool := address &&& addressMask != address

theorem and_addressMask (x : Nat) : x &&& addressMask = x % 2 ^ 39 / 4096 * 4096 := by
  have h : addressMask = (2 ^ 27 - 1) * 2 ^ 12 := by norm_num [addressMask]
  apply Nat.eq_of_testBit_eq
  intro i
  rw [h, Nat.testBit_and, show (4096 : Nat) = 2 ^ 12 from rfl, Nat.testBit_mul_two_pow,
    Nat.testBit_mul_two_pow, Nat.testBit_div_two_pow, Nat.testBit_mod_two_pow,
    Nat.testBit_two_pow_sub_one]
  by_cases h1 : 12 ≤ i
  · have : i - 12 + 12 = i := by omega
    by_cases h2 : i < 39
    · simp [h1, h2, this]; omega
    · simp [h1, h2, this]; omega
  · simp [h1]

theorem unaddressable_eq_false {x : Nat} :
    unaddressable x = false ↔ x % 4096 = 0 ∧ x < 2 ^ 39 := by
  simp only [unaddressable, bne_eq_false_iff_eq, and_addressMask]
  omega

theorem or_of_aligned {x n : Nat} (hx : x % 4096 = 0) (hn : n < 4096) : x ||| n = x + n := by
  obtain ⟨k, rfl⟩ := Nat.dvd_of_mod_eq_zero hx
  rw [show (4096 : Nat) = 2 ^ 12 from rfl] at *
  exact (Nat.two_pow_add_eq_or_of_lt hn k).symm

/-- `(size + kPageMask) & ~kPageMask` on 64 bits. -/
def pageRound (size : Nat) : Nat := (size + 4095) % 2 ^ 64 / 4096 * 4096

@[simp] theorem pageRound_mod (size : Nat) : pageRound size % 4096 = 0 := by
  simp [pageRound]

theorem pageRound_mul {n : Nat} (h : n < 2 ^ 51) : pageRound (n * 4096) = n * 4096 := by
  unfold pageRound
  omega

/-! ## Areas and oracles -/

/-- The physical pages of one entry of a memory map. -/
def extentPages (e : Nat × Nat) : List Nat := (List.range (e.2 / 4096)).map (e.1 + · * 4096)

/-- The answers of the rest of the system during one operation. `fails n` and `mapFails n` say
whether the `n`-th call fails; a `get_memory_map` allocates nothing and never answers
`B_NO_MEMORY`. `alloc n live contiguous count` are the `count` pages that the `n`-th call, a
`create_area`, takes beside the `live` ones; the pages of a contiguous area are within the reach of
the GPU. `extents` groups the pages of a `get_memory_map` into physically contiguous runs.
`register r` is what a register of the hardware holds and `dword a i` the `i`-th dword of an area,
which the GPU may have written. -/
structure Oracle where
  fails : Nat → Option Error
  mapFails : Nat → Option Error
  alloc : Nat → List Nat → Bool → Nat → Option (List Nat)
  extents : Nat → List Nat → List (Nat × Nat)
  register : Nat → Nat
  dword : Nat → Nat → Nat
  timesOut : Nat → Bool
  mapFails_ne : ∀ n, mapFails n ≠ some .noMemory
  alloc_length : ∀ {n live c k pages}, alloc n live c k = some pages →
    pages.length = k ∧ k < 2 ^ 51
  alloc_nodup : ∀ {n live c k pages}, alloc n live c k = some pages → pages.Nodup
  alloc_fresh : ∀ {n live c k pages}, alloc n live c k = some pages → ∀ p ∈ pages, p ∉ live
  alloc_aligned : ∀ {n live c k pages}, alloc n live c k = some pages →
    ∀ p ∈ pages, p % 4096 = 0 ∧ 0 < p ∧ p < 2 ^ 64
  alloc_contiguous : ∀ {n live k pages}, alloc n live true k = some pages →
    ∀ p ∈ pages, p < 2 ^ 39
  extents_pages : ∀ n pages, (extents n pages).flatMap extentPages = pages
  extents_aligned : ∀ n pages, ∀ e ∈ extents n pages, e.2 % 4096 = 0 ∧ 0 < e.2

/-- The rest of the system when nothing fails: the pages above the live ones are free. -/
def Oracle.unfailing : Oracle where
  fails _ := none
  mapFails _ := none
  alloc _ live _ k :=
    let first := live.foldr max 0 / 4096 + 1
    if first + k ≤ 2 ^ 27 then some ((List.range k).map fun i => (first + i) * 4096) else none
  extents _ pages := pages.map fun p => (p, 4096)
  register _ := 0
  dword _ _ := 0
  timesOut _ := false
  mapFails_ne := by simp
  alloc_length := by
    intro n live c k pages h
    dsimp only at h
    split at h
    · next hk =>
      cases h
      simp only [List.length_map, List.length_range, true_and]
      omega
    · simp at h
  alloc_nodup := by
    intro n live c k pages h
    dsimp only at h
    split at h
    · cases h
      exact (List.nodup_map_iff fun i j (h : _ * _ = _ * _) => by omega).mpr List.nodup_range
    · simp at h
  alloc_fresh := by
    intro n live c k pages h p hp hlive
    dsimp only at h
    split at h
    · cases h
      obtain ⟨i, -, rfl⟩ := List.mem_map.mp hp
      have := List.le_max_of_le' 0 hlive (Nat.le_refl _)
      omega
    · simp at h
  alloc_aligned := by
    intro n live c k pages h p hp
    dsimp only at h
    split at h
    · cases h
      obtain ⟨i, hi, rfl⟩ := List.mem_map.mp hp
      have := List.mem_range.mp hi
      omega
    · simp at h
  alloc_contiguous := by
    intro n live k pages h p hp
    dsimp only at h
    split at h
    · cases h
      obtain ⟨i, hi, rfl⟩ := List.mem_map.mp hp
      have := List.mem_range.mp hi
      omega
    · simp at h
  extents_pages := by
    intro n pages
    simp [List.flatMap_map, extentPages]
  extents_aligned := by
    intro n pages e he
    obtain ⟨p, -, rfl⟩ := List.mem_map.mp he
    simp

/-- A kernel area: the object it was created for and its locked physical pages. -/
structure Area (α : Type) where
  owner : α
  pages : List Nat
  deriving DecidableEq

/-- `area_info.size`. -/
def Area.size {α : Type} (a : Area α) : Nat := a.pages.length * 4096

/-- The areas the driver has created and not deleted; the pages that others hold; the number of
calls made in this operation and how many of them failed. -/
structure Os (α : Type) where
  areas : List (Nat × Area α)
  nextArea : Nat
  foreign : List Nat
  calls : Nat
  faults : Nat

namespace Os
variable {α : Type}

/-- The system before the driver has created anything. -/
def empty : Os α := ⟨[], 0, [], 0, 0⟩

/-- Every physical page in use. -/
def live (os : Os α) : List Nat := os.areas.flatMap (·.2.pages) ++ os.foreign

/-- The area with this id. -/
def find (os : Os α) (area : Nat) : Option (Area α) := os.areas.lookup area

/-- A call was made and answered. -/
def called (os : Os α) : Os α := { os with calls := os.calls + 1 }

/-- A call was made and failed. -/
def refused (os : Os α) : Os α := { os with calls := os.calls + 1, faults := os.faults + 1 }

/-- The driver starts on the next operation. -/
def enter (os : Os α) : Os α := { os with calls := 0 }

/-- `create_area` of a locked kernel area of `count` pages, physically contiguous or not. -/
def createArea (ω : Oracle) (os : Os α) (owner : α) (contiguous : Bool) (count : Nat) :
    Except Error Nat × Os α :=
  match ω.fails os.calls with
  | some e => (.error e, os.refused)
  | none =>
    match ω.alloc os.calls os.live contiguous count with
    | none => (.error .noMemory, os.refused)
    | some pages =>
      (.ok os.nextArea, { os.called with
        areas := (os.nextArea, ⟨owner, pages⟩) :: os.areas, nextArea := os.nextArea + 1 })

/-- `delete_area`. -/
def deleteArea (os : Os α) (area : Nat) : Os α :=
  { os with areas := os.areas.filter (·.1 != area) }

/-- `get_area_info`, of which the driver uses the size. -/
def areaSize (os : Os α) (area : Nat) : Except Error Nat :=
  match os.find area with
  | none => .error .badValue
  | some a => .ok a.size

/-- `get_memory_map` of one page of an area into a table of one entry. -/
def memoryPage (ω : Oracle) (os : Os α) (area page : Nat) : Except Error Nat × Os α :=
  match ω.mapFails os.calls with
  | some e => (.error e, os.refused)
  | none =>
    match (os.find area).bind (·.pages[page]?) with
    | none => (.error .badAddress, os.refused)
    | some physical => (.ok physical, os.called)

/-- `get_memory_map` of `count` pages of an area, from page `first` on. -/
def memoryMap (ω : Oracle) (os : Os α) (area first count : Nat) :
    Except Error (List (Nat × Nat)) × Os α :=
  match ω.mapFails os.calls with
  | some e => (.error e, os.refused)
  | none =>
    match os.find area with
    | none => (.error .badAddress, os.refused)
    | some a =>
      if first + count ≤ a.pages.length then
        (.ok (ω.extents os.calls ((a.pages.drop first).take count) ++ [(0, 0)]), os.called)
      else (.error .badAddress, os.refused)

/-- `user_memcpy`, in either direction. -/
def userMemcpy (ω : Oracle) (os : Os α) : Except Error Unit × Os α :=
  match ω.fails os.calls with
  | some e => (.error e, os.refused)
  | none => (.ok (), os.called)

/-- The hardware is polled until it answers or the time is up. -/
def poll (ω : Oracle) (os : Os α) : Bool × Os α := (!ω.timesOut os.calls, os.called)

/-! ## Well-formedness -/

/-- Area ids are not reused, and no physical page belongs to two areas or is someone else's. -/
structure WF (os : Os α) : Prop where
  ids : ∀ {a ar}, os.find a = some ar → a < os.nextArea
  nodup : ∀ {a ar}, os.find a = some ar → ar.pages.Nodup
  bounded : ∀ {a ar}, os.find a = some ar → ar.pages.length < 2 ^ 51
  disjoint : ∀ {a b ar br p}, os.find a = some ar → os.find b = some br →
    p ∈ ar.pages → p ∈ br.pages → a = b
  own : ∀ {a ar p}, os.find a = some ar → p ∈ ar.pages → p ∉ os.foreign
  aligned : ∀ {a ar p}, os.find a = some ar → p ∈ ar.pages → p % 4096 = 0 ∧ 0 < p ∧ p < 2 ^ 64

theorem WF.empty : (empty : Os α).WF := ⟨nofun, nofun, nofun, nofun, nofun, nofun⟩

variable {ω : Oracle} {os os' : Os α} {a b : Nat} {ar br : Area α} {o : α} {c : Bool} {k : Nat}

theorem mem_live (h : os.find a = some ar) {p : Nat} (hp : p ∈ ar.pages) : p ∈ os.live := by
  obtain ⟨l₁, l₂, hl, -⟩ := List.lookup_eq_some_iff.mp h
  refine List.mem_append_left _ (List.mem_flatMap.mpr ⟨(a, ar), ?_, hp⟩)
  rw [hl]
  exact List.mem_append_right _ List.mem_cons_self

@[simp] theorem find_called : os.called.find a = os.find a := rfl

theorem find_deleteArea : (os.deleteArea b).find a = if a = b then none else os.find a := by
  unfold find deleteArea
  dsimp only
  induction os.areas with
  | nil => simp
  | cons e es ih =>
    obtain ⟨d, dr⟩ := e
    rw [List.filter_cons, List.lookup_cons]
    by_cases hd : d = b
    · simp only [hd, bne_self_eq_false, Bool.false_eq_true, if_false, ih]
      by_cases ha : a = b
      · simp [ha]
      · simp [ha, beq_false_of_ne ha]
    · simp only [bne_iff_ne, ne_eq, hd, not_false_eq_true, if_true, List.lookup_cons, ih]
      by_cases ha : a = d
      · simp [ha, hd]
      · simp [beq_false_of_ne ha]

/-! ## What the calls do -/

/-- Calls of which nothing is kept leave the areas alone. -/
def Same (os os' : Os α) : Prop :=
  os'.areas = os.areas ∧ os'.nextArea = os.nextArea ∧ os'.foreign = os.foreign ∧
    os.faults ≤ os'.faults

theorem Same.find (h : Same os os') : os'.find a = os.find a := by simp [Os.find, h.1]

theorem Same.rfl : Same os os := ⟨Eq.refl _, Eq.refl _, Eq.refl _, Nat.le_refl _⟩

theorem Same.trans {os'' : Os α} (h : Same os os') (h' : Same os' os'') : Same os os'' :=
  ⟨h'.1.trans h.1, h'.2.1.trans h.2.1, h'.2.2.1.trans h.2.2.1, h.2.2.2.trans h'.2.2.2⟩

theorem Same.wf (h : Same os os') (H : os.WF) : os'.WF := by
  refine ⟨?_, ?_, ?_, ?_, ?_, ?_⟩ <;> intros <;> simp_all only [h.find, h.2.1, h.2.2.1]
  · exact H.ids ‹_›
  · exact H.nodup ‹_›
  · exact H.bounded ‹_›
  · exact H.disjoint ‹os.find _ = some _› ‹os.find _ = some _› ‹_› ‹_›
  · exact H.own ‹_› ‹_›
  · exact H.aligned ‹_› ‹_›

theorem same_called (os : Os α) : Same os os.called := .rfl
theorem same_refused (os : Os α) : Same os os.refused :=
  ⟨Eq.refl _, Eq.refl _, Eq.refl _, Nat.le_succ _⟩
theorem same_enter (os : Os α) : Same os os.enter := .rfl

theorem same_memoryPage (ω : Oracle) (os : Os α) (a page : Nat) : Same os
    (os.memoryPage ω a page).2 := by
  unfold memoryPage
  split
  · exact same_refused _
  · split
    · exact same_refused _
    · exact same_called _

theorem same_memoryMap (ω : Oracle) (os : Os α) (a first count : Nat) : Same os
    (os.memoryMap ω a first count).2 := by
  unfold memoryMap
  split
  · exact same_refused _
  · split
    · exact same_refused _
    · split
      · exact same_called _
      · exact same_refused _

theorem same_userMemcpy (ω : Oracle) (os : Os α) : Same os (os.userMemcpy ω).2 := by
  unfold userMemcpy
  split
  · exact same_refused _
  · exact same_called _

theorem same_poll (ω : Oracle) (os : Os α) : Same os (os.poll ω).2 := same_called _

theorem memoryPage_ok {page physical : Nat} (h : os.memoryPage ω a page = (.ok physical, os')) :
    ∃ ar, os.find a = some ar ∧ ar.pages[page]? = some physical := by
  unfold memoryPage at h
  split at h
  · simp at h
  · split at h
    · simp at h
    · next hp =>
      obtain ⟨ar, har, hpage⟩ := Option.bind_eq_some_iff.mp hp
      simp only [Prod.mk.injEq, Except.ok.injEq] at h
      exact ⟨ar, har, h.1 ▸ hpage⟩

theorem memoryPage_error {page : Nat} {e : Error}
    (h : os.memoryPage ω a page = (.error e, os')) : e ≠ .noMemory ∧ os.faults < os'.faults := by
  unfold memoryPage at h
  split at h
  · next hf =>
    cases h
    exact ⟨fun he => ω.mapFails_ne _ (he ▸ hf), Nat.lt_succ_self _⟩
  · split at h
    · cases h
      exact ⟨by simp, Nat.lt_succ_self _⟩
    · simp at h

/-- A page that is there is found unless the call fails. -/
theorem memoryPage_cases (ω : Oracle) {physical : Nat} (page : Nat) (ha : os.find a = some ar)
    (hp : ar.pages[page]? = some physical) : os.memoryPage ω a page = (.ok physical, os.called) ∨
      ∃ e, e ≠ .noMemory ∧ os.memoryPage ω a page = (.error e, os.refused) := by
  unfold memoryPage
  split
  · next e he => exact .inr ⟨e, fun h => ω.mapFails_ne _ (h ▸ he), rfl⟩
  · simp [ha, hp]

theorem memoryMap_ok {first count : Nat} {table : List (Nat × Nat)}
    (h : os.memoryMap ω a first count = (.ok table, os')) :
    ∃ ar, os.find a = some ar ∧ first + count ≤ ar.pages.length ∧
      table = ω.extents os.calls ((ar.pages.drop first).take count) ++ [(0, 0)] := by
  unfold memoryMap at h
  split at h
  · simp at h
  · split at h
    · simp at h
    · next ar har =>
      split at h
      · next hc =>
        simp only [Prod.mk.injEq, Except.ok.injEq] at h
        exact ⟨ar, har, hc, h.1.symm⟩
      · simp at h

theorem memoryMap_error {first count : Nat} {e : Error} (ha : os.find a = some ar)
    (hc : first + count ≤ ar.pages.length)
    (h : os.memoryMap ω a first count = (.error e, os')) : e ≠ .noMemory := by
  unfold memoryMap at h
  split at h
  · next hf =>
    cases h
    exact fun he => ω.mapFails_ne _ (he ▸ hf)
  · simp [ha, hc] at h

theorem createArea_error {e : Error} (h : os.createArea ω o c k = (.error e, os')) :
    Same os os' ∧ os.faults < os'.faults := by
  unfold createArea at h
  split at h
  · cases h; exact ⟨same_refused _, Nat.lt_succ_self _⟩
  · split at h
    · cases h; exact ⟨same_refused _, Nat.lt_succ_self _⟩
    · simp at h

theorem createArea_ok (h : os.createArea ω o c k = (.ok a, os')) :
    a = os.nextArea ∧ os'.nextArea = os.nextArea + 1 ∧ os'.foreign = os.foreign ∧
      os'.faults = os.faults ∧ ∃ pages, ω.alloc os.calls os.live c k = some pages ∧
        ∀ b, os'.find b = if b = a then some ⟨o, pages⟩ else os.find b := by
  unfold createArea at h
  split at h
  · simp at h
  · split at h
    · simp at h
    · next pages hp =>
      simp only [Prod.mk.injEq, Except.ok.injEq] at h
      obtain ⟨rfl, rfl⟩ := h
      refine ⟨rfl, rfl, rfl, rfl, pages, hp, fun b => ?_⟩
      by_cases hb : b = os.nextArea
      · simp [find, hb]
      · simp [find, List.lookup_cons, beq_false_of_ne hb, hb]

theorem WF.createArea (H : os.WF) (h : os.createArea ω o c k = (.ok a, os')) : os'.WF := by
  obtain ⟨rfl, hn, hf, -, pages, hp, hfind⟩ := createArea_ok h
  refine ⟨?_, ?_, ?_, ?_, ?_, ?_⟩
  · intro b br hb
    rw [hfind] at hb
    split at hb
    · omega
    · have := H.ids hb; omega
  · intro b br hb
    rw [hfind] at hb
    split at hb
    · cases hb; exact ω.alloc_nodup hp
    · exact H.nodup hb
  · intro b br hb
    rw [hfind] at hb
    split at hb
    · cases hb
      have := ω.alloc_length hp
      dsimp only
      omega
    · exact H.bounded hb
  · intro b d br dr q hb hd hqb hqd
    rw [hfind] at hb hd
    split at hb <;> split at hd
    · simp_all
    · cases hb; exact absurd (mem_live hd hqd) (ω.alloc_fresh hp q hqb)
    · cases hd; exact absurd (mem_live hb hqb) (ω.alloc_fresh hp q hqd)
    · exact H.disjoint hb hd hqb hqd
  · intro b br q hb hq
    rw [hfind] at hb
    rw [hf]
    split at hb
    · cases hb
      exact fun hq' => ω.alloc_fresh hp q hq (List.mem_append_right _ hq')
    · exact H.own hb hq
  · intro b br q hb hq
    rw [hfind] at hb
    split at hb
    · cases hb; exact ω.alloc_aligned hp q hq
    · exact H.aligned hb hq

theorem WF.deleteArea (H : os.WF) : (os.deleteArea a).WF := by
  have hfind : ∀ {b br}, (os.deleteArea a).find b = some br → os.find b = some br := by
    intro b br hb
    rw [find_deleteArea] at hb
    split at hb
    · simp at hb
    · exact hb
  exact ⟨fun h => H.ids (hfind h), fun h => H.nodup (hfind h), fun h => H.bounded (hfind h),
    fun h h' => H.disjoint (hfind h) (hfind h'), fun h => H.own (hfind h),
    fun h => H.aligned (hfind h)⟩

/-- Only areas of the owners in `T` are created or deleted. -/
structure Changes (T : α → Prop) (os os' : Os α) : Prop where
  kept : ∀ {a ar}, os.find a = some ar → ¬ T ar.owner → os'.find a = some ar
  added : ∀ {a ar}, os'.find a = some ar → os.find a = some ar ∨ T ar.owner ∧ os.nextArea ≤ a
  next : os.nextArea ≤ os'.nextArea
  foreign : os'.foreign = os.foreign
  faults : os.faults ≤ os'.faults

theorem Same.changes {T : α → Prop} (h : Same os os') : Changes T os os' :=
  ⟨fun ha _ => h.find.trans ha, fun ha => .inl (h.find.symm.trans ha), h.2.1.ge, h.2.2.1, h.2.2.2⟩

namespace Changes
variable {T T' : α → Prop} {os'' : Os α}

theorem rfl : Changes T os os := Same.rfl.changes

theorem mono (hT : ∀ o, T o → T' o) (h : Changes T os os') : Changes T' os os' :=
  ⟨fun ha hn => h.kept ha fun ht => hn (hT _ ht),
    fun ha => (h.added ha).imp_right fun h => ⟨hT _ h.1, h.2⟩, h.next, h.foreign,
    h.faults⟩

theorem trans (h : Changes T os os') (h' : Changes T os' os'') : Changes T os os'' := by
  refine ⟨fun ha hn => h'.kept (h.kept ha hn) hn, fun ha => ?_, h.next.trans h'.next,
    h'.foreign.trans h.foreign, h.faults.trans h'.faults⟩
  rcases h'.added ha with ha | ⟨ht, hle⟩
  · exact h.added ha
  · exact .inr ⟨ht, h.next.trans hle⟩

end Changes

theorem changes_createArea {T : α → Prop} (hT : T o)
    (h : os.createArea ω o c k = (.ok a, os')) (H : os.WF) : Changes T os os' := by
  obtain ⟨rfl, hn, hf, hfaults, pages, -, hfind⟩ := createArea_ok h
  refine ⟨fun {b br} hb _ => ?_, fun {b br} hb => ?_, by omega, hf, hfaults.ge⟩
  · rw [hfind, if_neg (H.ids hb).ne, hb]
  · rw [hfind] at hb
    split at hb
    · cases hb; exact .inr ⟨hT, by omega⟩
    · exact .inl hb

/-- The areas there were are still there. -/
def Keeps (os os' : Os α) : Prop := ∀ {b br}, os.find b = some br → os'.find b = some br

theorem keeps_createArea (H : os.WF) (h : os.createArea ω o c k = (.ok a, os')) : Keeps os os' := by
  intro b br hb
  obtain ⟨rfl, -, -, -, pages, -, hfind⟩ := createArea_ok h
  rw [hfind, if_neg (H.ids hb).ne, hb]

/-- Deleting an area that has just been created. -/
theorem keeps_createArea_deleteArea (H : os.WF) (h : os.createArea ω o c k = (.ok a, os')) :
    Keeps os (os'.deleteArea a) := by
  intro b br hb
  have := (H.ids hb).ne
  rw [find_deleteArea, if_neg (by rwa [(createArea_ok h).1]), keeps_createArea H h hb]

/-- An area of one contiguous page, and its page. -/
theorem createArea_page (h : os.createArea ω o true 1 = (.ok a, os')) : ∃ x,
    os'.find a = some ⟨o, [x]⟩ ∧ x ∉ os.live ∧ unaddressable x = false := by
  obtain ⟨-, -, -, -, pages, hp, hfind⟩ := createArea_ok h
  obtain ⟨x, rfl⟩ := List.length_eq_one_iff.mp (ω.alloc_length hp).1
  have hx : x ∈ [x] := List.mem_singleton_self x
  exact ⟨x, by rw [hfind, if_pos rfl], ω.alloc_fresh hp x hx,
    unaddressable_eq_false.mpr ⟨(ω.alloc_aligned hp x hx).1, ω.alloc_contiguous hp x hx⟩⟩

/-- Where nothing fails an area of a page is made of one of the pages above the live ones. -/
theorem createArea_unfailing {top : Nat} (os : Os α) (o : α) (c : Bool) (h0 : 0 < top)
    (hlive : ∀ p ∈ os.live, p < top * 4096) (htop : top < 2 ^ 27) :
    ∃ os', os.createArea .unfailing o c 1 = (.ok os.nextArea, os') ∧ os'.faults = os.faults ∧
      ∀ p ∈ os'.live, p < (top + 1) * 4096 := by
  have hfirst : os.live.foldr max 0 / 4096 + 1 ≤ top := by
    rw [Nat.succ_le_iff, Nat.div_lt_iff_lt_mul (by decide)]
    generalize os.live = live at hlive
    induction live with
    | nil => exact Nat.mul_pos h0 (by decide)
    | cons p live ih =>
      exact max_lt (hlive p List.mem_cons_self) (ih fun q hq => hlive q (List.mem_cons_of_mem _ hq))
  obtain ⟨os', hcreate, hfaults, hos⟩ : ∃ os', os.createArea .unfailing o c 1 =
      (.ok os.nextArea, os') ∧ os'.faults = os.faults ∧
      os'.live = (os.live.foldr max 0 / 4096 + 1) * 4096 :: os.live := by
    unfold createArea
    dsimp only [Oracle.unfailing]
    rw [if_pos (by omega)]
    exact ⟨_, rfl, rfl, rfl⟩
  refine ⟨os', hcreate, hfaults, fun p hp => ?_⟩
  rw [hos] at hp
  rcases List.mem_cons.mp hp with rfl | hp
  · exact Nat.mul_lt_mul_of_pos_right (Nat.lt_succ_of_le hfirst) (by decide)
  · exact Nat.lt_of_lt_of_le (hlive p hp) (Nat.mul_le_mul_right _ (Nat.le_succ top))

theorem changes_deleteArea {T : α → Prop} (hT : ∀ ar, os.find a = some ar → T ar.owner) :
    Changes T os (os.deleteArea a) := by
  refine ⟨fun {b br} hb hn => ?_, fun {b br} hb => ?_, Nat.le_refl _, Eq.refl _, Nat.le_refl _⟩
  · rw [find_deleteArea, if_neg ?_, hb]
    rintro rfl
    exact hn (hT _ hb)
  · rw [find_deleteArea] at hb
    split at hb
    · simp at hb
    · exact .inl hb

theorem WF.deleteAreas (H : os.WF) (l : List Nat) : (l.foldl Os.deleteArea os).WF := by
  induction l generalizing os with
  | nil => exact H
  | cons a l ih => exact ih H.deleteArea

theorem changes_deleteAreas {T : α → Prop} {l : List Nat}
    (hT : ∀ a ∈ l, ∀ ar, os.find a = some ar → T ar.owner) :
    Changes T os (l.foldl Os.deleteArea os) := by
  induction l generalizing os with
  | nil => exact .rfl
  | cons a l ih =>
    have C := changes_deleteArea (hT a List.mem_cons_self)
    refine C.trans (ih fun b hb br hbr => ?_)
    rw [find_deleteArea] at hbr
    split at hbr
    · simp at hbr
    · exact hT b (List.mem_cons_of_mem _ hb) br hbr

end Os

end IntelGfx
