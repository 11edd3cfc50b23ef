import IntelGfx.Kernel.CachedTables

/-!
# A clean flush can be skipped

Whatever writes a table marks the page tables dirty first (`map_dirty` and its siblings), so what
is clean is in memory (`Coherent`).
-/

namespace IntelGfx

namespace PageTables
variable {α : Type} {ω : Oracle}

theorem createTable_dirty (pt : PageTables α) (os : Os α) :
    (pt.createTable ω os).2.1.dirty = pt.dirty := by
  rw [createTable]
  split
  · rfl
  split
  · rfl
  split
  · rfl
  split
  · rfl
  · rfl

theorem initTables_dirty (below levels : Nat) (pt : PageTables α) (os : Os α) :
    (initTables ω below levels pt os).2.1.dirty = pt.dirty := by
  induction levels generalizing below pt os with
  | zero =>
    have h := createTable_dirty (ω := ω) pt os
    rw [initTables]
    generalize pt.createTable ω os = r at h
    obtain ⟨_ | _, _, _⟩ := r
    · exact h
    · exact h
  | succ levels ih =>
    have h := createTable_dirty (ω := ω) pt os
    rw [initTables]
    generalize pt.createTable ω os = r at h
    obtain ⟨_ | _, _, _⟩ := r
    · exact h
    · exact (ih ..).trans h

theorem init_dirty (pt : PageTables α) (os : Os α) : (pt.init ω os).2.1.dirty = pt.dirty := by
  rw [init]
  split
  · rfl
  split
  · rfl
  dsimp only
  split
  · rfl
  · exact initTables_dirty ..

theorem walkFrom_dirty (address : Nat) (create : Bool) (levels : List Nat) (table : Table)
    (pt : PageTables α) (os : Os α) :
    (walkFrom ω address create levels table pt os).2.1.dirty = pt.dirty := by
  induction levels generalizing table pt os with
  | nil => rfl
  | cons level levels ih =>
    rw [walkFrom]
    dsimp only
    split
    · rfl
    split
    · split
      · have h := createTable_dirty (ω := ω) pt os
        generalize pt.createTable ω os = r at h
        obtain ⟨_ | _, _, _⟩ := r
        · exact h
        · exact (ih ..).trans h
      · rfl
    · exact ih ..

theorem walk_dirty (pt : PageTables α) (os : Os α) (address : Nat) (create : Bool) :
    (pt.walk ω os address create).2.1.dirty = pt.dirty := by
  have h := walkFrom_dirty (ω := ω) address create [0, 1, 2] pt.top pt os
  rw [walk]
  generalize walkFrom ω address create [0, 1, 2] pt.top pt os = r at h
  obtain ⟨_ | _, _, _⟩ := r
  · exact h
  · exact h

theorem mapPages_dirty (page : Nat → Os α → Except Error Nat × Os α) (address count k : Nat)
    (pt : PageTables α) (os : Os α) :
    (mapPages ω page address count k pt os).2.2.1.dirty = pt.dirty := by
  induction count generalizing k pt os with
  | zero => rfl
  | succ count ih =>
    rw [mapPages]
    split
    · rfl
    · rename_i os' _
      split
      · rfl
      · have h := walk_dirty (ω := ω) pt os' (address + k * 4096) true
        generalize pt.walk ω os' (address + k * 4096) true = r at h
        obtain ⟨_ | _, _, _⟩ := r
        · exact h
        · exact (ih ..).trans h

theorem unmapPages_dirty (os : Os α) (address count k : Nat) (pt : PageTables α) :
    (unmapPages ω os address count k pt).dirty = pt.dirty := by
  induction count generalizing k pt with
  | zero => rfl
  | succ count ih =>
    have h := walk_dirty (ω := ω) pt os (address + k * 4096) false
    rw [unmapPages]
    generalize pt.walk ω os (address + k * 4096) false = r at h
    obtain ⟨_ | _, _, _⟩ := r
    · exact (ih ..).trans h
    · exact (ih ..).trans h

/-- A `Map` that leaves the tables clean has not touched them. -/
theorem map_dirty (pt : PageTables α) (os : Os α) (area address : Nat) :
    (pt.map ω os area address).2.2.1 = pt ∨ (pt.map ω os area address).2.2.1.dirty = true := by
  rw [map]
  split
  · exact .inl rfl
  split
  · exact .inl rfl
  split
  · exact .inl rfl
  dsimp only
  split
  · exact .inl rfl
  · exact .inr (mapPages_dirty ..)

theorem mapPhysical_dirty (pt : PageTables α) (os : Os α) (address physical size : Nat) :
    (pt.mapPhysical ω os address physical size).2.2.1 = pt ∨
      (pt.mapPhysical ω os address physical size).2.2.1.dirty = true := by
  rw [mapPhysical]
  split
  · exact .inl rfl
  split
  · exact .inl rfl
  · exact .inr (mapPages_dirty ..)

theorem unmap_dirty (pt : PageTables α) (os : Os α) (address size : Nat) :
    (pt.unmap ω os address size).2 = pt ∨ (pt.unmap ω os address size).2.dirty = true := by
  rw [unmap]
  split
  · exact .inl rfl
  split
  · exact .inl rfl
  split
  · exact .inl rfl
  · exact .inr (unmapPages_dirty ..)

end PageTables

namespace CachedTables
variable {α : Type} {s : CachedTables α}

/-! ## Writing back -/

theorem foldl_writeBack (view : Nat → Fin 512 → Nat) (page : Nat) (lines : List Nat)
    (memory : Nat → Fin 512 → Nat) (p : Nat) (i : Fin 512) :
    lines.foldl (fun memory l => writeBack view page l memory) memory p i =
      if p = page ∧ line i ∈ lines then view p i else memory p i := by
  induction lines generalizing memory with
  | nil => simp
  | cons l lines ih =>
    rw [List.foldl_cons, ih, writeBack]
    grind

/-- Flushing a page of memory writes back all of it and nothing else. -/
theorem flushCpuCache_page (view : Nat → Fin 512 → Nat) (page : Nat)
    (memory : Nat → Fin 512 → Nat) (p : Nat) (i : Fin 512) :
    flushCpuCache view page 4096 memory p i = if p = page then view p i else memory p i := by
  have h : line i ∈ List.range ((4096 + 63) / 64) := by
    rw [List.mem_range, line]
    omega
  rw [flushCpuCache, foldl_writeBack]
  simp only [h, and_true]

theorem foldl_flushCpuCache (view : Nat → Fin 512 → Nat) (tables : List Table)
    (memory : Nat → Fin 512 → Nat) (p : Nat) (i : Fin 512) :
    tables.foldl (fun memory t => flushCpuCache view t.physical 4096 memory) memory p i =
      if p ∈ tables.map (·.physical) then view p i else memory p i := by
  induction tables generalizing memory with
  | nil => simp
  | cons t tables ih =>
    rw [List.foldl_cons, ih, flushCpuCache_page]
    grind

/-! ## Coherence -/

/-- The hardware finds in every table what the processor reads there. -/
def Synced (s : CachedTables α) : Prop :=
  ∀ t ∈ s.tables.tables, ∀ i, s.memory t.physical i = s.tables.mem t.physical i

/-- Clean tables are in memory, and they are clean from the flush of a `Submit` to its port. -/
structure Coherent (s : CachedTables α) : Prop where
  clean : s.tables.dirty = false → s.Synced
  flushed : s.flushed = true → s.tables.dirty = false

theorem Synced.apply (h : s.Synced) {p : Nat} (hp : p ∈ s.tables.tables.map (·.physical))
    (i : Fin 512) : s.memory p i = s.tables.mem p i := by
  obtain ⟨t, ht, rfl⟩ := List.mem_map.mp hp
  exact h t ht i

/-- A flush that writes back all tables has put them in memory. -/
theorem flush_all_synced (s : CachedTables α) : (s.flush false).Synced := by
  intro t ht i
  have hp : t.physical ∈ s.tables.tables.map (·.physical) := List.mem_map_of_mem ht
  exact (foldl_flushCpuCache ..).trans (if_pos hp)

/-- On clean tables it changes nothing. -/
theorem Coherent.flush_clean (C : s.Coherent) (h : s.tables.dirty = false) : s.flush false = s := by
  have hm : s.tables.tables.foldl
      (fun memory t => flushCpuCache s.tables.mem t.physical 4096 memory) s.memory = s.memory := by
    funext p i
    rw [foldl_flushCpuCache]
    split
    · rename_i hp
      exact ((C.clean h).apply hp i).symm
    · rfl
  have ht : s.tables.flush = s.tables := by
    rw [PageTables.flush, ← h]
  rw [flush, if_neg (by simp), hm, ht]

/-- The shortcut makes no difference. -/
theorem Coherent.flush_eq (C : s.Coherent) : s.flush true = s.flush false := by
  cases h : s.tables.dirty with
  | false =>
    rw [C.flush_clean h, flush, if_pos (by simp [h])]
  | true =>
    rw [flush, flush, if_neg (by simp [h]), if_neg (by simp)]

theorem Coherent.flush_synced (C : s.Coherent) : (s.flush true).Synced := by
  rw [C.flush_eq]
  exact flush_all_synced s

/-- A mapping operation that marks the tables dirty, or does not touch them. -/
theorem Coherent.mapped (C : s.Coherent) (hf : s.flushed = false) {tables : PageTables α}
    (h : tables = s.tables ∨ tables.dirty = true) (evicted : Nat → Fin 512 → Option Nat) :
    (s.mapped tables evicted).Coherent := by
  refine ⟨fun hd => ?_, fun h' => absurd (hf.symm.trans h') (by simp)⟩
  rcases h with rfl | h
  · intro t ht i
    have hd : s.tables.dirty = false := hd
    simp only [CachedTables.mapped, hd]
    exact C.clean hd t ht i
  · exact absurd (h.symm.trans hd) (by simp)

theorem step_coherent (shortcut : Bool) (a : Action α) (C : s.Coherent) :
    (step shortcut a s).Coherent := by
  cases a with
  | acquire thread =>
    rw [step]
    split
    · exact ⟨C.clean, C.flushed⟩
    · exact C
  | release thread =>
    rw [step]
    split
    · exact ⟨C.clean, C.flushed⟩
    · exact C
  | map thread ω os area address evicted =>
    rw [step]
    split
    · rename_i h
      exact C.mapped h.2 (PageTables.map_dirty ..) evicted
    · exact C
  | mapPhysical thread ω os address physical size evicted =>
    rw [step]
    split
    · rename_i h
      exact C.mapped h.2 (PageTables.mapPhysical_dirty ..) evicted
    · exact C
  | unmap thread ω os address size evicted =>
    rw [step]
    split
    · rename_i h
      exact C.mapped h.2 (PageTables.unmap_dirty ..) evicted
    · exact C
  | flush thread =>
    rw [step]
    split
    · have e : s.flush shortcut = s.flush false := by
        cases shortcut
        · rfl
        · exact C.flush_eq
      rw [e]
      exact ⟨fun _ => flush_all_synced s, fun _ => rfl⟩
    · exact C
  | submitPort thread =>
    rw [step]
    split
    · exact ⟨C.clean, nofun⟩
    · exact C
  | evict page line =>
    refine ⟨fun hd t ht i => ?_, C.flushed⟩
    change writeBack .. = _
    rw [writeBack]
    split
    · rfl
    · exact C.clean hd t ht i
  | other page view memory =>
    rw [step]
    split
    · exact C
    · rename_i hp
      refine ⟨fun hd t ht i => ?_, C.flushed⟩
      have hne : t.physical ≠ page := fun e => hp (e ▸ List.mem_map_of_mem ht)
      change (if t.physical = page then _ else _) = if t.physical = page then _ else _
      rw [if_neg hne, if_neg hne]
      exact C.clean hd t ht i

theorem Coherent.step_eq (C : s.Coherent) (a : Action α) : step true a s = step false a s := by
  cases a with
  | flush thread => simp only [step, C.flush_eq]
  | _ => rfl

theorem start_coherent (ω : Oracle) (owner : α) (os : Os α) (memory : Nat → Fin 512 → Nat) :
    (start ω owner os memory).Coherent := by
  have h : (start ω owner os memory).tables.dirty = true := PageTables.init_dirty ..
  exact ⟨fun hd => absurd (h.symm.trans hd) (by simp), nofun⟩

/-- In every run the page tables with the shortcut are in the state in which they would be without
it. A flush leaves every table in memory, and every table is in memory when the submit port is
written. -/
theorem exec_synced (ω : Oracle) (owner : α) (os : Os α) (memory : Nat → Fin 512 → Nat)
    (actions : List (Action α)) :
    let s := Run.exec (step true) (start ω owner os memory) actions
    s = Run.exec (step false) (start ω owner os memory) actions ∧
      (s.flush true).Synced ∧ ∀ thread, s.AtPort thread → s.Synced := by
  intro s
  have C : s.Coherent := Run.invariant_of_step (fun _ a C => step_coherent true a C) actions
    (start_coherent ω owner os memory)
  refine ⟨?_, C.flush_synced, fun _ h => C.clean (C.flushed h.2)⟩
  exact Run.exec_congr (fun _ a C => step_coherent true a C) (fun _ a C => C.step_eq a) actions
    (start_coherent ω owner os memory)

end CachedTables

end IntelGfx
