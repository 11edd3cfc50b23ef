import IntelGfx.Kernel.PageTables

/-!
# The page tables are a flat map

`Rep pt os nodes`: the tables that `pt` has made are the three scratch tables and, after them, the
`nodes`, each of which hangs below one path. The trie they form in memory is the one of
`SharedTrie`, so a walk that creates tables changes no translation (`walkFrom_spec`) and writing an
entry of the last table changes one (`Rep.setEntry`).
-/

namespace IntelGfx

theorem entry_address {x : Nat} (h : unaddressable x = false) :
    (x ||| PageTables.kPageEntryFlags) &&& addressMask = x := by
  obtain ⟨h1, h2⟩ := unaddressable_eq_false.mp h
  rw [PageTables.kPageEntryFlags, or_of_aligned h1 (by omega), and_addressMask]
  omega

namespace PageTables
variable {α : Type} {ω : Oracle} {pt pt' : PageTables α} {os os' : Os α}

/-! ## Paths -/

/-- The indices that lead to a table or to a page. -/
abbrev Path := List (Fin 512)

theorem indexAt_val (address level : Nat) :
    (indexAt address level).val = address / 2 ^ kShift level % 512 := by
  rw [indexAt, Fin.val_ofNat, Nat.shiftRight_eq_div_pow]

theorem path_length (address : Nat) : (path address).length = 4 := rfl

/-- Addresses of one page, and only these, have one path. -/
theorem path_eq_iff {a b : Nat} (ha : a < 2 ^ 48) (hb : b < 2 ^ 48) :
    path a = path b ↔ a / 4096 = b / 4096 := by
  simp only [path, List.map_cons, List.map_nil, List.cons.injEq, and_true, Fin.ext_iff, indexAt_val,
    kShift]
  omega

/-! ## The tables in memory -/

/-- The scratch tables, by the number of levels above them, and the scratch page below them. -/
def scratch (pt : PageTables α) (k : Nat) : Nat :=
  if k < 4 then ((pt.tables[3 - k]?).map (·.physical)).getD 0 else pt.scratchPage

/-- The physical page of the private table at the end of a path. -/
def own (nodes : List (Path × Table)) (p : Path) : Option Nat := (nodes.lookup p).map (·.physical)

/-- The area of a table is one page of its own, in reach of the hardware. -/
def Table.Live (o : α) (os : Os α) (t : Table) : Prop :=
  ∃ a, t.area = some a ∧ os.find a = some ⟨o, [t.physical]⟩ ∧ unaddressable t.physical = false

/-- The tables of `pt` are the scratch tables and the private tables `nodes`. -/
structure Rep (pt : PageTables α) (os : Os α) (nodes : List (Path × Table)) : Prop where
  tables : pt.tables.drop 3 = nodes.map Prod.snd
  room : pt.tables.length ≤ kMaxTables
  keys : (nodes.map Prod.fst).Nodup
  top : nodes.lookup [] = some pt.top
  root : pt.top.physical = pt.root
  trie : SharedTrie.Inv pt.next 4 pt.scratch pt.root (own nodes)
  live : ∀ t ∈ pt.tables, Table.Live pt.owner os t
  physicals : (pt.tables.map (·.physical)).Nodup
  rows : ∀ k, 0 < k → k < 4 → ∀ i, pt.mem (pt.scratch k) i = pt.scratch (k + 1) ||| kPageEntryFlags
  scratchArea : ∃ a, pt.scratchArea = some a ∧ os.find a = some ⟨pt.owner, [pt.scratchPage]⟩
  scratchPage : unaddressable pt.scratchPage = false

namespace Rep
variable {nodes : List (Path × Table)} {p : Path} {t : Table} {i : Fin 512}

theorem length (R : Rep pt os nodes) : pt.tables.length = 3 + nodes.length := by
  have h := congrArg List.length R.tables
  rw [List.length_drop, List.length_map] at h
  have : nodes ≠ [] := by
    rintro rfl
    simpa using R.top
  have := List.length_pos_iff.mpr this
  omega

theorem mem_tables (R : Rep pt os nodes) (h : nodes.lookup p = some t) : t ∈ pt.tables := by
  obtain ⟨l₁, l₂, hl, -⟩ := List.lookup_eq_some_iff.mp h
  refine List.mem_of_mem_drop (i := 3) ?_
  rw [R.tables, hl]
  simp

theorem own_of_lookup (h : nodes.lookup p = some t) : own nodes p = some t.physical := by
  simp [own, h]

theorem own_eq_none : own nodes p = none ↔ nodes.lookup p = none := by simp [own]

/-- A scratch table is one of the first three. -/
theorem scratch_table (R : Rep pt os nodes) {k : Nat} (hk : 0 < k) (hk4 : k < 4) :
    ∃ c, pt.tables[3 - k]? = some c ∧ c.physical = pt.scratch k := by
  have := R.length
  have hlt : 3 - k < pt.tables.length := by omega
  exact ⟨pt.tables[3 - k], List.getElem?_eq_getElem hlt, by simp [scratch, hk4, hlt]⟩

/-- Tables are told apart by their physical pages. -/
theorem eq_of_physical (R : Rep pt os nodes) {t u : Table} (ht : t ∈ pt.tables) (hu : u ∈ pt.tables)
    (h : t.physical = u.physical) : t = u := List.inj_on_of_nodup_map R.physicals ht hu h

theorem find_physical (R : Rep pt os nodes) (ht : t ∈ pt.tables) :
    pt.tables.find? (·.physical == t.physical) = some t := by
  cases h : pt.tables.find? (·.physical == t.physical) with
  | none => exact absurd (List.find?_eq_none.mp h t ht) (by simp)
  | some u =>
    have hu := List.find?_some h
    rw [R.eq_of_physical (List.mem_of_find?_eq_some h) ht (by simpa using hu)]

theorem isScratch_iff (R : Rep pt os nodes) :
    pt.isScratch t = true ↔ ∃ k, 0 < k ∧ k < 4 ∧ t.physical = pt.scratch k := by
  have hlen := R.length
  simp only [isScratch, List.any_eq_true, beq_iff_eq]
  constructor
  · rintro ⟨c, hc, hp⟩
    obtain ⟨j, hj, rfl⟩ := List.mem_take_iff_getElem.mp hc
    refine ⟨3 - j, by omega, by omega, ?_⟩
    simp only [scratch, show 3 - j < 4 by omega, if_true, show 3 - (3 - j) = j by omega]
    rw [List.getElem?_eq_getElem (by omega), Option.map_some, Option.getD_some, hp]
  · rintro ⟨k, h0, h4, hp⟩
    obtain ⟨c, hc, hcp⟩ := R.scratch_table h0 h4
    obtain ⟨hlt, rfl⟩ := List.getElem?_eq_some_iff.mp hc
    exact ⟨_, List.mem_take_iff_getElem.mpr ⟨3 - k, by omega, rfl⟩, hcp.trans hp.symm⟩

theorem scratch_of_mem (R : Rep pt os nodes) (h : t ∈ pt.tables.take 3) :
    ∃ k, 0 < k ∧ k < 4 ∧ t.physical = pt.scratch k :=
  R.isScratch_iff.mp (List.any_eq_true.mpr ⟨t, h, beq_self_eq_true _⟩)

/-- Where a path goes on to a private table, the walk does too. -/
theorem descend_private (R : Rep pt os nodes) {c : Table} (hT : nodes.lookup p = some t)
    (hp : p.length < 3) (hc : nodes.lookup (p ++ [i]) = some c) (create : Bool) :
    pt.descend t i create = .ok c ∧ pt.isScratch c = false := by
  have he := R.trie.entry (i := i) (own_of_lookup hT) (by omega)
  rw [own_of_lookup hc, Option.getD_some] at he
  refine ⟨?_, ?_⟩
  · unfold descend
    unfold next at he
    simp only [he, R.find_physical (R.mem_tables hc)]
  · rw [Bool.eq_false_iff]
    intro h
    obtain ⟨k, h0, h4, hk⟩ := R.isScratch_iff.mp h
    exact R.trie.apart (own_of_lookup hc) k h0 h4 hk

/-- Elsewhere it finds the scratch table of the next level. -/
theorem descend_scratch (R : Rep pt os nodes) (hT : nodes.lookup p = some t) (hp : p.length < 3)
    (hc : nodes.lookup (p ++ [i]) = none) (create : Bool) :
    ∃ c, pt.descend t i create = .ok c ∧ c.physical = pt.scratch (p.length + 1) ∧
      pt.isScratch c = true := by
  have he := R.trie.entry (i := i) (own_of_lookup hT) (by omega)
  rw [own_eq_none.mpr hc, Option.getD_none] at he
  obtain ⟨c, hmem, hcp⟩ := R.scratch_table (k := p.length + 1) (by omega) (by omega)
  refine ⟨c, ?_, hcp, R.isScratch_iff.mpr ⟨_, by omega, by omega, hcp⟩⟩
  unfold descend
  unfold next at he
  simp only [he, ← hcp, R.find_physical (List.mem_of_getElem? hmem)]

/-! ## Creating tables -/

theorem keeps (R : Rep pt os nodes) (K : ∀ {a pages}, os.find a = some ⟨pt.owner, pages⟩ →
    os'.find a = some ⟨pt.owner, pages⟩) : Rep pt os' nodes := by
  refine ⟨R.tables, R.room, R.keys, R.top, R.root, R.trie, fun t ht => ?_, R.physicals, R.rows, ?_,
    R.scratchPage⟩
  · obtain ⟨a, ha, har, hu⟩ := R.live t ht
    exact ⟨a, ha, K har, hu⟩
  · obtain ⟨a, ha, har⟩ := R.scratchArea
    exact ⟨a, ha, K har⟩

/-- What others do with areas of their own does not concern the tables. -/
theorem changes {T : α → Prop} (R : Rep pt os nodes) (C : Os.Changes T os os')
    (hT : ¬ T pt.owner) : Rep pt os' nodes := R.keeps fun ha => C.kept ha hT

end Rep

/-- A new table is an area of its own, empty, with a page that nothing else uses. -/
theorem createTable_ok {t : Table} (hos : os.WF)
    (h : pt.createTable ω os = (.ok t, pt', os')) :
    pt' = { pt.setEntries t fun _ => 0 with tables := pt.tables ++ [t] } ∧
      pt.tables.length ≠ kMaxTables ∧ os'.WF ∧ Os.Changes (· = pt.owner) os os' ∧
      Os.Keeps os os' ∧ Table.Live pt.owner os' t ∧ t.physical ∉ os.live := by
  unfold createTable at h
  split at h
  · simp at h
  next hfull =>
  split at h
  · simp at h
  next a os1 hc =>
  obtain ⟨x, hx, hfresh, haddr⟩ := Os.createArea_page hc
  have C : Os.Changes (· = pt.owner) os os1 := Os.changes_createArea rfl hc hos
  rcases Os.memoryPage_cases ω 0 hx rfl with hm | ⟨e, -, hm⟩
  · simp only [hm, haddr, Bool.false_eq_true, if_false, Prod.mk.injEq, Except.ok.injEq] at h
    obtain ⟨rfl, rfl, rfl⟩ := h
    have hS := os1.same_called
    exact ⟨rfl, hfull, hS.wf (hos.createArea hc),
      C.trans hS.changes, Os.keeps_createArea hos hc, ⟨a, rfl, hS.find.trans hx, haddr⟩, hfresh⟩
  · simp [hm] at h

/-- A table is refused when there is no slot for it or when a call fails. -/
theorem createTable_error {e : Error} (hos : os.WF)
    (h : pt.createTable ω os = (.error e, pt', os')) :
    pt' = pt ∧ os'.WF ∧ Os.Changes (· = pt.owner) os os' ∧ Os.Keeps os os' ∧
      (pt.tables.length = kMaxTables ∧ e = .noMemory ∨ os.faults < os'.faults) := by
  unfold createTable at h
  split at h
  · next hfull =>
    cases h
    exact ⟨rfl, hos, .rfl, id, .inl ⟨hfull, rfl⟩⟩
  split at h
  · next hc =>
    cases h
    obtain ⟨hS, hf⟩ := Os.createArea_error hc
    exact ⟨rfl, hS.wf hos, hS.changes, hS.find.trans, .inr hf⟩
  next a os1 hc =>
  obtain ⟨x, hx, -, haddr⟩ := Os.createArea_page hc
  have C : Os.Changes (· = pt.owner) os os1 := Os.changes_createArea rfl hc hos
  rcases Os.memoryPage_cases ω 0 hx rfl with hm | ⟨e', -, hm⟩
  · simp [hm, haddr] at h
  · simp only [hm, Prod.mk.injEq] at h
    obtain ⟨-, rfl, rfl⟩ := h
    have hS := os1.same_refused
    refine ⟨rfl, (hS.wf (hos.createArea hc)).deleteArea, ?_,
      Os.keeps_createArea_deleteArea hos hc, .inr ?_⟩
    · refine (C.trans hS.changes).trans ?_
      refine Os.changes_deleteArea fun ar har => ?_
      rw [hS.find, hx] at har
      cases har
      rfl
    · have := (Os.createArea_ok hc).2.2.2.1
      show os.faults < os1.faults + 1
      omega

/-! ## Writing entries -/

@[simp] theorem setEntry_next {t : Table} {i j : Fin 512} {e x : Nat} :
    (pt.setEntry t i e).next x j =
      if x = t.physical ∧ j = i then e &&& addressMask else pt.next x j := by
  simp only [next, setEntry]
  split <;> rfl

namespace Rep
variable {nodes : List (Path × Table)} {p : Path} {t : Table} {i : Fin 512}

/-- A private table is not a scratch table. -/
theorem apart (R : Rep pt os nodes) (hT : nodes.lookup p = some t) {k : Nat} (h0 : 0 < k)
    (h4 : k < 4) : pt.scratch k ≠ t.physical :=
  (R.trie.apart (own_of_lookup hT) k h0 h4).symm

/-- Writing an entry of the last table of a path. -/
theorem setEntry (R : Rep pt os nodes) (hT : nodes.lookup p = some t) (hp : p.length = 3)
    (e : Nat) : Rep (pt.setEntry t i e) os nodes := by
  refine ⟨R.tables, R.room, R.keys, R.top, R.root, ?_, R.live, R.physicals, ?_, R.scratchArea,
    R.scratchPage⟩
  · refine R.trie.set (i := i) (own_of_lookup hT) (by omega) fun x j hx => ?_
    rw [setEntry_next, if_neg]
    rintro ⟨rfl, rfl⟩
    exact hx rfl rfl
  · intro k h0 h4 j
    exact (if_neg fun h => R.apart hT h0 h4 h.1).trans (R.rows k h0 h4 j)

theorem translate_setEntry (R : Rep pt os nodes) {a b : Nat} (ha : a < 2 ^ 48) (hb : b < 2 ^ 48)
    (hT : nodes.lookup ((path a).take 3) = some t) (e : Nat) :
    (pt.setEntry t (indexAt a 3) e).translate b =
      if b / 4096 = a / 4096 then e &&& addressMask else pt.translate b := by
  have h := R.trie.follow_set (i := indexAt a 3) (own_of_lookup hT) rfl
    (fun x j hx => (setEntry_next (e := e)).trans (if_neg fun h => hx h.1 h.2)) (path_length b)
  refine Eq.trans h ?_
  simp only [show (path a).take 3 ++ [indexAt a 3] = path a from rfl, path_eq_iff hb ha,
    setEntry_next, and_self, if_true]
  rfl

/-! ## Private copies -/

/-- The tables with a new one `t'`, a copy of the scratch table `c`, at entry `i` of `t`. -/
def grafted (pt : PageTables α) (t : Table) (i : Fin 512) (t' c : Table) : PageTables α :=
  let pt' := { pt.setEntries t' fun _ => 0 with tables := pt.tables ++ [t'] }
  (pt'.setEntries t' (pt'.mem c.physical)).setEntry t i (t'.physical ||| kPageEntryFlags)

section graft
variable {t' c : Table} (R : Rep pt os nodes) (hT : nodes.lookup p = some t) (hp : p.length < 3)
  (hnone : nodes.lookup (p ++ [i]) = none) (hc : c.physical = pt.scratch (p.length + 1))
  (hlive : Table.Live pt.owner os' t') (hfresh : ∀ t ∈ pt.tables, t.physical ≠ t'.physical)
include R hT hp hc hfresh

omit hT in
theorem grafted_mem {x : Nat} {j : Fin 512} : (grafted pt t i t' c).mem x j =
    if x = t.physical ∧ j = i then t'.physical ||| kPageEntryFlags else
    if x = t'.physical then pt.mem (pt.scratch (p.length + 1)) j else pt.mem x j := by
  obtain ⟨c', hc', hcp'⟩ := R.scratch_table (k := p.length + 1) (by omega) (by omega)
  have hne : pt.scratch (p.length + 1) ≠ t'.physical :=
    hcp' ▸ hfresh c' (List.mem_of_getElem? hc')
  simp only [grafted, PageTables.setEntry, setEntries, hc, hne, if_false]
  split_ifs <;> rfl

theorem grafted_copy (j : Fin 512) : (grafted pt t i t' c).next t'.physical j =
    pt.next (pt.scratch (p.length + 1)) j := by
  have hne : t'.physical ≠ t.physical := (hfresh t (R.mem_tables hT)).symm
  simp [next, R.grafted_mem hp hc hfresh, hne]

omit hT in
theorem grafted_link (hu : unaddressable t'.physical = false) :
    (grafted pt t i t' c).next t.physical i = t'.physical := by
  simp [next, R.grafted_mem hp hc hfresh, entry_address hu]

omit hT in
theorem grafted_rest {x : Nat} {j : Fin 512} (hx : x ≠ t'.physical) (hj : x = t.physical → j ≠ i) :
    (grafted pt t i t' c).mem x j = pt.mem x j := by
  rw [R.grafted_mem hp hc hfresh, if_neg (fun h => hj h.1 h.2), if_neg hx]

omit hT hp hc hfresh in
theorem grafted_scratch (t t' c : Table) (i : Fin 512) :
    (grafted pt t i t' c).scratch = pt.scratch := by
  have := R.length
  have hpos : 0 < nodes.length := by
    rw [List.length_pos_iff]
    rintro rfl
    simpa using R.top
  funext k
  simp only [scratch, grafted, PageTables.setEntry, setEntries]
  split
  · rw [List.getElem?_append_left (by omega)]
  · rfl

omit hT hp hc in
theorem scratch_ne {k : Nat} (h0 : 0 < k) (h4 : k < 4) : pt.scratch k ≠ t'.physical := by
  obtain ⟨c', hc', hcp'⟩ := R.scratch_table h0 h4
  exact hcp' ▸ hfresh c' (List.mem_of_getElem? hc')

include hnone hlive

/-- A path that has no private table yet is given one. -/
theorem graft (hroom : pt.tables.length < kMaxTables)
    (hkept : ∀ t ∈ pt.tables, Table.Live pt.owner os' t)
    (hscratch : ∃ a, pt.scratchArea = some a ∧ os'.find a = some ⟨pt.owner, [pt.scratchPage]⟩) :
    Rep (grafted pt t i t' c) os' (nodes ++ [(p ++ [i], t')]) ∧
      ∀ a, (grafted pt t i t' c).translate a = pt.translate a := by
  have hlen := R.length
  obtain ⟨_, _, _, hu⟩ := hlive
  have hown : own (nodes ++ [(p ++ [i], t')]) =
      Function.update (own nodes) (p ++ [i]) (some t'.physical) := by
    funext q
    rw [Function.update_apply, own, List.lookup_append]
    split
    · next h => rw [h, hnone]; simp
    · next h => simp [own, List.lookup_cons, beq_false_of_ne h]
  have hscr := R.grafted_scratch t t' c i
  have hrest : ∀ x j, x ≠ t'.physical → (x = t.physical → j ≠ i) →
      (grafted pt t i t' c).next x j = pt.next x j := fun x j hx hj => by
    rw [next, R.grafted_rest hp hc hfresh hx hj, next]
  have hm : ∀ q, own nodes q ≠ some t'.physical := by
    intro q hq
    obtain ⟨u, hu, hup⟩ := Option.map_eq_some_iff.mp hq
    exact hfresh u (R.mem_tables hu) hup
  have hms : ∀ k, 0 < k → k < 4 → t'.physical ≠ pt.scratch k := fun k h0 h4 =>
    (R.scratch_ne hfresh h0 h4).symm
  have htrie := R.trie.graft (own_of_lookup hT) (by omega) (own_eq_none.mpr hnone) hm hms
    (R.grafted_copy hT hp hc hfresh) (R.grafted_link hp hc hfresh hu) hrest
  refine ⟨⟨?_, ?_, ?_, ?_, R.root, ?_, ?_, ?_, ?_, hscratch, R.scratchPage⟩, fun a => ?_⟩
  · show (pt.tables ++ [t']).drop 3 = _
    rw [List.drop_append_of_le_length (by omega), R.tables, List.map_append]
    rfl
  · show (pt.tables ++ [t']).length ≤ _
    rw [List.length_append]
    exact hroom
  · rw [List.map_append, List.nodup_append]
    refine ⟨R.keys, List.nodup_singleton _, fun q hq q' hq' heq => ?_⟩
    rw [List.map_cons, List.map_nil, List.mem_singleton] at hq'
    obtain ⟨⟨_, u⟩, hmem, rfl⟩ := List.mem_map.mp hq
    have := List.lookup_eq_none_iff.mp hnone _ hmem
    simp_all
  · rw [List.lookup_append, R.top]
    rfl
  · rw [hown, hscr]
    exact htrie
  · intro u hu'
    rcases List.mem_append.mp hu' with hu' | hu'
    · exact hkept u hu'
    · rw [List.mem_singleton.mp hu']
      exact ⟨_, ‹_›, ‹_›, ‹_›⟩
  · show ((pt.tables ++ [t']).map (·.physical)).Nodup
    rw [List.map_append, List.nodup_append]
    refine ⟨R.physicals, List.nodup_singleton _, fun q hq q' hq' heq => ?_⟩
    rw [List.map_cons, List.map_nil, List.mem_singleton] at hq'
    obtain ⟨u, hu', rfl⟩ := List.mem_map.mp hq
    exact hfresh u hu' (heq.trans hq')
  · intro k h0 h4 j
    rw [hscr, R.grafted_rest hp hc hfresh (R.scratch_ne hfresh h0 h4)
      fun h => absurd h (R.apart hT h0 h4)]
    exact R.rows k h0 h4 j
  · exact R.trie.follow_graft (own_of_lookup hT) (by omega) (own_eq_none.mpr hnone) hm hms
      (R.grafted_copy hT hp hc hfresh) (R.grafted_link hp hc hfresh hu) hrest (path_length a)

end graft
end Rep

/-! ## Walks -/

/-- What stays as `Init` has left it. -/
def fixed (pt : PageTables α) : α × Nat × Option Nat × Nat × List Table :=
  (pt.owner, pt.root, pt.scratchArea, pt.scratchPage, pt.tables.take 3)

theorem scratch_of_fixed (h : pt'.fixed = pt.fixed) {k : Nat} (h0 : 0 < k) :
    pt'.scratch k = pt.scratch k := by
  have hpage : pt'.scratchPage = pt.scratchPage := congrArg (·.2.2.2.1) h
  have htake : pt'.tables.take 3 = pt.tables.take 3 := congrArg (·.2.2.2.2) h
  unfold scratch
  split
  · have hlt : 3 - k < 3 := by omega
    rw [← List.getElem?_take_of_lt hlt, htake, List.getElem?_take_of_lt hlt]
  · exact hpage

/-- Private tables have been added on the paths in `S`. -/
structure Grown (S : Path → Prop) (pt : PageTables α) (os : Os α) (nodes : List (Path × Table))
    (pt' : PageTables α) (os' : Os α) (nodes' : List (Path × Table)) : Prop where
  rep : Rep pt' os' nodes'
  wf : os'.WF
  changes : Os.Changes (· = pt.owner) os os'
  keeps : Os.Keeps os os'
  fixed : pt'.fixed = pt.fixed
  kept : ∀ {q t}, nodes.lookup q = some t → nodes'.lookup q = some t
  added : ∀ {q}, nodes'.lookup q ≠ none → nodes.lookup q ≠ none ∨ S q

namespace Grown
variable {S S' : Path → Prop} {nodes nodes' nodes'' : List (Path × Table)} {pt'' : PageTables α}
  {os'' : Os α}

theorem owner (G : Grown S pt os nodes pt' os' nodes') : pt'.owner = pt.owner :=
  congrArg Prod.fst G.fixed

theorem refl (R : Rep pt os nodes) (hos : os.WF) : Grown S pt os nodes pt os nodes :=
  ⟨R, hos, .rfl, id, rfl, id, .inl⟩

theorem mono (G : Grown S pt os nodes pt' os' nodes') (h : ∀ q, S q → S' q) :
    Grown S' pt os nodes pt' os' nodes' :=
  ⟨G.rep, G.wf, G.changes, G.keeps, G.fixed, G.kept, fun hq => (G.added hq).imp_right (h _)⟩

theorem trans (G : Grown S pt os nodes pt' os' nodes')
    (G' : Grown S pt' os' nodes' pt'' os'' nodes'') :
    Grown S pt os nodes pt'' os'' nodes'' := by
  refine ⟨G'.rep, G'.wf, G.changes.trans (G.owner ▸ G'.changes), fun h => G'.keeps (G.keeps h),
    G'.fixed.trans G.fixed, fun h => G'.kept (G.kept h), fun hq => ?_⟩
  rcases G'.added hq with h | h
  · exact G.added h
  · exact .inr h

end Grown

/-- The tables on the way from `p` along `rest`. -/
def Below (p rest q : Path) : Prop := ∃ k, 0 < k ∧ k ≤ rest.length ∧ q = p ++ rest.take k

theorem Below.cons {p rest q : Path} {i : Fin 512} (h : Below (p ++ [i]) rest q) :
    Below p (i :: rest) q := by
  obtain ⟨k, hk, hle, rfl⟩ := h
  exact ⟨k + 1, by omega, by simpa using hle, by simp⟩

theorem Below.head (p rest : Path) (i : Fin 512) : Below p (i :: rest) (p ++ [i]) :=
  ⟨1, by omega, by simp, by simp⟩

/-- A walk that may create tables ends at the private table of its path, unless the tables or a
call run out. -/
theorem walkFrom_spec {nodes : List (Path × Table)} {p : Path} {t : Table} {address : Nat}
    {levels : List Nat} {r : Except Error Table} (R : Rep pt os nodes) (hos : os.WF)
    (hT : nodes.lookup p = some t) (hp : p.length + levels.length = 3)
    (h : walkFrom ω address true levels t pt os = (r, pt', os')) : ∃ nodes',
      Grown (Below p (levels.map (indexAt address))) pt os nodes pt' os' nodes' ∧
      (∀ a, pt'.translate a = pt.translate a) ∧
      (∀ u, r = .ok u → nodes'.lookup (p ++ levels.map (indexAt address)) = some u) ∧
      (∀ e, r = .error e → pt'.tables.length = kMaxTables ∧ e = .noMemory ∧
        (∃ q, Below p (levels.map (indexAt address)) q ∧ nodes'.lookup q = none) ∨
        os.faults < os'.faults) := by
  induction levels generalizing p t pt os nodes with
  | nil =>
    cases h
    refine ⟨nodes, .refl R hos, fun _ => rfl, fun u hu => ?_, nofun⟩
    cases hu
    simpa using hT
  | cons level levels ih =>
    rw [List.length_cons] at hp
    simp only [walkFrom] at h
    rw [List.map_cons]
    have happ : p ++ indexAt address level :: levels.map (indexAt address) =
        p ++ [indexAt address level] ++ levels.map (indexAt address) := by simp
    cases hc : nodes.lookup (p ++ [indexAt address level]) with
    | some c =>
      obtain ⟨hd, hs⟩ := R.descend_private hT (by omega) hc true
      simp only [hd, hs, Bool.false_eq_true, if_false] at h
      obtain ⟨nodes', G, htr, hok, herr⟩ := ih R hos hc (by simp; omega) h
      refine ⟨nodes', G.mono fun _ => Below.cons, htr, fun u hu => happ ▸ hok u hu, fun e he => ?_⟩
      rcases herr e he with ⟨hfull, hno, q, hq, hnone⟩ | hf
      · exact .inl ⟨hfull, hno, q, hq.cons, hnone⟩
      · exact .inr hf
    | none =>
      obtain ⟨c, hd, hcp, hs⟩ := R.descend_scratch hT (by omega) hc true
      simp only [hd, hs, if_true] at h
      split at h
      · next e pt1 os1 hcreate =>
        cases h
        obtain ⟨rfl, hwf, hC, hK, hcause⟩ := createTable_error hos hcreate
        refine ⟨nodes, ⟨R.keeps hK, hwf, hC, hK, rfl, id, .inl⟩, fun _ => rfl, nofun, ?_⟩
        rintro _ ⟨⟩
        rcases hcause with ⟨hfull, hno⟩ | hf
        · exact .inl ⟨hfull, hno, _, .head .., hc⟩
        · exact .inr hf
      · next t' pt1 os1 hcreate =>
        obtain ⟨rfl, hroom, hwf, hC, hK, hlive, hfresh⟩ := createTable_ok hos hcreate
        have hfresh' : ∀ u ∈ pt.tables, u.physical ≠ t'.physical := by
          intro u hu heq
          obtain ⟨a, -, ha, -⟩ := R.live u hu
          exact hfresh (heq ▸ Os.mem_live ha (List.mem_singleton_self _))
        obtain ⟨R', htr⟩ := R.graft hT (by omega) hc hcp hlive hfresh'
          (Nat.lt_of_le_of_ne R.room hroom)
          (fun u hu => by
            obtain ⟨a, ha, har, hau⟩ := R.live u hu
            exact ⟨a, ha, hK har, hau⟩)
          (by
            obtain ⟨a, ha, har⟩ := R.scratchArea
            exact ⟨a, ha, hK har⟩)
        have hnew : (nodes ++ [(p ++ [indexAt address level], t')]).lookup
            (p ++ [indexAt address level]) = some t' := by
          rw [List.lookup_append, hc]
          simp
        have G1 : Grown
            (Below p (indexAt address level :: levels.map (indexAt address))) pt os nodes
            (Rep.grafted pt t (indexAt address level) t' c) os1
            (nodes ++ [(p ++ [indexAt address level], t')]) := by
          refine ⟨R', hwf, hC, hK, ?_, fun {q u} hq => ?_, fun {q} hq => ?_⟩
          · have := R.length
            have hle : 3 ≤ pt.tables.length := by omega
            show (pt.owner, pt.root, pt.scratchArea, pt.scratchPage, (pt.tables ++ [t']).take 3) = _
            rw [List.take_append_of_le_length hle]
            rfl
          · rw [List.lookup_append, hq]
            rfl
          · rw [List.lookup_append] at hq
            cases hq' : nodes.lookup q with
            | some u => exact .inl (by simp)
            | none =>
              right
              by_cases heq : q = p ++ [indexAt address level]
              · rw [heq]
                exact .head ..
              · simp [hq', List.lookup_cons, beq_false_of_ne heq] at hq
        obtain ⟨nodes', G, htr', hok, herr⟩ := ih R' hwf hnew (by simp; omega) h
        refine ⟨nodes', G1.trans (G.mono fun _ => Below.cons),
          fun a => (htr' a).trans (htr a), fun u hu => happ ▸ hok u hu,
          fun e he => ?_⟩
        rcases herr e he with ⟨hfull, hno, q, hq, hnone⟩ | hf
        · exact .inl ⟨hfull, hno, q, hq.cons, hnone⟩
        · exact .inr (Nat.lt_of_le_of_lt hC.faults hf)

/-- The private tables that the walk to an address goes through. -/
def tablePaths (a : Nat) : List Path := [1, 2, 3].map (path a).take

theorem below_root {a : Nat} {q : Path} (h : Below [] ([0, 1, 2].map (indexAt a)) q) :
    q ∈ tablePaths a := by
  obtain ⟨k, h0, hle, rfl⟩ := h
  simp only [List.length_map, List.length_cons, List.length_nil] at hle
  have : k = 1 ∨ k = 2 ∨ k = 3 := by omega
  rcases this with rfl | rfl | rfl <;> simp [tablePaths, path]

theorem walk_spec {nodes : List (Path × Table)} {address : Nat}
    {r : Except Error (Table × Fin 512)} (R : Rep pt os nodes) (hos : os.WF)
    (h : pt.walk ω os address true = (r, pt', os')) : ∃ nodes',
      Grown (· ∈ tablePaths address) pt os nodes pt' os' nodes' ∧
      (∀ a, pt'.translate a = pt.translate a) ∧
      (∀ u j, r = .ok (u, j) → nodes'.lookup ((path address).take 3) = some u ∧
        j = indexAt address 3) ∧
      (∀ e, r = .error e → pt'.tables.length = kMaxTables ∧ e = .noMemory ∧
        (∃ q ∈ tablePaths address, nodes'.lookup q = none) ∨ os.faults < os'.faults) := by
  unfold walk at h
  split at h
  · next e pt1 os1 hw =>
    cases h
    obtain ⟨nodes', G, htr, -, herr⟩ := walkFrom_spec R hos R.top (by simp) hw
    refine ⟨nodes', G.mono fun _ => below_root, htr, nofun, ?_⟩
    rintro _ ⟨⟩
    exact (herr _ rfl).imp_left fun ⟨hfull, hno, q, hq, hnone⟩ =>
      ⟨hfull, hno, q, below_root hq, hnone⟩
  · next t pt1 os1 hw =>
    cases h
    obtain ⟨nodes', G, htr, hok, -⟩ := walkFrom_spec R hos R.top (by simp) hw
    refine ⟨nodes', G.mono fun _ => below_root, htr, ?_, nofun⟩
    rintro _ _ ⟨⟩
    exact ⟨hok t rfl, rfl⟩

namespace Rep
variable {nodes : List (Path × Table)}

/-- The tables above a private table are private. -/
theorem lookup_prefix (R : Rep pt os nodes) (p q : Path) (h : nodes.lookup (p ++ q) ≠ none) :
    nodes.lookup p ≠ none := fun hp =>
  h (own_eq_none.mp (R.trie.prefix_own (own_eq_none.mpr hp)))

theorem lookup_tablePaths (R : Rep pt os nodes) {a : Nat}
    (h : nodes.lookup ((path a).take 3) ≠ none) : ∀ q ∈ tablePaths a, nodes.lookup q ≠ none := by
  intro q hq
  have h2 : nodes.lookup ((path a).take 2) ≠ none :=
    R.lookup_prefix ((path a).take 2) [indexAt a 2] h
  have h1 : nodes.lookup ((path a).take 1) ≠ none :=
    R.lookup_prefix ((path a).take 1) [indexAt a 1] h2
  simp only [tablePaths, List.map_cons, List.map_nil, List.mem_cons, List.not_mem_nil,
    or_false] at hq
  rcases hq with rfl | rfl | rfl <;> assumption

/-- Where there is no private table the hardware ends at the scratch page. -/
theorem translate_scratch (R : Rep pt os nodes) {a : Nat}
    (h : nodes.lookup ((path a).take 3) = none) : pt.translate a = pt.scratchPage := by
  exact R.trie.leaf_scratch (i := indexAt a 3) (p := (path a).take 3) rfl (own_eq_none.mpr h)

theorem walkFrom_find (R : Rep pt os nodes) (ω : Oracle) (address : Nat) (levels : List Nat)
    {p : Path} {t : Table} (hT : nodes.lookup p = some t) (hp : p.length + levels.length = 3) :
    match nodes.lookup (p ++ levels.map (indexAt address)) with
    | some u => walkFrom ω address false levels t pt os = (.ok u, pt, os)
    | none => ∃ e, walkFrom ω address false levels t pt os = (.error e, pt, os) := by
  induction levels generalizing p t with
  | nil => simp [hT, walkFrom]
  | cons level levels ih =>
    rw [List.length_cons] at hp
    have happ : p ++ (level :: levels).map (indexAt address) =
        p ++ [indexAt address level] ++ levels.map (indexAt address) := by simp
    rw [happ]
    simp only [walkFrom]
    cases hc : nodes.lookup (p ++ [indexAt address level]) with
    | some c =>
      obtain ⟨hd, hs⟩ := R.descend_private hT (by omega) hc false
      simpa [hd, hs] using ih hc (by simp; omega)
    | none =>
      obtain ⟨c, hd, -, hs⟩ := R.descend_scratch hT (by omega) hc false
      rw [own_eq_none.mp (R.trie.prefix_own (own_eq_none.mpr hc))]
      simp [hd, hs]

/-- A path that does not lead to a scratch table leads to a private one. -/
theorem own_of_not_scratch (R : Rep pt os nodes) {p : Path} (hp : p.length < 4)
    (h : ∀ t ∈ pt.tables.take 3, SharedTrie.follow pt.next pt.root p ≠ t.physical) :
    own nodes p = some (SharedTrie.follow pt.next pt.root p) := by
  cases hown : own nodes p with
  | some n => rw [R.trie.follow_own hown]
  | none =>
    have hne : p ≠ [] := by
      rintro rfl
      rw [R.trie.root] at hown
      simp at hown
    obtain ⟨c, hc, hcp⟩ := R.scratch_table (List.length_pos_iff.mpr hne) hp
    refine absurd (R.trie.follow_scratch hp hown) (hcp ▸ h c ?_)
    obtain ⟨hlt, rfl⟩ := List.getElem?_eq_some_iff.mp hc
    have := List.length_pos_iff.mpr hne
    exact List.mem_take_iff_getElem.mpr ⟨3 - p.length, by omega, rfl⟩

/-- A walk that may not create tables changes nothing. -/
theorem walk_find (R : Rep pt os nodes) (ω : Oracle) (address : Nat) :
    match nodes.lookup ((path address).take 3) with
    | some u => pt.walk ω os address false = (.ok (u, indexAt address 3), pt, os)
    | none => ∃ e, pt.walk ω os address false = (.error e, pt, os) := by
  have h := R.walkFrom_find ω address [0, 1, 2] R.top rfl
  simp only [walk]
  rw [show [] ++ [0, 1, 2].map (indexAt address) = (path address).take 3 from rfl] at h
  split
  · next u hu => rw [hu] at h; simp [h]
  · next hu =>
    rw [hu] at h
    obtain ⟨e, he⟩ := h
    exact ⟨e, by simp [he]⟩

end Rep

/-! ## Mapping -/

/-- The tables on the way to `count` pages from an address on. -/
def RangePaths (address count : Nat) (q : Path) : Prop :=
  ∃ k, k < count ∧ q ∈ tablePaths (address + k * 4096)

/-- The translation with `done` pages of `page` from an address on. -/
def overlay (f : Nat → Nat) (address done : Nat) (page : Nat → Nat) (a : Nat) : Nat :=
  if address ≤ a ∧ a < address + done * 4096 then page ((a - address) / 4096) else f a

/-- `page` tells the pages of `f`, or fails. -/
def Source (os : Os α) (f : Nat → Nat) (page : Nat → Os α → Except Error Nat × Os α) : Prop :=
  ∀ k {os1 os2 r}, Os.Keeps os os1 → page k os1 = (r, os2) → Os.Same os1 os2 ∧
    (∀ x, r = .ok x → x = f k) ∧ ∀ e, r = .error e → e ≠ .noMemory ∧ os1.faults < os2.faults

theorem Source.keeps {f : Nat → Nat} {page : Nat → Os α → Except Error Nat × Os α}
    (h : Source os f page) (K : Os.Keeps os os') : Source os' f page :=
  fun k _ _ _ K' => h k fun hb => K' (K hb)

/-- The loop maps the pages it completes and nothing else, and ends early only when the tables or
a call run out or a page is out of reach. -/
theorem mapPages_spec {nodes : List (Path × Table)} {page : Nat → Os α → Except Error Nat × Os α}
    {f : Nat → Nat} {address count k total done : Nat} {r : Except Error Unit}
    (R : Rep pt os nodes) (hos : os.WF) (hf : Source os f page) (haddr : address % 4096 = 0)
    (hn : k + count = total) (hend : address + total * 4096 ≤ 2 ^ 48)
    (h : mapPages ω page address count k pt os = (r, done, pt', os')) : ∃ nodes',
      Grown (RangePaths address total) pt os nodes pt' os' nodes' ∧
      k ≤ done ∧ done ≤ total ∧
      (∀ a, a < 2 ^ 48 → pt'.translate a =
        if address + k * 4096 ≤ a ∧ a < address + done * 4096 then f ((a - address) / 4096)
        else pt.translate a) ∧
      (∀ j, k ≤ j → j < done → unaddressable (f j) = false ∧
        ∀ q ∈ tablePaths (address + j * 4096), nodes'.lookup q ≠ none) ∧
      (r = .ok () → done = total) ∧
      (∀ e, r = .error e → pt'.tables.length = kMaxTables ∧ e = .noMemory ∧
        (∃ q, RangePaths address total q ∧ nodes'.lookup q = none) ∨
        os.faults < os'.faults ∨
        e = .badAddress ∧ ∃ j, k ≤ j ∧ j < total ∧ unaddressable (f j) = true) := by
  induction count generalizing k pt os nodes with
  | zero =>
    cases h
    refine ⟨nodes, .refl R hos, Nat.le_refl _, by omega, fun a _ => ?_, ?_, fun _ => hn, nofun⟩
    · rw [if_neg (by omega)]
    · intro j h1 h2
      omega
  | succ count ih =>
    simp only [mapPages] at h
    split at h
    · next e os1 hp =>
      simp only [Prod.mk.injEq] at h
      obtain ⟨rfl, rfl, rfl, rfl⟩ := h
      obtain ⟨hS, -, he⟩ := hf k id hp
      refine ⟨nodes, ⟨R.keeps hS.find.trans, hS.wf hos, hS.changes, hS.find.trans, rfl, id, .inl⟩,
        Nat.le_refl _, by omega, fun a _ => ?_, ?_, nofun, ?_⟩
      · rw [if_neg (by omega)]
      · intro j h1 h2
        omega
      · rintro _ ⟨⟩
        exact .inr (.inl (he _ rfl).2)
    next x os1 hp =>
    obtain ⟨hS, hx, -⟩ := hf k id hp
    obtain rfl := hx x rfl
    have K1 : Os.Keeps os os1 := hS.find.trans
    have R1 : Rep pt os1 nodes := R.keeps K1
    split at h
    · next hu =>
      simp only [Prod.mk.injEq] at h
      obtain ⟨rfl, rfl, rfl, rfl⟩ := h
      refine ⟨nodes, ⟨R1, hS.wf hos, hS.changes, K1, rfl, id, .inl⟩,
        Nat.le_refl _, by omega, fun a _ => ?_, ?_, nofun, ?_⟩
      · rw [if_neg (by omega)]
      · intro j h1 h2
        omega
      · rintro _ ⟨⟩
        exact .inr (.inr ⟨rfl, k, Nat.le_refl _, by omega, hu⟩)
    next hu =>
    have hu : unaddressable (f k) = false := by simpa using hu
    have G0 : Grown (RangePaths address total) pt os nodes pt os1 nodes :=
      ⟨R1, hS.wf hos, hS.changes, K1, rfl, id, .inl⟩
    split at h
    · next e pt2 os2 hw =>
      simp only [Prod.mk.injEq] at h
      obtain ⟨rfl, rfl, rfl, rfl⟩ := h
      obtain ⟨nodes2, G, htr, -, herr⟩ := walk_spec R1 (hS.wf hos) hw
      refine ⟨nodes2, G0.trans (G.mono fun q hq => ⟨k, by omega, hq⟩), Nat.le_refl _, by omega,
        fun a _ => ?_, ?_, nofun, ?_⟩
      · rw [if_neg (by omega), htr]
      · intro j h1 h2
        omega
      · rintro _ ⟨⟩
        rcases herr _ rfl with ⟨hfull, hno, q, hq, hnone⟩ | hfa
        · exact .inl ⟨hfull, hno, q, ⟨k, by omega, hq⟩, hnone⟩
        · exact .inr (.inl (Nat.lt_of_le_of_lt hS.2.2.2 hfa))
    · next t j pt2 os2 hw =>
      obtain ⟨nodes2, G, htr, hok, -⟩ := walk_spec R1 (hS.wf hos) hw
      obtain ⟨hT, rfl⟩ := hok _ _ rfl
      have R3 := G.rep.setEntry (i := indexAt (address + k * 4096) 3) hT rfl
        (f k ||| kPageEntryFlags)
      have G3 : Grown (RangePaths address total) pt os nodes
          (pt2.setEntry t (indexAt (address + k * 4096) 3) (f k ||| kPageEntryFlags)) os2 nodes2 :=
        G0.trans ⟨R3, G.wf, G.changes, G.keeps, G.fixed, G.kept,
          fun hq => (G.added hq).imp_right fun hq => ⟨k, by omega, hq⟩⟩
      obtain ⟨nodes', G', hle, hge, htr', hdone, hres, herr⟩ :=
        ih R3 G.wf (hf.keeps G3.keeps) (by omega) h
      refine ⟨nodes', G3.trans G', by omega, hge, fun a ha => ?_, fun i h1 h2 => ?_, hres,
        fun e he => ?_⟩
      · rw [htr' a ha, G.rep.translate_setEntry (by omega) ha hT, entry_address hu, htr,
          show (k + 1) * 4096 = k * 4096 + 4096 from Nat.succ_mul k 4096]
        by_cases h1 : address + (k * 4096 + 4096) ≤ a ∧ a < address + done * 4096
        · rw [if_pos h1, if_pos (by lia)]
        · rw [if_neg h1]
          by_cases h2 : a / 4096 = (address + k * 4096) / 4096
          · rw [if_pos h2, if_pos (by lia), show (a - address) / 4096 = k by omega]
          · rw [if_neg h2, if_neg (by lia)]
      · by_cases hik : i = k
        · subst hik
          refine ⟨hu, fun q hq hnone => ?_⟩
          have := G.rep.lookup_tablePaths (by rw [hT]; simp) q hq
          obtain ⟨u, hu⟩ := Option.ne_none_iff_exists'.mp this
          rw [G'.kept hu] at hnone
          simp at hnone
        · exact hdone i (by omega) h2
      · rcases herr e he with ⟨hfull, hno, q, hq, hnone⟩ | hfa | ⟨hb, i, h1, h2, hi⟩
        · exact .inl ⟨hfull, hno, q, hq, hnone⟩
        · exact .inr (.inl (Nat.lt_of_le_of_lt G3.changes.faults hfa))
        · exact .inr (.inr ⟨hb, i, by omega, h2, hi⟩)

theorem Rep.dirty {nodes : List (Path × Table)} (R : Rep pt os nodes) (b : Bool) :
    Rep { pt with dirty := b } os nodes :=
  ⟨R.tables, R.room, R.keys, R.top, R.root, R.trie, R.live, R.physicals, R.rows, R.scratchArea,
    R.scratchPage⟩

theorem Grown.from_dirty {S : Path → Prop} {nodes nodes' : List (Path × Table)} {b : Bool}
    (G : Grown S { pt with dirty := b } os nodes pt' os' nodes') :
    Grown S pt os nodes pt' os' nodes' :=
  ⟨G.rep, G.wf, G.changes, G.keeps, G.fixed, G.kept, G.added⟩

theorem Rep.isValid {nodes : List (Path × Table)} (R : Rep pt os nodes) (hos : os.WF) :
    pt.isValid = true := by
  obtain ⟨a, -, ha, -⟩ := R.live pt.top (R.mem_tables R.top)
  have := (hos.aligned ha (List.mem_singleton_self _)).2.1
  rw [R.root] at this
  simp only [PageTables.isValid, bne_iff_ne, ne_eq]
  omega

/-- Page `k` of an area. -/
def areaPage (ar : Area α) (k : Nat) : Nat := ar.pages.getD k 0

theorem source_memoryPage {area : Nat} {ar : Area α} (har : os.find area = some ar) :
    Source os (areaPage ar) fun k os => os.memoryPage ω area k := by
  intro k os1 os2 r K h
  have hS := os1.same_memoryPage ω area k
  rw [show os1.memoryPage ω area k = (r, os2) from h] at hS
  refine ⟨hS, ?_, ?_⟩
  · rintro x rfl
    obtain ⟨ar', har', hx⟩ := Os.memoryPage_ok h
    cases (K har).symm.trans har'
    simp [areaPage, hx]
  · rintro e rfl
    exact Os.memoryPage_error h

theorem source_physical {physical : Nat} :
    Source os (fun k => (physical + k * 4096) % 2 ^ 64)
      fun k os => (.ok ((physical + k * 4096) % 2 ^ 64), os) := by
  intro k os1 os2 r K h
  cases h
  exact ⟨.rfl, fun x hx => (Except.ok.inj hx).symm, nofun⟩

/-- What became of a request to map `count` pages of `f`: the first `done` of them are mapped, and
if these are not all, then the request was a `bad` one, the tables or a call ran out, or a page is
out of reach. -/
structure Mapped (bad : Prop) (pt : PageTables α) (os : Os α) (nodes : List (Path × Table))
    (f : Nat → Nat) (address count : Nat) (r : Except Error Unit) (done : Nat)
    (pt' : PageTables α) (os' : Os α) (nodes' : List (Path × Table)) : Prop where
  grown : Grown (RangePaths address count) pt os nodes pt' os' nodes'
  le : done ≤ count
  idle : bad → done = 0
  translate : ∀ a, a < 2 ^ 48 → pt'.translate a = overlay pt.translate address done f a
  reached : ∀ j, j < done → unaddressable (f j) = false ∧
    ∀ q ∈ tablePaths (address + j * 4096), nodes'.lookup q ≠ none
  ok : r = .ok () → done = count ∧ ¬ bad
  error : ∀ e, r = .error e → bad ∨
    (pt'.tables.length = kMaxTables ∧ e = .noMemory ∧
      ∃ q, RangePaths address count q ∧ nodes'.lookup q = none) ∨
    os.faults < os'.faults ∨ e = .badAddress ∧ ∃ j, j < count ∧ unaddressable (f j) = true

theorem Mapped.refused {bad : Prop} {nodes : List (Path × Table)} (R : Rep pt os nodes)
    (hos : os.WF) (h : bad) (f : Nat → Nat) (address count : Nat) (e : Error) :
    Mapped bad pt os nodes f address count (.error e) 0 pt os nodes :=
  ⟨.refl R hos, Nat.zero_le _, fun _ => rfl, fun a _ => by rw [overlay, if_neg (by omega)],
    fun j hj => absurd hj (Nat.not_lt_zero j), nofun, fun _ _ => .inl h⟩

theorem Mapped.of_mapPages {bad : Prop} {nodes : List (Path × Table)} {f : Nat → Nat}
    {address count done : Nat} {page : Nat → Os α → Except Error Nat × Os α}
    {r : Except Error Unit} (R : Rep pt os nodes) (hos : os.WF) (hf : Source os f page)
    (hbad : ¬ bad) (haddr : address % 4096 = 0) (hend : address + count * 4096 ≤ 2 ^ 48)
    (h : mapPages ω page address count 0 { pt with dirty := true } os = (r, done, pt', os')) :
    ∃ nodes', Mapped bad pt os nodes f address count r done pt' os' nodes' := by
  obtain ⟨nodes', G, -, hle, htr, hreached, hok, herr⟩ :=
    mapPages_spec (R.dirty true) hos hf haddr (Nat.zero_add _) hend h
  refine ⟨nodes', G.from_dirty, hle, fun hb => absurd hb hbad, fun a ha => ?_,
    fun j hj => hreached j (Nat.zero_le _) hj, fun hr => ⟨hok hr, hbad⟩, fun e he => .inr ?_⟩
  · rw [htr a ha, overlay, Nat.zero_mul, Nat.add_zero]
    rfl
  · rcases herr e he with h | h | ⟨hb, j, -, hj, hu⟩
    · exact .inl h
    · exact .inr (.inl h)
    · exact .inr (.inr ⟨hb, j, hj, hu⟩)

theorem map_spec {nodes : List (Path × Table)} {area address done : Nat} {ar : Area α}
    {r : Except Error Unit} (R : Rep pt os nodes) (hos : os.WF) (har : os.find area = some ar)
    (h : pt.map ω os area address = (r, done, pt', os')) :
    ∃ nodes', Mapped (address % 4096 ≠ 0 ∨ 2 ^ 48 ≤ address ∨
      2 ^ 48 < address + ar.pages.length * 4096) pt os nodes (areaPage ar) address ar.pages.length r
      done pt' os' nodes' := by
  have hb := hos.bounded har
  simp only [map, R.isValid hos, Bool.not_true, Bool.false_eq_true, if_false, Os.areaSize, har,
    Area.size, pageRound_mul hb] at h
  split at h
  · cases h
    exact ⟨nodes, .refused R hos (by omega) ..⟩
  split at h
  · cases h
    exact ⟨nodes, .refused R hos (by omega) ..⟩
  rw [Nat.mul_div_cancel _ (by omega)] at h
  exact Mapped.of_mapPages R hos (source_memoryPage har) (by omega) (by omega) (by omega) h

theorem map_not_found {area : Nat} (ω : Oracle) (pt : PageTables α) (address : Nat)
    (har : os.find area = none) : ∃ e, pt.map ω os area address = (.error e, 0, pt, os) := by
  simp only [map, Os.areaSize, har]
  split
  · exact ⟨_, rfl⟩
  split
  · exact ⟨_, rfl⟩
  · exact ⟨_, rfl⟩

theorem mapPhysical_spec {nodes : List (Path × Table)} {address physical size done : Nat}
    {r : Except Error Unit} (R : Rep pt os nodes) (hos : os.WF)
    (h : pt.mapPhysical ω os address physical size = (r, done, pt', os')) :
    ∃ nodes', Mapped (address % 4096 ≠ 0 ∨ physical % 4096 ≠ 0 ∨ 2 ^ 48 ≤ address ∨
      2 ^ 48 - address < size ∨ size % 4096 ≠ 0) pt os nodes
      (fun k => (physical + k * 4096) % 2 ^ 64) address (size / 4096) r done pt' os' nodes' := by
  simp only [mapPhysical, R.isValid hos, Bool.not_true, Bool.false_eq_true, if_false] at h
  split at h
  · next hbad =>
    cases h
    exact ⟨nodes, .refused R hos hbad ..⟩
  · next hbad =>
    exact Mapped.of_mapPages R hos source_physical hbad (by omega) (by omega) h

/-! ## Unmapping -/

theorem unmapPages_spec (ω : Oracle) {nodes : List (Path × Table)} {address count k total : Nat}
    (R : Rep pt os nodes) (haddr : address % 4096 = 0) (hn : k + count = total)
    (hend : address + total * 4096 ≤ 2 ^ 48) :
    Rep (unmapPages ω os address count k pt) os nodes ∧
      (unmapPages ω os address count k pt).fixed = pt.fixed ∧
      ∀ a, a < 2 ^ 48 → (unmapPages ω os address count k pt).translate a =
        if address + k * 4096 ≤ a ∧ a < address + total * 4096 then pt.scratchPage
        else pt.translate a := by
  induction count generalizing k pt with
  | zero =>
    refine ⟨R, rfl, fun a _ => ?_⟩
    rw [if_neg (by omega)]
    rfl
  | succ count ih =>
    have hpage : ∀ a, (a / 4096 = (address + k * 4096) / 4096 ↔
        address + k * 4096 ≤ a ∧ a < address + (k + 1) * 4096) := fun a => by lia
    -- the pages from `k` on are page `k` and the pages from `k + 1` on
    have hcases : ∀ {a x y z : Nat}, (a / 4096 = (address + k * 4096) / 4096 → z = x) →
        (a / 4096 ≠ (address + k * 4096) / 4096 → z = y) →
        (if address + (k + 1) * 4096 ≤ a ∧ a < address + total * 4096 then x else z) =
          if address + k * 4096 ≤ a ∧ a < address + total * 4096 then x else y := by
      intro a x y z hin hout
      by_cases ha : a / 4096 = (address + k * 4096) / 4096
      · rw [hin ha, ite_self, if_pos]
        have := (hpage a).mp ha
        lia
      · rw [hout ha]
        have := mt (hpage a).mpr ha
        split_ifs <;> first | rfl | lia
    have hwalk := R.walk_find ω (address + k * 4096)
    cases hT : nodes.lookup ((path (address + k * 4096)).take 3) with
    | none =>
      rw [hT] at hwalk
      obtain ⟨e, he⟩ := hwalk
      simp only [unmapPages, he]
      obtain ⟨R', hfix, htr⟩ := ih R (show k + 1 + count = total by omega)
      refine ⟨R', hfix, fun a ha => (htr a ha).trans (hcases (fun hin => ?_) fun _ => rfl)⟩
      refine R.translate_scratch ?_
      rwa [(path_eq_iff ha (by omega)).mpr hin]
    | some t =>
      rw [hT] at hwalk
      simp only [unmapPages, hwalk]
      obtain ⟨R', hfix, htr⟩ := ih (R.setEntry (i := indexAt (address + k * 4096) 3) hT rfl
        (pt.scratchPage ||| kPageEntryFlags)) (show k + 1 + count = total by omega)
      refine ⟨R', hfix, fun a ha => (htr a ha).trans (hcases (fun hin => ?_) fun hout => ?_)⟩
      · rw [R.translate_setEntry (by omega) ha hT, if_pos hin, entry_address R.scratchPage]
        rfl
      · rw [R.translate_setEntry (by omega) ha hT, if_neg hout]

/-- A range that is unmapped shows the scratch page, and no other address is affected. -/
theorem unmap_spec {nodes : List (Path × Table)} {address size : Nat} {r : Except Error Unit}
    (R : Rep pt os nodes) (hos : os.WF) (h : pt.unmap ω os address size = (r, pt')) :
    Rep pt' os nodes ∧ pt'.fixed = pt.fixed ∧
      (r = .ok () ↔ address % 4096 = 0 ∧ address < 2 ^ 48 ∧ size ≤ 2 ^ 48 - address) ∧
      ∀ a, a < 2 ^ 48 → pt'.translate a =
        if r = .ok () ∧ address ≤ a ∧ a < address + pageRound size then pt.scratchPage
        else pt.translate a := by
  simp only [unmap, R.isValid hos, Bool.not_true, Bool.false_eq_true, if_false] at h
  split at h
  · cases h
    exact ⟨R, rfl, by simp; omega, by simp⟩
  split at h
  · cases h
    exact ⟨R, rfl, by simp; omega, by simp⟩
  · cases h
    have hround : pageRound size = pageRound size / 4096 * 4096 := by
      have := pageRound_mod size
      omega
    have hend : address + pageRound size / 4096 * 4096 ≤ 2 ^ 48 := by
      unfold pageRound
      omega
    obtain ⟨R', hfix, htr⟩ := unmapPages_spec ω (R.dirty true) (by omega)
      (Nat.zero_add (pageRound size / 4096)) hend
    refine ⟨R', hfix, by simp; omega, fun a ha => ?_⟩
    rw [htr a ha, Nat.zero_mul, Nat.add_zero, ← hround]
    simp only [true_and]
    rfl

/-! ## Init -/

/-- The tables made so far have areas of their own. -/
structure Made (pt : PageTables α) (os : Os α) : Prop where
  live : ∀ t ∈ pt.tables, Table.Live pt.owner os t
  physicals : (pt.tables.map (·.physical)).Nodup
  scratchArea : ∃ a, pt.scratchArea = some a ∧ os.find a = some ⟨pt.owner, [pt.scratchPage]⟩
  scratchPage : unaddressable pt.scratchPage = false

theorem Made.setEntries (M : Made pt os) (t : Table) (entries : Fin 512 → Nat) :
    Made (pt.setEntries t entries) os := ⟨M.live, M.physicals, M.scratchArea, M.scratchPage⟩

theorem Made.createTable {t : Table} (M : Made pt os) (hos : os.WF)
    (h : pt.createTable ω os = (.ok t, pt', os')) :
    Made pt' os' ∧ os'.WF ∧ Os.Changes (· = pt.owner) os os' ∧
      pt' = { pt.setEntries t fun _ => 0 with tables := pt.tables ++ [t] } ∧
      ∀ u ∈ pt.tables, u.physical ≠ t.physical := by
  obtain ⟨rfl, -, hwf, hC, hK, hlive, hfresh⟩ := createTable_ok hos h
  have hne : ∀ u ∈ pt.tables, u.physical ≠ t.physical := by
    intro u hu heq
    obtain ⟨a, -, ha, -⟩ := M.live u hu
    exact hfresh (heq ▸ Os.mem_live ha (List.mem_singleton_self _))
  refine ⟨⟨fun u hu => ?_, ?_, ?_, M.scratchPage⟩, hwf, hC, rfl, hne⟩
  · rcases List.mem_append.mp hu with hu | hu
    · obtain ⟨a, ha, har, hau⟩ := M.live u hu
      exact ⟨a, ha, hK har, hau⟩
    · exact List.mem_singleton.mp hu ▸ hlive
  · show ((pt.tables ++ [t]).map (·.physical)).Nodup
    rw [List.map_append, List.nodup_append]
    refine ⟨M.physicals, List.nodup_singleton _, fun q hq q' hq' heq => ?_⟩
    rw [List.map_cons, List.map_nil, List.mem_singleton] at hq'
    obtain ⟨u, hu, rfl⟩ := List.mem_map.mp hq
    exact hne u hu (heq.trans hq')
  · obtain ⟨a, ha, har⟩ := M.scratchArea
    exact ⟨a, ha, hK har⟩

/-- Each of the tables that the loop makes is filled with the one before it. -/
theorem initTables_ok {below levels : Nat} (M : Made pt os) (hos : os.WF)
    (h : initTables ω below levels pt os = (.ok (), pt', os')) : ∃ ts, ts.length = levels ∧
      pt'.tables = pt.tables ++ (ts ++ [pt'.top]) ∧ pt'.root = pt'.top.physical ∧
      pt'.owner = pt.owner ∧ pt'.scratchPage = pt.scratchPage ∧ Made pt' os' ∧ os'.WF ∧
      Os.Changes (· = pt.owner) os os' ∧
      (∀ u ∈ pt.tables, pt'.mem u.physical = pt.mem u.physical) ∧
      ∀ j t, (ts ++ [pt'.top])[j]? = some t → ∀ i, pt'.mem t.physical i =
        if j = 0 then below
        else (((ts ++ [pt'.top])[j - 1]?).map (·.physical)).getD 0 ||| kPageEntryFlags := by
  induction levels generalizing below pt os with
  | zero =>
    simp only [initTables] at h
    split at h
    · simp at h
    next t pt1 os1 hc =>
    cases h
    obtain ⟨M', hwf, hC, rfl, hne⟩ := M.createTable hos hc
    refine ⟨[], rfl, rfl, rfl, rfl, rfl, ⟨M'.live, M'.physicals, M'.scratchArea, M'.scratchPage⟩,
      hwf, hC, fun u hu => ?_, fun j u hj i => ?_⟩
    · funext i
      simp [PageTables.setEntries, hne u hu]
    · cases j with
      | zero => cases hj; simp [PageTables.setEntries]
      | succ j => simp at hj
  | succ levels ih =>
    simp only [initTables] at h
    split at h
    · simp at h
    next t pt1 os1 hc =>
    obtain ⟨M', hwf, hC, rfl, hne⟩ := M.createTable hos hc
    obtain ⟨ts, hlen, htables, hroot, howner, hscr, M'', hwf'', hC'', hmem, hrows⟩ :=
      ih (M'.setEntries t fun _ => below) hwf h
    refine ⟨t :: ts, by simp [hlen], ?_, hroot, howner, hscr, M'', hwf'', hC.trans hC'',
      fun u hu => ?_, fun j u hj i => ?_⟩
    · rw [htables]
      simp [PageTables.setEntries]
    · rw [hmem u (by simp [PageTables.setEntries, hu])]
      funext i
      simp [PageTables.setEntries, hne u hu]
    · cases j with
      | zero =>
        rw [List.cons_append, List.getElem?_cons_zero] at hj
        cases hj
        rw [hmem t (by simp [PageTables.setEntries])]
        simp [PageTables.setEntries]
      | succ j =>
        rw [List.cons_append, List.getElem?_cons_succ] at hj
        rw [hrows j u hj, if_neg (Nat.succ_ne_zero j)]
        cases j with
        | zero => simp
        | succ j => simp

/-- Tables that have just been set up translate every address to the scratch page. -/
theorem init_ok {owner : α} (hos : os.WF) (h : (new owner).init ω os = (.ok (), pt, os')) :
    Rep pt os' [([], pt.top)] ∧ os'.WF ∧ Os.Changes (· = owner) os os' ∧ pt.owner = owner ∧
      ∀ a, pt.translate a = pt.scratchPage := by
  simp only [init, show (new owner).isValid = false from rfl, Bool.false_eq_true, if_false] at h
  split at h
  · simp at h
  next a os1 hc =>
  split at h
  · simp at h
  next x os2 hm =>
  obtain ⟨x', hx, -, haddr⟩ := Os.createArea_page hc
  obtain ⟨ar, har, hpage⟩ := Os.memoryPage_ok hm
  cases hx.symm.trans har
  obtain rfl : x' = x := by simpa using hpage
  have hS := os1.same_memoryPage ω a 0
  rw [hm] at hS
  have C1 : Os.Changes (· = owner) os os1 := Os.changes_createArea rfl hc hos
  have M : Made { new owner with scratchArea := some a, scratchPage := x' } os2 :=
    ⟨nofun, List.nodup_nil, ⟨a, rfl, hS.find.trans hx⟩, haddr⟩
  obtain ⟨ts, hlen, htables, hroot, howner, hscr, M', hwf, hC, -, hrows⟩ :=
    initTables_ok M (hS.wf (hos.createArea hc)) h
  obtain ⟨t0, t1, t2, rfl⟩ := List.length_eq_three.mp hlen
  have htables : pt.tables = [t0, t1, t2, pt.top] := htables
  have hscratch : pt.scratch 1 = t2.physical ∧ pt.scratch 2 = t1.physical ∧
      pt.scratch 3 = t0.physical ∧ pt.scratch 4 = x' := by
    simp [scratch, htables, hscr]
  have hr : ∀ i, pt.mem t0.physical i = x' ||| kPageEntryFlags ∧
      pt.mem t1.physical i = t0.physical ||| kPageEntryFlags ∧
      pt.mem t2.physical i = t1.physical ||| kPageEntryFlags ∧
      pt.mem pt.top.physical i = t2.physical ||| kPageEntryFlags := fun i =>
    ⟨hrows 0 t0 rfl i, hrows 1 t1 rfl i, hrows 2 t2 rfl i, hrows 3 pt.top rfl i⟩
  have hu : ∀ t ∈ pt.tables, (t.physical ||| kPageEntryFlags) &&& addressMask = t.physical :=
    fun t ht => by
      obtain ⟨_, -, -, hau⟩ := M'.live t ht
      exact entry_address hau
  rw [htables] at hu
  have hnodup := M'.physicals
  simp only [htables, List.map_cons, List.map_nil, List.nodup_cons, List.mem_cons, List.not_mem_nil,
    or_false, not_or, List.nodup_nil, and_true, not_false_eq_true] at hnodup
  have hrowsk : ∀ k, 0 < k → k < 4 → ∀ i,
      pt.mem (pt.scratch k) i = pt.scratch (k + 1) ||| kPageEntryFlags := by
    intro k h0 h4 i
    obtain ⟨h1, h2, h3, -⟩ := hr i
    have : k = 1 ∨ k = 2 ∨ k = 3 := by omega
    rcases this with rfl | rfl | rfl
    · rw [hscratch.1, hscratch.2.1, h3]
    · rw [hscratch.2.1, hscratch.2.2.1, h2]
    · rw [hscratch.2.2.1, hscratch.2.2.2, h1]
  have hshared : ∀ {k i}, 0 < k → k < 4 → pt.next (pt.scratch k) i = pt.scratch (k + 1) := by
    intro k i h0 h4
    rw [next, hrowsk k h0 h4]
    have : k = 1 ∨ k = 2 ∨ k = 3 := by omega
    rcases this with rfl | rfl | rfl
    · rw [hscratch.2.1, hu t1 (by simp)]
    · rw [hscratch.2.2.1, hu t0 (by simp)]
    · rw [hscratch.2.2.2, entry_address haddr]
  have R : Rep pt os' [([], pt.top)] := by
    refine ⟨by simp [htables], by simp [htables, kMaxTables], List.nodup_singleton _, rfl,
      hroot.symm, ?_, M'.live, M'.physicals, hrowsk, M'.scratchArea, M'.scratchPage⟩
    have htrie : SharedTrie.Inv pt.next 4 pt.scratch pt.root _ :=
      SharedTrie.Inv.initial hshared (fun i => ?_) (fun k h0 h4 => ?_) (by omega)
    · convert htrie using 2 with p
      cases p with
      | nil => simp [own, hroot]
      | cons i p => simp [own, List.lookup_cons]
    · rw [next, hroot, (hr i).2.2.2, hscratch.1, hu t2 (by simp)]
    · rw [hroot]
      have : k = 1 ∨ k = 2 ∨ k = 3 := by omega
      rcases this with rfl | rfl | rfl
      · rw [hscratch.1]; exact Ne.symm (by tauto)
      · rw [hscratch.2.1]; exact Ne.symm (by tauto)
      · rw [hscratch.2.2.1]; exact Ne.symm (by tauto)
  refine ⟨R, hwf, (C1.trans hS.changes).trans hC, howner, fun a => R.translate_scratch ?_⟩
  simp [path, List.lookup_cons]

/-! ## Areas -/

/-- The areas of the tables, as far as they are still there, are their own. -/
def Holds (pt : PageTables α) (os : Os α) : Prop :=
  ∀ a ∈ pt.areas, a < os.nextArea ∧ ∀ ar, os.find a = some ar → ar.owner = pt.owner

theorem Holds.changes {T : α → Prop} (H : pt.Holds os) (C : Os.Changes T os os') :
    pt.Holds os' := by
  intro a ha
  obtain ⟨hlt, hown⟩ := H a ha
  refine ⟨hlt.trans_le C.next, fun ar har => ?_⟩
  rcases C.added har with har | ⟨-, hle⟩
  · exact hown ar har
  · omega

theorem Rep.holds {nodes : List (Path × Table)} (R : Rep pt os nodes) (hos : os.WF) :
    pt.Holds os := by
  have hfound : ∀ {a pages}, os.find a = some ⟨pt.owner, pages⟩ →
      a < os.nextArea ∧ ∀ ar, os.find a = some ar → ar.owner = pt.owner := by
    intro a pages ha
    refine ⟨hos.ids ha, fun ar har => ?_⟩
    cases ha.symm.trans har
    rfl
  intro a ha
  rcases List.mem_append.mp ha with ha | ha
  · obtain ⟨t, ht, hta⟩ := List.mem_filterMap.mp ha
    obtain ⟨b, hb, har, -⟩ := R.live t ht
    rw [hb] at hta
    cases hta
    exact hfound har
  · obtain ⟨b, hb, har⟩ := R.scratchArea
    rw [hb] at ha
    rw [List.mem_singleton.mp ha]
    exact hfound har

theorem destroy_changes (H : pt.Holds os) : Os.Changes (· = pt.owner) os (pt.destroy os) :=
  Os.changes_deleteAreas fun a ha => (H a ha).2

theorem createTable_holds {r : Except Error Table} (H : pt.Holds os) (hos : os.WF)
    (h : pt.createTable ω os = (r, pt', os')) :
    pt'.Holds os' ∧ os'.WF ∧ Os.Changes (· = pt.owner) os os' ∧ pt'.owner = pt.owner := by
  cases r with
  | error e =>
    obtain ⟨rfl, hwf, hC, -⟩ := createTable_error hos h
    exact ⟨H.changes hC, hwf, hC, rfl⟩
  | ok t =>
    obtain ⟨rfl, -, hwf, hC, -, ⟨b, hb, har, -⟩, -⟩ := createTable_ok hos h
    refine ⟨fun a ha => ?_, hwf, hC, rfl⟩
    have ha' : a ∈ pt.areas ∨ a = b := by
      simpa [areas, setEntries, hb, or_assoc, or_comm, or_left_comm] using ha
    rcases ha' with ha | rfl
    · exact H.changes hC a ha
    · refine ⟨hwf.ids har, fun ar har' => ?_⟩
      cases har.symm.trans har'
      rfl

theorem initTables_holds {below levels : Nat} {r : Except Error Unit} (H : pt.Holds os)
    (hos : os.WF) (h : initTables ω below levels pt os = (r, pt', os')) :
    pt'.Holds os' ∧ os'.WF ∧ Os.Changes (· = pt.owner) os os' ∧ pt'.owner = pt.owner := by
  induction levels generalizing below pt os with
  | zero =>
    simp only [initTables] at h
    split at h
    all_goals
      next hc =>
      cases h
      obtain ⟨H', hwf, hC, ho⟩ := createTable_holds H hos hc
      exact ⟨H', hwf, hC, ho⟩
  | succ levels ih =>
    simp only [initTables] at h
    split at h
    · next hc =>
      cases h
      exact createTable_holds H hos hc
    · next t pt1 os1 hc =>
      obtain ⟨H', hwf, hC, ho⟩ := createTable_holds H hos hc
      obtain ⟨H'', hwf', hC', ho'⟩ :=
        ih (show Holds (pt1.setEntries t fun _ => below) os1 from H') hwf h
      refine ⟨H'', hwf', hC.trans ?_, ho'.trans ho⟩
      exact ho ▸ hC'

theorem init_holds {owner : α} {r : Except Error Unit} (hos : os.WF)
    (h : (new owner).init ω os = (r, pt, os')) :
    pt.Holds os' ∧ os'.WF ∧ Os.Changes (· = owner) os os' ∧ pt.owner = owner := by
  simp only [init, show (new owner).isValid = false from rfl, Bool.false_eq_true, if_false] at h
  split at h
  · next hc =>
    cases h
    obtain ⟨hS, -⟩ := Os.createArea_error hc
    exact ⟨nofun, hS.wf hos, hS.changes, rfl⟩
  next a os1 hc =>
  have C1 : Os.Changes (· = owner) os os1 := Os.changes_createArea rfl hc hos
  have hS := os1.same_memoryPage ω a 0
  have hfound : ∀ os2, Os.Same os1 os2 → ∀ b ∈ [a], b < os2.nextArea ∧
      ∀ ar, os2.find b = some ar → ar.owner = owner := by
    intro os2 S b hb
    rw [List.mem_singleton.mp hb]
    obtain ⟨rfl, hn, -, -, pages, -, hfind⟩ := Os.createArea_ok hc
    refine ⟨by have := S.2.1; omega, fun ar har => ?_⟩
    rw [S.find, hfind, if_pos rfl] at har
    cases har
    rfl
  split at h
  · next hm =>
    rw [hm] at hS
    cases h
    exact ⟨hfound _ hS, hS.wf (hos.createArea hc), C1.trans hS.changes, rfl⟩
  · next x os2 hm =>
    rw [hm] at hS
    have H2 : Holds { new owner with scratchArea := some a, scratchPage := x } os2 := hfound _ hS
    obtain ⟨H, hwf, hC, ho⟩ := initTables_holds H2 (hS.wf (hos.createArea hc)) h
    exact ⟨H, hwf, (C1.trans hS.changes).trans hC, ho⟩

end PageTables
end IntelGfx
