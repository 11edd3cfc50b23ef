import IntelGfx.Verify.AddressSpace
import IntelGfx.Verify.Binding

/-!
# The pool of page tables

Page tables are made as addresses are first mapped, out of a pool of `kMaxTables`, and stay until
the native state goes. A buffer is bound at an address exactly when the tables that its range still
lacks find a place in the pool (`exec_bindVirtual_iff`).
-/

namespace IntelGfx
open Memory RenderEngine

theorem error_ne_ok {ε α : Type*} {e : ε} {a : α} : (.error e : Except ε α) ≠ .ok a := by
  intro h
  cases h

namespace PageTables
variable {α : Type} {pt pt' : PageTables α} {os os' : Os α} {nodes nodes' : List (Path × Table)}
  {address count : Nat} {q : Path}

/-- There is a table at the end of a path that no other path leads to. -/
def hasTable (pt : PageTables α) (q : Path) : Bool :=
  (pt.tables.take 3).all fun t => SharedTrie.follow pt.next pt.root q != t.physical

/-- The paths to the tables of `count` pages from an address on. -/
def rangeTables (address count : Nat) : List Path :=
  ((List.range count).flatMap fun k => tablePaths (address + k * 4096)).dedup

/-- Those at the end of which there is no table yet. -/
def missing (pt : PageTables α) (address count : Nat) : List Path :=
  (rangeTables address count).filter fun q => !pt.hasTable q

theorem mem_rangeTables : q ∈ rangeTables address count ↔ RangePaths address count q := by
  simp only [rangeTables, List.mem_dedup, List.mem_flatMap, List.mem_range, RangePaths]

theorem length_tablePaths {a : Nat} (hq : q ∈ tablePaths a) : 0 < q.length ∧ q.length < 4 := by
  simp only [tablePaths, List.map_cons, List.map_nil, List.mem_cons, List.not_mem_nil,
    or_false] at hq
  rcases hq with rfl | rfl | rfl <;> simp [path]

theorem RangePaths.length (h : RangePaths address count q) : 0 < q.length ∧ q.length < 4 := by
  obtain ⟨k, -, hq⟩ := h
  exact length_tablePaths hq

theorem Rep.hasTable_iff (R : Rep pt os nodes) (hq : q.length < 4) :
    pt.hasTable q = true ↔ nodes.lookup q ≠ none := by
  rw [hasTable, List.all_eq_true]
  constructor
  · intro h
    have hown := R.own_of_not_scratch hq fun t ht => bne_iff_ne.mp (h t ht)
    exact fun hnone => nomatch (Rep.own_eq_none.mpr hnone).symm.trans hown
  · intro h t ht
    obtain ⟨u, hu⟩ := Option.ne_none_iff_exists'.mp h
    obtain ⟨k, h0, h4, hk⟩ := R.scratch_of_mem ht
    rw [R.trie.follow_own (Rep.own_of_lookup hu), bne_iff_ne, hk]
    exact (R.apart hu h0 h4).symm

theorem Rep.mem_missing (R : Rep pt os nodes) :
    q ∈ pt.missing address count ↔ RangePaths address count q ∧ nodes.lookup q = none := by
  rw [missing, List.mem_filter, mem_rangeTables]
  refine and_congr_right fun h => ?_
  rw [Bool.not_eq_true', ← Bool.not_eq_true, R.hasTable_iff h.length.2, ne_eq, not_not]

theorem nodup_missing : (pt.missing address count).Nodup := (List.nodup_dedup _).filter _

/-! ## What a mapping takes from the pool -/

theorem mem_keys (l : List (Path × Table)) (q : Path) :
    q ∈ l.map Prod.fst ↔ l.lookup q ≠ none := by
  rw [ne_eq, List.lookup_eq_none_iff]
  simp only [List.mem_map, not_forall, bne_iff_ne, ne_eq, not_not, exists_prop]
  exact exists_congr fun e => and_congr_right fun _ => eq_comm

/-- The keys of what has grown are those there were and some of the missing ones. -/
theorem Grown.keys_subset (G : Grown (RangePaths address count) pt os nodes pt' os' nodes')
    (R : Rep pt os nodes) :
    nodes'.map Prod.fst ⊆ nodes.map Prod.fst ++ pt.missing address count := by
  intro q hq
  rw [List.mem_append, mem_keys, R.mem_missing]
  by_cases h : nodes.lookup q = none
  · exact .inr ⟨(G.added ((mem_keys ..).mp hq)).resolve_left (not_not.mpr h), h⟩
  · exact .inl h

/-- Once every table of the range is there, it has taken a place of its own. -/
theorem Grown.fits (G : Grown (RangePaths address count) pt os nodes pt' os' nodes')
    (R : Rep pt os nodes) (h : ∀ q, RangePaths address count q → nodes'.lookup q ≠ none) :
    pt.tables.length + (pt.missing address count).length ≤ kMaxTables := by
  have hsub : nodes.map Prod.fst ++ pt.missing address count ⊆ nodes'.map Prod.fst := by
    intro q hq
    rw [mem_keys]
    rcases List.mem_append.mp hq with hq | hq
    · obtain ⟨t, ht⟩ := Option.ne_none_iff_exists'.mp ((mem_keys ..).mp hq)
      rw [G.kept ht]
      exact Option.some_ne_none t
    · exact h q (R.mem_missing.mp hq).1
  have hnodup : (nodes.map Prod.fst ++ pt.missing address count).Nodup := by
    refine R.keys.append nodup_missing fun q hq hq' => ?_
    exact (mem_keys ..).mp hq (R.mem_missing.mp hq').2
  have := (hnodup.subperm hsub).length_le
  have := G.rep.room
  have := G.rep.length
  have := R.length
  simp only [List.length_append, List.length_map] at *
  omega

/-- As long as one of the missing tables has found no place, others may have taken all of it. -/
theorem Grown.exceeds (G : Grown (RangePaths address count) pt os nodes pt' os' nodes')
    (R : Rep pt os nodes) (hfull : pt'.tables.length = kMaxTables) (hq : RangePaths address count q)
    (hnone : nodes'.lookup q = none) :
    kMaxTables < pt.tables.length + (pt.missing address count).length := by
  have hold : nodes.lookup q = none := by
    by_contra h
    obtain ⟨t, ht⟩ := Option.ne_none_iff_exists'.mp h
    exact nomatch hnone.symm.trans (G.kept ht)
  have hmem : q ∈ nodes.map Prod.fst ++ pt.missing address count :=
    List.mem_append_right _ (R.mem_missing.mpr ⟨hq, hold⟩)
  have hsub : nodes'.map Prod.fst ⊆ (nodes.map Prod.fst ++ pt.missing address count).erase q := by
    intro p hp
    rw [List.mem_erase_of_ne]
    · exact G.keys_subset R hp
    · rintro rfl
      exact (mem_keys ..).mp hp hnone
  have := (G.rep.keys.subperm hsub).length_le
  have := G.rep.length
  have := R.length
  have := List.length_pos_of_mem hmem
  simp only [List.length_erase_of_mem hmem, List.length_append, List.length_map] at *
  omega

/-- What decides whether a range is mapped, as long as no call fails. -/
theorem Mapped.ok_iff {bad : Prop} {f : Nat → Nat} {r : Except Error Unit} {done : Nat}
    (M : Mapped bad pt os nodes f address count r done pt' os' nodes') (R : Rep pt os nodes)
    (hbad : ¬ bad) (hquiet : os'.faults = os.faults) :
    (r = .ok () ↔ pt.tables.length + (pt.missing address count).length ≤ kMaxTables ∧
      ∀ j, j < count → unaddressable (f j) = false) ∧
    ((∀ j, j < count → unaddressable (f j) = false) → r = .ok () ∨ r = .error .noMemory) := by
  cases r with
  | ok u =>
    obtain ⟨rfl, -⟩ := M.ok rfl
    refine ⟨iff_of_true rfl ⟨M.grown.fits R fun q ⟨j, hj, hq⟩ => (M.reached j hj).2 q hq,
      fun j hj => (M.reached j hj).1⟩, fun _ => .inl rfl⟩
  | error e =>
    rcases M.error e rfl with hb | ⟨hfull, rfl, q, hq, hnone⟩ | hf | ⟨-, j, hj, hun⟩
    · exact absurd hb hbad
    · have := M.grown.exceeds R hfull hq hnone
      exact ⟨iff_of_false nofun fun h => by omega, fun _ => .inr rfl⟩
    · omega
    · exact ⟨iff_of_false nofun fun h => by simp [h.2 j hj] at hun,
        fun h => by simp [h j hj] at hun⟩

/-! ## New tables -/

variable {ω : Oracle} {α : Type} {pt pt' : PageTables α} {os os' : Os α}

/-- New tables take four places, for the scratch tables and the top level. -/
theorem Rep.fresh (R : Rep pt os [([], pt.top)]) (address count : Nat) :
    pt.tables.length = 4 ∧ pt.missing address count = rangeTables address count := by
  refine ⟨R.length, List.filter_eq_self.mpr fun q hq => ?_⟩
  have hlen := (mem_rangeTables.mp hq).length
  rw [Bool.not_eq_true', ← Bool.not_eq_true, R.hasTable_iff hlen.2]
  cases q with
  | nil => exact absurd hlen.1 (Nat.lt_irrefl 0)
  | cons i q => simp [List.lookup_cons]

theorem initTables_error {below levels : Nat} {e : Error} (hos : os.WF)
    (hroom : pt.tables.length + levels < kMaxTables)
    (h : initTables ω below levels pt os = (.error e, pt', os')) : os.faults < os'.faults := by
  induction levels generalizing below pt os with
  | zero =>
    simp only [initTables] at h
    split at h
    · next hc =>
      cases h
      obtain ⟨-, -, -, -, hcause⟩ := createTable_error hos hc
      exact hcause.resolve_left (by omega)
    · cases h
  | succ levels ih =>
    simp only [initTables] at h
    split at h
    · next hc =>
      cases h
      obtain ⟨-, -, -, -, hcause⟩ := createTable_error hos hc
      exact hcause.resolve_left (by omega)
    · next t pt₁ os₁ hc =>
      obtain ⟨rfl, -, hwf, hC, -⟩ := createTable_ok hos hc
      refine Nat.lt_of_le_of_lt hC.faults (ih hwf ?_ h)
      simp only [PageTables.setEntries, List.length_append, List.length_cons, List.length_nil]
      omega

/-- New tables are only refused when a call fails. -/
theorem init_error {owner : α} {e : Error} (hos : os.WF)
    (h : (new owner).init ω os = (.error e, pt, os')) : os.faults < os'.faults := by
  simp only [init, show (new owner).isValid = false from rfl, Bool.false_eq_true, if_false] at h
  split at h
  · next hc =>
    cases h
    exact (Os.createArea_error hc).2
  next a os₁ hc =>
  have hf := (Os.createArea_ok hc).2.2.2.1
  have hwf := hos.createArea hc
  split at h
  · next hm =>
    cases h
    exact hf ▸ (Os.memoryPage_error hm).2
  · next os₂ hm =>
    have S := os₁.same_memoryPage ω a 0
    rw [hm] at S
    have := initTables_error (S.wf hwf) (by simp [new, kMaxTables]) h
    exact hf ▸ Nat.lt_of_le_of_lt S.2.2.2 this

end PageTables

namespace Memory
variable {ω : Oracle} {g : GlobalGTT} {m m' : Memory} {o o' : Owner} {address done : Nat}
  {r : Except Error Unit}

/-- The pages of a buffer are where the entries of page tables reach. -/
def InReach (m : Memory) (o : Owner) : Prop := ∀ p ∈ m.pages o, unaddressable p = false

theorem faults_deleteAreas {α : Type} (l : List Nat) (os : Os α) :
    (l.foldl Os.deleteArea os).faults = os.faults := by
  induction l generalizing os with
  | nil => rfl
  | cons a l ih => exact ih _

theorem newTables_error {e : Error} (H : m.Inv g) (h : m.newTables ω o = (.error e, m')) :
    m.os.faults < m'.os.faults := by
  unfold newTables at h
  split at h
  · next e pt os' hi =>
    cases h
    have := PageTables.init_error H.os hi
    rwa [← faults_deleteAreas pt.areas os'] at this
  · cases h

theorem newTables_fresh (H : m.Inv g) (h : m.newTables ω o = (.ok (), m')) :
    ∃ pt, m'.tables o = some pt ∧ pt.Rep m'.os [([], pt.top)] := by
  unfold newTables at h
  split at h
  · cases h
  · next pt os' hi =>
    cases h
    exact ⟨pt, Function.update_self .., (PageTables.init_ok H.os hi).1⟩

/-- What decides whether a buffer is mapped, as long as no call fails. -/
theorem map_ok_iff {pt : PageTables Owner} {bo : BufferObject Owner} (H : m.Inv g)
    (hpt : m.tables o = some pt) (hbo : m.objects o' = some bo) (haligned : address % 4096 = 0)
    (hfit : address + bo.size ≤ kVirtualAddressLimit) (hquiet : m'.os.faults = m.os.faults)
    (h : m.map ω o (m.area o') address = (r, done, m')) :
    (r = .ok () ↔ pt.tables.length + (pt.missing address (m.pages o').length).length ≤
      PageTables.kMaxTables ∧ m.InReach o') ∧
    (m.InReach o' → r = .ok () ∨ r = .error .noMemory) := by
  obtain ⟨hsize, a, ha, har⟩ := H.size_eq hbo
  obtain ⟨-, -, nodes, R⟩ := H.tables hpt
  obtain ⟨-, -, -, hmapped⟩ := map_spec H h
  have harea : m.area o' = some a := by rw [Memory.area, hbo, Option.bind_some, ha]
  obtain ⟨pt', nodes', -, M⟩ := hmapped pt nodes a _ hpt R harea har
  have hreach : (∀ j, j < (m.pages o').length →
      unaddressable (PageTables.areaPage ⟨o', m.pages o'⟩ j) = false) ↔ m.InReach o' := by
    refine ⟨fun h p hp => ?_, fun h j hj => ?_⟩
    · obtain ⟨j, hj, rfl⟩ := List.mem_iff_getElem.mp hp
      rw [← h j hj, PageTables.areaPage, List.getD_eq_getElem _ _ hj]
    · rw [PageTables.areaPage, List.getD_eq_getElem _ _ hj]
      exact h _ (List.getElem_mem hj)
  rw [← hreach]
  unfold kVirtualAddressLimit at hfit
  exact M.ok_iff R (by dsimp only; omega) hquiet

end Memory

namespace Session
variable {ω : Oracle} {g : GlobalGTT} {s s' : Session} {r : Except Error Reply} {h address : Nat}
  {n : NativeState} {v : Held}

/-- The tables that a buffer lacks at an address find a place in the pool. If there is no native
state yet, its first four tables take theirs before. -/
def Room (s : Session) (address : Nat) (buffer : Owner) : Prop :=
  let count := (s.mem.pages buffer).length
  match s.mem.tables (.vm s.client.id) with
  | some pt => pt.tables.length + (pt.missing address count).length ≤ PageTables.kMaxTables
  | none => 4 + (PageTables.rangeTables address count).length ≤ PageTables.kMaxTables

/-- What decides whether a buffer is bound where there is room, as long as no call fails. -/
theorem bindVirtual_iff (I : s.Inv g) (hn : s.client.native = some n) (hv : s.held h = some v)
    (hbound : v.bound = false) (h0 : v.address = 0 ∨ v.address = address) (hne : address ≠ 0)
    (haligned : address % 4096 = 0) (hfit : address + v.size ≤ kVirtualAddressLimit)
    (hfree : Placement.Free (Held.sizes s.held) (Held.addresses s.held) (h, address))
    (hquiet : s'.mem.os.faults = s.mem.os.faults)
    (hr : s.bindVirtual ω n h 0 address = (r, s')) :
    (r = .ok .none ↔ v.address = address ∨
      s.Room address (.buffer s.client.id h) ∧ s.mem.InReach (.buffer s.client.id h)) ∧
    (s.mem.InReach (.buffer s.client.id h) → r = .ok .none ∨ r = .error .noMemory) := by
  obtain ⟨i, o, hf, hi, ho, rfl⟩ := held_some hv
  obtain ⟨hslot, hh0, rfl, bo, hbo, hpos⟩ := I.client.holding.slot ho
  rw [hi] at hh0 hf ho hbo hv hbound hfit
  have hsize : s.mem.size (.buffer s.client.id h) = bo.size := by rw [Memory.size, hbo]
  have hend : address < kVirtualAddressLimit := by
    dsimp only at hfit
    omega
  have ha : s.address i = n.addresses i := by
    rw [Session.address, hn]
    rfl
  dsimp only at h0 hfit ⊢
  rw [ha] at h0 ⊢
  by_cases heq : n.addresses i = address
  · -- it is there already
    rw [bindVirtual, if_neg (by omega), hf] at hr
    dsimp only at hr
    rw [if_neg (by omega), if_pos heq] at hr
    cases hr
    exact ⟨iff_of_true rfl (.inl heq), fun _ => .inl rfl⟩
  · obtain ⟨slot, buffer, r₁, done, m₁, hf', hm, hos, hcase⟩ :=
      bindVirtual_map I hn hv hbound (ha ▸ h0.resolve_right heq) hne haligned hfit hfree hr
    obtain ⟨-, rfl⟩ := Prod.mk.inj (Option.some.inj (hf.symm.trans hf'))
    have N := I.client.native
    rw [hn] at N
    obtain ⟨-, -, pt, hpt, -⟩ := N
    obtain ⟨hiff, hor⟩ := map_ok_iff I.mem hpt hbo haligned (hsize ▸ hfit)
      ((congrArg Os.faults hos).symm.trans hquiet) hm
    have hroom : s.Room address (.buffer s.client.id h) ↔ pt.tables.length +
        (pt.missing address (s.mem.pages (.buffer s.client.id h)).length).length ≤
          PageTables.kMaxTables := by
      rw [Room, hpt]
    rw [or_iff_right heq, hroom, ← hiff]
    rcases hcase with ⟨rfl, rfl⟩ | ⟨e, rfl, rfl⟩
    · exact ⟨iff_of_true rfl rfl, fun _ => .inl rfl⟩
    · refine ⟨iff_of_false error_ne_ok error_ne_ok, fun hreach => .inr ?_⟩
      exact congrArg Except.error (Except.error.inj ((hor hreach).resolve_left error_ne_ok))

/-! ## Requests -/

theorem nativeState_faults {e : Error} (I : s.Inv g) (hq : s.nativeState ω = (.error e, s')) :
    s.mem.os.faults < s'.mem.os.faults := by
  unfold nativeState at hq
  split at hq
  · cases hq
  split at hq
  · next hm =>
    cases hq
    exact allocate_error hm
  next m₁ hm₁ =>
  have I₁ := allocate_idle hm₁
  split at hq
  · next hm₂ =>
    cases hq
    have H₁ := (I₁.moves (K := fun _ => False) I.mem).inv
    exact Nat.lt_of_le_of_lt I₁.os.2.2.2 (newTables_error H₁ hm₂)
  · cases hq

/-- The making of the native state takes from the pool what it was said to take. -/
theorem nativeState_room (I : s.Inv g) (hq : s.nativeState ω = (.ok n, s')) :
    (s'.Room address (.buffer s.client.id h) ↔ s.Room address (.buffer s.client.id h)) ∧
      s'.mem.pages (.buffer s.client.id h) = s.mem.pages (.buffer s.client.id h) := by
  rcases nativeState_cases hq with
    ⟨n', -, -, rfl⟩ | ⟨hn, ⟨⟨e, he⟩, -⟩ | ⟨m₁, r₂, m₂, I₁, hm₂, hcase⟩⟩
  · exact ⟨.rfl, rfl⟩
  · cases he
  rcases hcase with ⟨⟨e, -, he⟩, -⟩ | ⟨rfl, -, rfl⟩
  · cases he
  have N := I.client.native
  rw [hn] at N
  have M₁ : Moves g (· = .vm s.client.id) s.mem m₁ := I₁.moves I.mem
  obtain ⟨M₂, -⟩ :=
    newTables_spec M₁.inv (Owner.isTables_vm _) ((congrFun I₁.tables _).trans N.1) hm₂
  have hpages : m₂.pages (.buffer s.client.id h) = s.mem.pages (.buffer s.client.id h) :=
    (M₁.trans M₂).pages I.mem nofun
  obtain ⟨pt, hpt, R⟩ := newTables_fresh M₁.inv hm₂
  obtain ⟨hlen, hmissing⟩ := R.fresh address (s.mem.pages (.buffer s.client.id h)).length
  refine ⟨?_, hpages⟩
  simp only [Room, hpages, hpt, N.1, hlen, hmissing]

/-- What decides whether a request for a binding is served, as long as no call fails. -/
theorem ioctl_bindVirtual_iff (I : s.Inv g) (R : s.client.Renders) (hv : s.held h = some v)
    (hbound : v.bound = false) (h0 : v.address = 0 ∨ v.address = address) (hne : address ≠ 0)
    (haligned : address % 4096 = 0) (hfit : address + v.size ≤ kVirtualAddressLimit)
    (hfree : Placement.Free (Held.sizes s.held) (Held.addresses s.held) (h, address))
    (hquiet : s'.mem.os.faults = s.mem.os.faults)
    (hr : s.ioctl ω ⟨24, kABIVersion, 24⟩ (.bindVirtual h 0 address) = (r, s')) :
    (r = .ok .none ↔ v.address = address ∨
      s.Room address (.buffer s.client.id h) ∧ s.mem.InReach (.buffer s.client.id h)) ∧
    (s.mem.InReach (.buffer s.client.id h) → r = .ok .none ∨ r = .error .noMemory) := by
  rw [ioctl_eq_nativeIoctl R rfl, nativeIoctl, if_neg (by simp [R.1])] at hr
  cases hn : s.nativeState ω with
  | mk q s₁ =>
  have K₁ := nativeState_keeps I R.1 hn
  have hf₁ := K₁.moves.os.faults
  rw [hn] at hr
  cases q with
  | error e =>
    cases hr
    exact absurd (nativeState_faults I hn) (Nat.lt_irrefl _ <| hquiet ▸ ·)
  | ok n =>
  obtain ⟨hroom, hpages⟩ : (s₁.Room address (.buffer s.client.id h) ↔
      s.Room address (.buffer s.client.id h)) ∧
      s₁.mem.pages (.buffer s.client.id h) = s.mem.pages (.buffer s.client.id h) :=
    nativeState_room I hn
  dsimp only at hr
  simp only [Request.sizeof] at hr
  cases hq : s₁.readRequest ω ⟨24, kABIVersion, 24⟩ 24 with
  | mk q s₂ =>
  have J := readRequest_idle hq
  rw [hq] at hr
  cases q with
  | error e =>
    cases hr
    have := readRequest_error hq
    omega
  | ok u =>
  have I₂ := (J.keeps K₁.inv).inv
  have hid : s₂.client.id = s.client.id := (congrArg RenderClient.id J.client).trans K₁.id
  have hheld : s₂.held = s.held := J.held.trans (nativeState_held I hn)
  have hpages₂ : s₂.mem.pages (.buffer s.client.id h) = s.mem.pages (.buffer s.client.id h) :=
    ((J.mem.moves (K := fun _ => False) K₁.inv.mem).pages K₁.inv.mem id).trans hpages
  have hroom₂ : s₂.Room address (.buffer s.client.id h) ↔
      s.Room address (.buffer s.client.id h) := by
    rw [← hroom, Room, Room, J.mem.tables, J.client, hpages₂, hpages]
  have hf₂ := J.mem.os.2.2.2
  have hf₃ := (nativeRequest_keeps I₂ (J.client ▸ (nativeState_ok hn).1) ?_
    (hr : s₂.nativeRequest ω n (.bindVirtual h 0 address) = (r, s'))).moves.os.faults
  · have hmain := bindVirtual_iff I₂ (J.client ▸ (nativeState_ok hn).1) (hheld ▸ hv) hbound h0 hne
      haligned hfit (hheld ▸ hfree) (by omega) hr
    rwa [hid, hroom₂, InReach, hpages₂] at hmain
  · have := (nativeState_renders R hn).2
    rwa [(nativeState_ok hn).1] at this

end Session

namespace Device

/-- Whatever the users of the device have done: a buffer is bound at an address exactly when the
tables that it lacks there find a place in the pool, and when its pages are within reach of their
entries. Otherwise there is no memory for it. No call of the request fails, and there is nothing
that the interface says against the binding; the tables themselves are within reach, since an
`Oracle` takes contiguous pages from below `2 ^ 39`. -/
theorem exec_bindVirtual_iff (config : Config) (entries : Nat → Nat) (foreign : List Nat)
    (calls : List (Call × Oracle)) {ω : Oracle} {c h address : Nat} {x : RenderClient} {v : Held}
    {r : Except Error Reply} {s s' : Session}
    (hx : (Run.exec step (start config entries foreign) calls).clients c = some x)
    (hs : s = (Run.exec step (start config entries foreign) calls).entered x)
    (hrenders : x.Renders) (hv : s.held h = some v) (hbound : v.bound = false)
    (h0 : v.address = 0 ∨ v.address = address) (hne : address ≠ 0) (haligned : address % 4096 = 0)
    (hfit : address + v.size ≤ kVirtualAddressLimit)
    (hfree : Placement.Free (Held.sizes s.held) (Held.addresses s.held) (h, address))
    (hr : s.ioctl ω ⟨24, kABIVersion, 24⟩ (.bindVirtual h 0 address) = (r, s'))
    (hquiet : s'.mem.os.faults = s.mem.os.faults) :
    (r = .ok .none ↔ v.address = address ∨
      s.Room address (.buffer c h) ∧ s.mem.InReach (.buffer c h)) ∧
    (s.mem.InReach (.buffer c h) → r = .ok .none ∨ r = .error .noMemory) := by
  obtain ⟨g, I⟩ := exec_inv config entries foreign calls
  obtain ⟨-, hid, -⟩ := I.client hx
  have S := I.entered hx
  have hc : s.client = x := by
    rw [hs]
    rfl
  rw [← hs] at S
  have hmain := Session.ioctl_bindVirtual_iff S (hc ▸ hrenders) hv hbound h0 hne haligned hfit hfree
    hquiet hr
  rwa [hc, hid] at hmain

/-- As long as a client has nothing bound every place is free. -/
theorem free_of_unbound {s : Session} {b : Nat × Nat} (h : ∀ i, s.address i = 0) :
    Placement.Free (Held.sizes s.held) (Held.addresses s.held) b := by
  intro k _ hmeets
  obtain ⟨i, -, -, -, hi⟩ := Session.addresses_ne hmeets.1
  exact hi (h i)

set_option maxRecDepth 10000 in
/-- The first buffer of a client, of two pages, at 1 MiB. -/
theorem exec_bindVirtual_iff_first :
    let d := Run.exec step (start Config.render (fun _ => 0) [])
      [(.open, .unfailing), (.ioctl 0 ⟨32, 8, 32⟩ (.createBuffer 8192 0 0), .unfailing)]
    ∃ x, d.clients 0 = some x ∧
      (((d.entered x).ioctl .unfailing ⟨24, 8, 24⟩ (.bindVirtual 1 0 0x100000)).1 = .ok .none ↔
        0 = 0x100000 ∨ (d.entered x).Room 0x100000 (.buffer 0 1) ∧
          (d.entered x).mem.InReach (.buffer 0 1)) := by
  generalize hcalls : [_, _] = calls
  intro d
  have h : (d.clients 0).any (fun x => x.nativeRender && x.native.isNone &&
      ((d.entered x).held 1).map (fun v => (v.size, v.address, v.bound)) == some (8192, 0, false) &&
      ((d.entered x).ioctl .unfailing ⟨24, 8, 24⟩ (.bindVirtual 1 0 0x100000)).2.mem.os.faults ==
        (d.entered x).mem.os.faults) = true := by
    subst hcalls
    decide +kernel
  obtain ⟨x, hx, h⟩ := (Option.any_eq_true _ _).mp h
  simp only [Bool.and_eq_true, beq_iff_eq, Option.map_eq_some_iff, Prod.mk.injEq,
    Option.isNone_iff_eq_none] at h
  obtain ⟨⟨⟨hrender, hnative⟩, v, hv, hsize, haddress, hbound⟩, hquiet⟩ := h
  have hfree (i : Nat) : (d.entered x).address i = 0 := by
    change x.native.elim 0 _ = 0
    rw [hnative]
    rfl
  have hmain := exec_bindVirtual_iff Config.render (fun _ => 0) [] _ hx rfl
    ⟨hrender, by rw [hnative]; rfl⟩ hv hbound (.inl haddress) (by decide) (by decide)
    (by rw [hsize]; decide) (free_of_unbound hfree) Prod.mk.eta.symm hquiet
  rw [haddress] at hmain
  exact ⟨x, hx, hmain.1⟩

end Device

end IntelGfx
