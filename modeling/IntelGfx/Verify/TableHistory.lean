import IntelGfx.Verify.TableBudget

/-!
# The places for which a client has asked

No request but `kBindVirtual` adds a table to the native state, and it adds none but those of the
place for which it asks. As long as these find room in the pool together, whatever is bound and
unbound in between, a client is not refused (`exec_bindVirtual_served`). It is once it has wandered
through more of the address space than the pool has tables for (`not_served_of_wander`).
-/

namespace IntelGfx
open Memory RenderEngine

namespace PageTables
variable {α : Type} {pt : PageTables α} {os : Os α} {nodes : List (Path × Table)}
  {address count : Nat} {l : List Path}

/-- Tables all of which are in a list take no more places than there are in the list, and four. -/
theorem Rep.room_of_mem (R : pt.Rep os nodes)
    (h : ∀ q : Path, 0 < q.length → q.length < 4 → pt.hasTable q = true → q ∈ l) :
    pt.tables.length + (pt.missing address count).length ≤
      (l ++ rangeTables address count).dedup.length + 4 := by
  have hsub : nodes.map Prod.fst ++ pt.missing address count ⊆
      [] :: (l ++ rangeTables address count).dedup := by
    intro q hq
    rw [List.mem_cons, List.mem_dedup, List.mem_append]
    rcases List.mem_append.mp hq with hq | hq
    · rw [mem_keys] at hq
      obtain ⟨t, ht⟩ := Option.ne_none_iff_exists'.mp hq
      have h4 := R.trie.short (Rep.own_of_lookup ht)
      cases q with
      | nil => exact .inl rfl
      | cons i q =>
        exact .inr (.inl (h _ (Nat.succ_pos _) h4 ((R.hasTable_iff h4).mpr hq)))
    · exact .inr (.inr (List.mem_of_mem_filter hq))
  have hnodup : (nodes.map Prod.fst ++ pt.missing address count).Nodup :=
    R.keys.append nodup_missing fun q hq hq' => (mem_keys ..).mp hq (R.mem_missing.mp hq').2
  have := (hnodup.subperm hsub).length_le
  have := R.length
  rw [List.length_append, List.length_map, List.length_cons] at *
  omega

theorem length_rangeTables (address count : Nat) :
    (rangeTables address count).length ≤ 3 * count := by
  refine (List.dedup_sublist _).length_le.trans ?_
  rw [List.length_flatMap]
  induction count with
  | zero => exact Nat.le_refl 0
  | succ count ih =>
    rw [List.range_succ, List.map_append, List.sum_append]
    exact Nat.add_le_add ih (Nat.le_refl 3)

/-- Tables that have all the tables of others are no fewer. -/
theorem Rep.length_mono {pt' : PageTables α} {os' : Os α} {nodes' : List (Path × Table)}
    (R : pt.Rep os nodes) (R' : pt'.Rep os' nodes')
    (h : ∀ q : Path, q.length < 4 → pt.hasTable q = true → pt'.hasTable q = true) :
    pt.tables.length ≤ pt'.tables.length := by
  have hsub : nodes.map Prod.fst ⊆ nodes'.map Prod.fst := by
    intro q hq
    rw [mem_keys] at hq ⊢
    obtain ⟨t, ht⟩ := Option.ne_none_iff_exists'.mp hq
    have h4 := R.trie.short (Rep.own_of_lookup ht)
    exact (R'.hasTable_iff h4).mp (h q h4 ((R.hasTable_iff h4).mpr hq))
  have := (R.keys.subperm hsub).length_le
  have := R.length
  have := R'.length
  rw [List.length_map, List.length_map] at *
  omega

/-! ## Where nothing fails -/

section unfailing
variable {n top area k : Nat} {ar : Area α} {pt' : PageTables α} {os' : Os α}

/-- No call has failed yet, and the pages above those of the tables are free. -/
structure Calm (n top area : Nat) (ar : Area α) (pt : PageTables α) (os : Os α) : Prop where
  wf : os.WF
  faults : os.faults = n
  found : os.find area = some ar
  live : ∀ p ∈ os.live, p < (top + pt.tables.length) * 4096
  room : pt.tables.length ≤ kMaxTables

theorem Calm.of_tables (C : Calm n top area ar pt os) (h : pt'.tables = pt.tables) :
    Calm n top area ar pt' os :=
  ⟨C.wf, C.faults, C.found, h ▸ C.live, h ▸ C.room⟩

variable (h0 : 0 < top) (htop : top + kMaxTables < 2 ^ 27)
include h0 htop

theorem Calm.createTable (C : Calm n top area ar pt os) :
    Calm n top area ar (pt.createTable .unfailing os).2.1 (pt.createTable .unfailing os).2.2 := by
  obtain ⟨hwf, hfaults, hfound, hlive, hroom⟩ := C
  unfold PageTables.createTable
  split
  · exact ⟨hwf, hfaults, hfound, hlive, hroom⟩
  next hfull =>
  obtain ⟨os₁, hc, hfaults₁, hlive₁⟩ := os.createArea_unfailing pt.owner true (by omega) hlive
    (by omega)
  obtain ⟨x, hx, -, haddr⟩ := Os.createArea_page hc
  have hm : os₁.memoryPage .unfailing os.nextArea 0 = (.ok x, os₁.called) := by
    unfold Os.memoryPage
    simp [hx, Oracle.unfailing]
  rw [hc]
  dsimp only
  rw [hm]
  dsimp only
  rw [if_neg (by simp [haddr])]
  refine ⟨os₁.same_called.wf (hwf.createArea hc), hfaults₁.trans hfaults,
    os₁.same_called.find.trans (Os.keeps_createArea hwf hc hfound), ?_, ?_⟩
  · dsimp only
    rw [List.length_append, List.length_singleton, ← Nat.add_assoc]
    exact hlive₁
  · dsimp only
    rw [List.length_append, List.length_singleton]
    exact Nat.lt_of_le_of_ne hroom hfull

theorem Calm.walkFrom (C : Calm n top area ar pt os) (address : Nat) (create : Bool)
    (levels : List Nat) (table : Table) :
    Calm n top area ar (walkFrom .unfailing address create levels table pt os).2.1
      (walkFrom .unfailing address create levels table pt os).2.2 := by
  induction levels generalizing table pt os with
  | nil => exact C
  | cons level levels ih =>
    rw [PageTables.walkFrom]
    dsimp only
    split
    · exact C
    split
    · split
      · have C' := C.createTable h0 htop
        generalize pt.createTable .unfailing os = res at C'
        obtain ⟨_ | t, pt', os'⟩ := res
        · exact C'
        · exact ih (C'.of_tables (by rfl)) _
      · exact C
    · exact ih C _

theorem Calm.mapPages (C : Calm n top area ar pt os) (address count : Nat)
    (hcount : k + count ≤ ar.pages.length) :
    Calm n top area ar
      (mapPages .unfailing (fun k os => os.memoryPage .unfailing area k) address count k pt
        os).2.2.1
      (mapPages .unfailing (fun k os => os.memoryPage .unfailing area k) address count k pt
        os).2.2.2 := by
  induction count generalizing k pt os with
  | zero => exact C
  | succ count ih =>
    have hk : k < ar.pages.length := by omega
    have hpage : os.memoryPage .unfailing area k = (.ok ar.pages[k], os.called) := by
      unfold Os.memoryPage
      simp [C.found, Oracle.unfailing, List.getElem?_eq_getElem hk]
    have C₁ : Calm n top area ar pt os.called :=
      ⟨os.same_called.wf C.wf, C.faults, C.found, C.live, C.room⟩
    rw [PageTables.mapPages, hpage]
    dsimp only
    split
    · exact C₁
    have C₂ := C₁.walkFrom h0 htop (address + k * 4096) true [0, 1, 2] pt.top
    rw [walk]
    generalize PageTables.walkFrom .unfailing (address + k * 4096) true [0, 1, 2] pt.top pt
      os.called = res at C₂
    obtain ⟨_ | t, pt', os'⟩ := res
    · exact C₂
    · exact ih (C₂.of_tables rfl) (by omega)

theorem Calm.map (C : Calm n top area ar pt os) (address : Nat) :
    Calm n top area ar (pt.map .unfailing os area address).2.2.1
      (pt.map .unfailing os area address).2.2.2 := by
  rw [PageTables.map]
  split
  · exact C
  split
  · exact C
  split
  · exact C
  next size hsize =>
  dsimp only
  split
  · exact C
  have hsize : size = ar.pages.length * 4096 := by
    rw [Os.areaSize, C.found] at hsize
    exact (Except.ok.inj hsize).symm
  have hcount : pageRound size / 4096 = ar.pages.length := by
    rw [hsize, pageRound_mul (C.wf.bounded C.found), Nat.mul_div_cancel _ (by decide)]
  rw [hcount]
  exact Calm.mapPages h0 htop (C.of_tables (by rfl)) _ _ (Nat.zero_add _).le

end unfailing

end PageTables

namespace Memory

theorem map_calm {m m' : Memory} {n top b address done : Nat} {o : Owner} {area : Option Nat}
    {ar : Area Owner} {pt : PageTables Owner} {r : Except Error Unit} (h0 : 0 < top)
    (htop : top + PageTables.kMaxTables < 2 ^ 27) (hpt : m.tables o = some pt)
    (harea : area = some b) (C : PageTables.Calm n top b ar pt m.os)
    (h : m.map .unfailing o area address = (r, done, m')) :
    ∃ pt', m'.tables o = some pt' ∧ PageTables.Calm n top b ar pt' m'.os := by
  have C' := C.map h0 htop address
  unfold map at h
  rw [hpt, harea] at h
  dsimp only at h
  generalize pt.map .unfailing m.os b address = res at C' h
  obtain ⟨r', done', pt', os'⟩ := res
  cases h
  exact ⟨pt', Function.update_self .., C'⟩

end Memory

namespace Session
variable {g : GlobalGTT} {s s' : Session} {a address : Nat} {r : Except Error Reply}

/-- A client that has nothing but a buffer of two pages, bound virtually at `a` if anywhere, no call
has failed, and the pages above those of its tables are free. -/
structure Roams (a : Nat) (s : Session) : Prop where
  renders : s.client.Renders
  held : s.held = Function.update (fun _ => none) 1 (some ⟨8192, a, false⟩)
  faults : s.mem.os.faults = 0
  tables : ∃ pt, s.mem.tables (.vm s.client.id) = some pt ∧
    ∀ p ∈ s.mem.os.live, p < (256 + pt.tables.length) * 4096

theorem Roams.held_one (H : Roams a s) : s.held 1 = some ⟨8192, a, false⟩ := by
  rw [H.held, Function.update_self]

theorem Roams.free (H : Roams a s) :
    Placement.Free (Held.sizes s.held) (Held.addresses s.held) (1, address) := by
  intro k hk hmeets
  refine hmeets.1 ?_
  rw [Held.addresses, H.held, Function.update_of_ne hk]
  rfl

theorem Roams.native (H : Roams a s) (I : s.Inv g) : ∃ n, s.client.native = some n := by
  obtain ⟨pt, hpt, -⟩ := H.tables
  refine Option.ne_none_iff_exists'.mp fun hn => ?_
  have N := I.client.native
  rw [hn] at N
  cases N.1.symm.trans hpt

theorem Roams.room (H : Roams a s) (I : s.Inv g) :
    ∀ p ∈ s.mem.os.live, p < (256 + PageTables.kMaxTables) * 4096 := by
  intro p hp
  obtain ⟨pt, hpt, hlive⟩ := H.tables
  obtain ⟨-, -, nodes, R⟩ := I.mem.tables hpt
  exact (hlive p hp).trans_le (Nat.mul_le_mul_right _ (Nat.add_le_add_left R.room 256))

theorem Roams.inReach (H : Roams a s) (I : s.Inv g) (o : Owner) : s.mem.InReach o := by
  intro p hp
  cases hbo : s.mem.objects o with
  | none =>
    rw [pages, area, hbo] at hp
    cases hp
  | some bo =>
    obtain ⟨-, b, -, har⟩ := I.mem.size_eq hbo
    have hlive := H.room I p (Os.mem_live har hp)
    exact unaddressable_eq_false.mpr
      ⟨(I.mem.os.aligned har hp).1, hlive.trans (by unfold PageTables.kMaxTables; omega)⟩

/-- A request for a binding is read, and nothing in it fails. -/
theorem Roams.bind (H : Roams 0 s) (I : s.Inv g)
    (hr : s.ioctl .unfailing ⟨24, kABIVersion, 24⟩ (.bindVirtual 1 0 address) = (r, s')) :
    s'.mem.os.faults = 0 ∧ (r = .ok .none → Roams address s') := by
  obtain ⟨n, hn⟩ := H.native I
  obtain ⟨pt, hpt, hlive⟩ := H.tables
  have R := H.renders
  rw [ioctl_eq_nativeIoctl R rfl, nativeIoctl, if_neg (by simp [R.1]), nativeState, hn] at hr
  dsimp only [Request.sizeof] at hr
  rw [readRequest_unfailing] at hr
  dsimp only at hr
  have J : Idle s (s.setMem (s.mem.setOs s.mem.os.called)) :=
    idle_setMem ⟨s.mem.os.same_called, rfl, rfl, rfl⟩
  have I₁ := (J.keeps I).inv
  generalize hs₁ : s.setMem (s.mem.setOs s.mem.os.called) = s₁ at hr J I₁
  replace hr : s₁.bindVirtual .unfailing n 1 0 address = (r, s') := hr
  have hn₁ : s₁.client.native = some n := J.client ▸ hn
  have hpt₁ : s₁.mem.tables (.vm s₁.client.id) = some pt := by rw [J.client, J.mem.tables, hpt]
  have hlive₁ : s₁.mem.os.live = s.mem.os.live := by rw [← hs₁]; rfl
  have hfaults₁ : s₁.mem.os.faults = 0 := by rw [← H.faults, ← hs₁]; rfl
  have R₁ : s₁.client.Renders := J.client ▸ R
  have hheld : r = .ok .none →
      s'.held = Function.update (fun _ => none) 1 (some ⟨8192, address, false⟩) := by
    rintro rfl
    rcases bindVirtual_held I₁ hn₁ hr with ⟨⟨e, he⟩, -⟩ | ⟨-, v, hv, hheld⟩
    · cases he
    · rw [J.held, H.held_one] at hv
      cases hv
      rw [hheld, J.held, H.held, Function.update_idem]
  have hrenders := bindVirtual_renders R₁ hn₁ hr
  rcases bindVirtual_cases hr with ⟨⟨e, rfl⟩, rfl⟩ | ⟨slot, buffer, hf, -, -, -, hcase⟩
  · exact ⟨hfaults₁, fun h => by cases h⟩
  rcases hcase with ⟨-, -, rfl⟩ | ⟨-, -, -, r₁, done, m₁, hm, hcase⟩
  · exact ⟨hfaults₁, fun h => ⟨hrenders, hheld h, hfaults₁, pt, hpt₁, hlive₁ ▸ hlive⟩⟩
  obtain ⟨-, -, hslot⟩ := find_some hf
  obtain ⟨-, -, -, bo, hbo, -⟩ := I₁.client.holding.slot hslot
  obtain ⟨-, b, hb, har⟩ := I₁.mem.size_eq hbo
  obtain ⟨-, -, nodes, R⟩ := I₁.mem.tables hpt₁
  have C : PageTables.Calm 0 256 b ⟨buffer, s₁.mem.pages buffer⟩ pt s₁.mem.os :=
    ⟨I₁.mem.os, hfaults₁, har, hlive₁ ▸ hlive, R.room⟩
  have C' := C.map (by decide) (by decide) address
  have harea : s₁.mem.area buffer = some b := by rw [Memory.area, hbo, Option.bind_some, hb]
  obtain ⟨pt', hpt', C'⟩ := map_calm (by decide) (by decide) hpt₁ harea C hm
  rcases hcase with ⟨⟨e, -, rfl⟩, rfl⟩ | ⟨-, rfl, rfl⟩
  · refine ⟨?_, fun h => by cases h⟩
    obtain ⟨-, -, hmachine, -⟩ := unmap_spec (map_spec I₁.mem hm).1.inv Prod.mk.eta.symm
    exact (congrArg (·.os.faults) hmachine).trans C'.faults
  · exact ⟨C'.faults, fun h => ⟨hrenders, hheld h, C'.faults, pt', hpt', C'.live⟩⟩

/-- And so is one to unbind. -/
theorem Roams.unbind (H : Roams a s) (I : s.Inv g)
    (hr : s.ioctl .unfailing ⟨16, kABIVersion, 16⟩ (.unbindVirtual 1 0) = (r, s')) :
    Roams 0 s' := by
  obtain ⟨n, hn⟩ := H.native I
  obtain ⟨pt, hpt, hlive⟩ := H.tables
  have R := H.renders
  have E := ioctl_extends (S := fun _ => True) I (fun _ _ => trivial) hr
  have hinv := (ioctl_keeps I hr).inv
  have hid := (ioctl_keeps I hr).id
  rw [ioctl_eq_nativeIoctl R rfl, nativeIoctl, if_neg (by simp [R.1]), nativeState, hn] at hr
  dsimp only [Request.sizeof] at hr
  rw [readRequest_unfailing] at hr
  dsimp only at hr
  have J : Idle s (s.setMem (s.mem.setOs s.mem.os.called)) :=
    idle_setMem ⟨s.mem.os.same_called, rfl, rfl, rfl⟩
  have I₁ := (J.keeps I).inv
  generalize hs₁ : s.setMem (s.mem.setOs s.mem.os.called) = s₁ at hr J I₁
  replace hr : s₁.unbindVirtual .unfailing 1 0 = (r, s') := hr
  have hlive₁ : s₁.mem.os.live = s.mem.os.live := by rw [← hs₁]; rfl
  have hfaults₁ : s₁.mem.os.faults = 0 := by rw [← H.faults, ← hs₁]; rfl
  have hone : s₁.held 1 = some ⟨8192, a, false⟩ := J.held ▸ H.held_one
  obtain rfl := unbindVirtual_ok I₁ hone hr
  have hos : s'.mem.os = s₁.mem.os := by
    rcases unbindVirtual_cases hr with ⟨⟨e, he⟩, -⟩ | ⟨slot, buffer, r₁, hf, hu⟩
    · cases he
    · obtain ⟨-, -, -, hmachine, -⟩ := unmapVirtual_spec I₁.mem I₁.client (find_some hf).2.2 hu
      exact congrArg (·.os) hmachine
  obtain ⟨pt', hpt', hsub⟩ := E.kept pt hpt
  obtain ⟨-, -, nodes, R₀⟩ := I.mem.tables hpt
  obtain ⟨-, -, nodes', R'⟩ := hinv.mem.tables hpt'
  refine ⟨unbindVirtual_renders I₁ (J.client ▸ R) hr, ?_, hos ▸ hfaults₁, pt', hid.symm ▸ hpt',
    fun p hp => ?_⟩
  · rcases unbindVirtual_held I₁ hr with ⟨⟨e, he⟩, -⟩ | ⟨-, v, hv, hheld⟩
    · cases he
    · cases hone.symm.trans hv
      rw [hheld, J.held, H.held, Function.update_idem]
  · have hold := hlive p (by rw [← hlive₁, ← hos]; exact hp)
    exact hold.trans_le (Nat.mul_le_mul_right _ (Nat.add_le_add_left (R₀.length_mono R' hsub) 256))

end Session

namespace Device
variable {g : GlobalGTT} {d : Device} {c : Nat} {x : RenderClient} {config : Config}
  {entries : Nat → Nat} {foreign : List Nat} {calls : List (Call × Oracle)}

/-- There is room for a range as long as there is room for all the places for which the client has
asked, this one among them. -/
theorem room_of_asked {h address : Nat} {v : Held} {s : Session}
    (hx : (Run.exec step (start config entries foreign) calls).clients c = some x)
    (hs : s = (Run.exec step (start config entries foreign) calls).entered x)
    (hv : s.held h = some v)
    (hroom : (askedOver c (start config entries foreign) calls ++
      PageTables.rangeTables address (v.size / 4096)).dedup.length + 4 ≤ PageTables.kMaxTables) :
    s.Room address (.buffer c h) := by
  obtain ⟨g, I⟩ := exec_inv config entries foreign calls
  obtain ⟨-, hid, -⟩ := I.client hx
  have S := I.entered hx
  have W : Within c [] (start config entries foreign) := fun _ _ h => nomatch h
  replace W := W.exec ⟨_, start_inv config entries foreign⟩ calls
  rw [List.nil_append] at W
  have hc : s.client.id = c := hs ▸ hid
  have htables :
      s.mem.tables = (Run.exec step (start config entries foreign) calls).mem.tables := by
    rw [hs]
    exact (idle_enter _).tables
  rw [← hs] at S
  obtain ⟨i, o, hf, hi, ho, rfl⟩ := Session.held_some hv
  obtain ⟨-, -, rfl, bo, hbo, -⟩ := S.client.holding.slot ho
  rw [hi, hc] at hbo hroom
  have hcount : s.mem.size (.buffer c h) / 4096 = (s.mem.pages (.buffer c h)).length := by
    rw [Memory.size, hbo]
    dsimp only
    rw [(S.mem.size_eq hbo).1, Nat.mul_div_cancel _ (by decide)]
  rw [hcount] at hroom
  unfold Session.Room
  rw [hc, htables]
  cases hpt : (Run.exec step (start config entries foreign) calls).mem.tables (.vm c) with
  | some pt =>
    obtain ⟨-, -, nodes, R⟩ := I.mem.tables hpt
    exact (R.room_of_mem (W x pt hx hpt)).trans hroom
  | none =>
    refine Nat.le_trans ?_ hroom
    rw [Nat.add_comm]
    have hsub := (List.nodup_dedup _).subperm fun q
      (hq : q ∈ PageTables.rangeTables address (s.mem.pages (.buffer c h)).length) =>
        List.mem_dedup.mpr
          (List.mem_append_right (askedOver c (start config entries foreign) calls) hq)
    exact Nat.add_le_add_right hsub.length_le 4

/-- A request for a binding that passes the checks of the interface is served or there is no memory
for it. It is served as long as the tables of its range and of all the ranges for which the client
has asked before, bound or not by now, find a place in the pool beside the four that are there from
the start. -/
theorem exec_bindVirtual_served (config : Config) (entries : Nat → Nat) (foreign : List Nat)
    (calls : List (Call × Oracle)) {ω : Oracle} {c h address : Nat} {x : RenderClient} {v : Held}
    {r : Except Error Reply} {s s' : Session}
    (hx : (Run.exec step (start config entries foreign) calls).clients c = some x)
    (hs : s = (Run.exec step (start config entries foreign) calls).entered x)
    (hrenders : x.Renders) (hv : s.held h = some v) (hbound : v.bound = false)
    (h0 : v.address = 0 ∨ v.address = address) (hne : address ≠ 0) (haligned : address % 4096 = 0)
    (hfit : address + v.size ≤ kVirtualAddressLimit)
    (hfree : Placement.Free (Held.sizes s.held) (Held.addresses s.held) (h, address))
    (hreach : s.mem.InReach (.buffer c h))
    (hr : s.ioctl ω ⟨24, kABIVersion, 24⟩ (.bindVirtual h 0 address) = (r, s'))
    (hquiet : s'.mem.os.faults = s.mem.os.faults) :
    (r = .ok .none ∨ r = .error .noMemory) ∧
    ((askedOver c (start config entries foreign) calls ++
      PageTables.rangeTables address (v.size / 4096)).dedup.length + 4 ≤ PageTables.kMaxTables →
      r = .ok .none) := by
  obtain ⟨g, I⟩ := exec_inv config entries foreign calls
  obtain ⟨-, hid, -⟩ := I.client hx
  have S := I.entered hx
  rw [← hs] at S
  have hc : s.client = x := by
    rw [hs]
    rfl
  have hmain := Session.ioctl_bindVirtual_iff S (hc ▸ hrenders) hv hbound h0 hne haligned hfit hfree
    hquiet hr
  rw [hc, hid] at hmain
  exact ⟨hmain.2 hreach, fun hroom => hmain.1.mpr (.inr ⟨room_of_asked hx hs hv hroom, hreach⟩)⟩

set_option maxRecDepth 10000 in
/-- The buffer that has been bound at 1 MiB is bound at 1 GiB. -/
theorem exec_bindVirtual_served_elsewhere :
    let d := Run.exec step (start Config.render (fun _ => 0) [])
      (bindOnce ++ [(.ioctl 0 ⟨16, 8, 16⟩ (.unbindVirtual 1 0), .unfailing)])
    ∃ x, d.clients 0 = some x ∧
      ((d.entered x).ioctl .unfailing ⟨24, 8, 24⟩ (.bindVirtual 1 0 0x40000000)).1 = .ok .none := by
  generalize hcalls : bindOnce ++ _ = calls
  intro d
  obtain ⟨x, hx, hrenders, hv, hfree, hreach, hquiet⟩ := unbound_bindOnce hcalls (d := d) rfl
  have hasked : (askedOver 0 (start Config.render (fun _ => 0) []) calls ++
      PageTables.rangeTables 0x40000000 (8192 / 4096)).dedup.length + 4 ≤
        PageTables.kMaxTables := by
    subst hcalls
    decide +kernel
  exact ⟨x, hx, (exec_bindVirtual_served Config.render (fun _ => 0) [] _ hx rfl hrenders hv rfl
    (.inl rfl) (by decide) (by decide) (by decide) (hfree _) hreach Prod.mk.eta.symm
    (hquiet _ (List.mem_cons_of_mem _ (List.mem_cons_self ..)))).2 hasked⟩

theorem asked_nil {c' : Nat} {header : Header} {request : Request}
    (h : ∀ s : Session, s.asked request = []) : asked c d (.ioctl c' header request) = [] := by
  rw [asked]
  split
  · simp only [h]
    cases d.clients c <;> rfl
  · rfl

theorem askedOver_append (c : Nat) (d : Device) (calls calls' : List (Call × Oracle)) :
    askedOver c d (calls ++ calls') =
      askedOver c d calls ++ askedOver c (Run.exec step d calls) calls' := by
  induction calls generalizing d with
  | nil => rfl
  | cons a calls ih =>
    rw [List.cons_append, askedOver, ih, askedOver, List.append_assoc]
    rfl

theorem roams_enter {a : Nat} (H : (d.session x).Roams a) : (d.entered x).Roams a := by
  have J : Session.Idle (d.session x) (d.entered x) := ⟨rfl, rfl, idle_enter d.mem⟩
  exact ⟨H.renders, J.held.trans H.held, H.faults, H.tables⟩

/-- Where a buffer of two pages is in the last page of one part of 512 GiB and the first of the
next, so that it needs six tables. -/
def place (k : Nat) : Nat := (2 * k + 1) * 2 ^ 39 - 4096

def bindAt (k : Nat) : Call × Oracle :=
  (.ioctl 0 ⟨24, kABIVersion, 24⟩ (.bindVirtual 1 0 (place k)), .unfailing)

def unbind : Call × Oracle := (.ioctl 0 ⟨16, kABIVersion, 16⟩ (.unbindVirtual 1 0), .unfailing)

/-- A client makes a buffer of two pages, and binds and unbinds it at one place after the other. -/
def wander : Nat → List (Call × Oracle)
  | 0 => [(.open, .unfailing),
    (.ioctl 0 ⟨32, kABIVersion, 32⟩ (.createBuffer 8192 0 0), .unfailing), unbind]
  | n + 1 => wander n ++ [bindAt n, unbind]

/-- The device that it leaves behind. -/
abbrev wandered (n : Nat) : Device := Run.exec step (start Config.render (fun _ => 0) []) (wander n)

set_option maxRecDepth 10000 in
theorem wandered_zero :
    ∃ x, (wandered 0).clients 0 = some x ∧ ((wandered 0).session x).Roams 0 := by
  have h : ((wandered 0).clients 0).any (fun x => x.nativeRender && !x.native.any (·.faulted) &&
      (((wandered 0).session x).held 1).map (fun v => (v.size, v.address, v.bound)) ==
        some (8192, 0, false) &&
      (List.range kMaxBuffers).all (fun i => (x.buffers i).isNone || x.handles i == 1) &&
      (wandered 0).mem.os.faults == 0 && ((wandered 0).mem.tables (.vm x.id)).any fun pt =>
        (wandered 0).mem.os.live.all fun p => decide (p < (256 + pt.tables.length) * 4096)) =
      true := by
    decide +kernel
  obtain ⟨x, hx, h⟩ := (Option.any_eq_true _ _).mp h
  generalize hd : wandered 0 = d at hx h
  simp only [Bool.and_eq_true, Bool.not_eq_true', beq_iff_eq, Option.map_eq_some_iff, Prod.mk.injEq,
    List.all_eq_true, List.mem_range, Bool.or_eq_true, Option.isNone_iff_eq_none,
    Option.any_eq_true, decide_eq_true_eq] at h
  obtain ⟨⟨⟨⟨⟨hrender, hfaulted⟩, ⟨size, address, bound⟩, hv, rfl, rfl, rfl⟩, hslots⟩, hfaults⟩,
    pt, hpt, hlive⟩ := h
  obtain ⟨g, I⟩ := exec_inv Config.render (fun _ => 0) [] (wander 0)
  rw [show Run.exec step (start Config.render (fun _ => 0) []) (wander 0) = d from hd] at I
  obtain ⟨-, -, S⟩ := I.client hx
  refine ⟨x, hx, ⟨hrender, hfaulted⟩, funext fun k => ?_, hfaults, pt, hpt, hlive⟩
  by_cases hk : k = 1
  · rw [hk, hv, Function.update_self]
  · rw [Function.update_of_ne hk]
    refine Session.held_none fun i o ho heq => hk ?_
    rcases hslots i (S.client.holding.slot ho).1 with hnone | hone
    · cases hnone.symm.trans ho
    · exact heq.symm.trans hone

theorem wander_inv (n : Nat) : ∃ g, (wandered n).Inv g :=
  exec_inv Config.render (fun _ => 0) [] (wander n)

/-- Where it has been bound when it is bound at the next place. -/
theorem roams_bindAt {n : Nat} {s : Session} (hx : (wandered n).clients 0 = some x)
    (H : ((wandered n).session x).Roams 0)
    (h : ((wandered n).entered x).ioctl .unfailing ⟨24, kABIVersion, 24⟩
      (.bindVirtual 1 0 (place n)) = (.ok .none, s)) :
    (step (bindAt n) (wandered n)).clients 0 = some s.client ∧
      ((step (bindAt n) (wandered n)).session s.client).Roams (place n) := by
  obtain ⟨g, I⟩ := wander_inv n
  obtain ⟨hclient, hsession⟩ := step_ioctl hx h
  exact ⟨hclient, hsession.symm ▸ ((roams_enter H).bind (I.entered hx) h).2 rfl⟩

theorem visited_bindAt {n : Nat} (hx : (step (bindAt n) (wandered n)).clients 0 = some x)
    (H : ((step (bindAt n) (wandered n)).session x).Roams (place n))
    (calls : List (Call × Oracle)) {q : PageTables.Path}
    (hq : q ∈ PageTables.rangeTables (place n) 2) :
    Visited Config.render (fun _ => 0) [] (wander n ++ [bindAt n] ++ calls) 0 q := by
  refine ⟨wander n ++ [bindAt n], calls, rfl, 1, ⟨8192, place n, false⟩, ?_, ?_, ?_⟩
  · rw [Run.exec_append]
    change (step (bindAt n) (wandered n)).held 0 1 = _
    rw [held, hx, Option.bind_some, H.held_one]
  · change place n ≠ 0
    unfold place
    omega
  · change q ∈ PageTables.rangeTables (place n) (8192 / 4096)
    rwa [show 8192 / 4096 = 2 from rfl]

/-- As long as there is room the next place is bound. -/
theorem bindAt_ok {n : Nat} (hx : (wandered n).clients 0 = some x)
    (H : ((wandered n).session x).Roams 0)
    (hasked : (askedOver 0 (start Config.render (fun _ => 0) []) (wander n)).length ≤ 6 * n)
    (hn : n < 84) : ∃ s, ((wandered n).entered x).ioctl .unfailing ⟨24, kABIVersion, 24⟩
      (.bindVirtual 1 0 (place n)) = (.ok .none, s) := by
  obtain ⟨g, I⟩ := wander_inv n
  have S := I.entered hx
  have H := roams_enter H
  generalize hr : ((wandered n).entered x).ioctl .unfailing ⟨24, kABIVersion, 24⟩
    (.bindVirtual 1 0 (place n)) = res
  obtain ⟨r, s⟩ := res
  have hmain := Session.ioctl_bindVirtual_iff S H.renders H.held_one rfl (.inl rfl)
    (by unfold place; omega) (by unfold place; omega)
    (by unfold place kVirtualAddressLimit; dsimp only; omega) H.free
    ((H.bind S hr).1.trans H.faults.symm) hr
  have hid : ((wandered n).entered x).client.id = 0 := (I.client hx).2.1
  rw [hid] at hmain
  refine ⟨s, Prod.ext (hmain.1.mpr (.inr ⟨?_, H.inReach S _⟩)) rfl⟩
  refine room_of_asked hx rfl H.held_one ?_
  have hdedup := (List.dedup_sublist (askedOver 0 (start Config.render (fun _ => 0) [])
    (wander n) ++ PageTables.rangeTables (place n) (8192 / 4096))).length_le
  have hlen := PageTables.length_rangeTables (place n) (8192 / 4096)
  rw [List.length_append] at hdedup
  unfold PageTables.kMaxTables
  dsimp only
  omega

theorem wandered_succ (n : Nat) :
    wandered (n + 1) = step unbind (step (bindAt n) (wandered n)) := by
  rw [wandered, wander, Run.exec_append, Run.exec_cons, Run.exec_cons, Run.exec_nil]

/-- And it is bound nowhere when it has been unbound there again. -/
theorem roams_unbind {n : Nat} (hx : (step (bindAt n) (wandered n)).clients 0 = some x)
    (H : ((step (bindAt n) (wandered n)).session x).Roams (place n)) :
    ∃ y, (wandered (n + 1)).clients 0 = some y ∧ ((wandered (n + 1)).session y).Roams 0 := by
  obtain ⟨g, I⟩ := wander_inv n
  obtain ⟨⟨g', I'⟩, -⟩ := step_inv (bindAt n) I
  rw [wandered_succ]
  generalize step (bindAt n) (wandered n) = d at hx H I' ⊢
  generalize hu : (d.entered x).ioctl .unfailing ⟨16, kABIVersion, 16⟩ (.unbindVirtual 1 0) = res
  obtain ⟨r, s⟩ := res
  obtain ⟨hclient, hsession⟩ := step_ioctl hx hu
  exact ⟨s.client, hclient, hsession.symm ▸ (roams_enter H).unbind (I'.entered hx) hu⟩

theorem asked_round {n : Nat} (hx : (wandered n).clients 0 = some x)
    (H : ((wandered n).session x).Roams 0) :
    (askedOver 0 (wandered n) [bindAt n, unbind]).length ≤ 6 := by
  generalize wandered n = d at hx H
  rw [askedOver, askedOver, askedOver, bindAt, asked, if_pos rfl, hx, Option.elim_some,
    Session.asked, (roams_enter H).held_one, Option.elim_some, unbind, asked_nil fun _ => rfl,
    List.nil_append, List.append_nil]
  dsimp only
  rw [show 8192 / 4096 = 2 by decide]
  exact PageTables.length_rangeTables (place n) 2

/-- It has been bound at every place so far, and there is nothing that it still is bound at. -/
theorem wandered_roams {n : Nat} (hn : n ≤ 84) : ∃ x, (wandered n).clients 0 = some x ∧
    ((wandered n).session x).Roams 0 ∧
    (askedOver 0 (start Config.render (fun _ => 0) []) (wander n)).length ≤ 6 * n ∧
    ∀ k < n, ∀ q ∈ PageTables.rangeTables (place k) 2,
      Visited Config.render (fun _ => 0) [] (wander n) 0 q := by
  induction n with
  | zero =>
    obtain ⟨x, hx, H⟩ := wandered_zero
    refine ⟨x, hx, H, ?_, fun k hk => absurd hk (Nat.not_lt_zero k)⟩
    rw [wander, askedOver, askedOver, unbind, askedOver, asked_nil fun _ => rfl,
      asked_nil fun _ => rfl]
    exact Nat.le_refl 0
  | succ n ih =>
    obtain ⟨x, hx, H, hasked, hvisited⟩ := ih (Nat.le_of_succ_le hn)
    obtain ⟨s, hs⟩ := bindAt_ok hx H hasked hn
    obtain ⟨hx₁, H₁⟩ := roams_bindAt hx H hs
    obtain ⟨y, hy, Hy⟩ := roams_unbind hx₁ H₁
    refine ⟨y, hy, Hy, ?_, fun k hk q hq => ?_⟩
    · rw [wander, askedOver_append, List.length_append]
      have hround := asked_round hx H
      rw [wandered] at hround
      omega
    · rcases Nat.lt_succ_iff_lt_or_eq.mp hk with hk | rfl
      · obtain ⟨calls₁, calls₂, heq, hv⟩ := hvisited k hk q hq
        exact ⟨calls₁, calls₂ ++ [bindAt n, unbind],
          by rw [wander, heq, List.append_assoc], hv⟩
      · have hv := visited_bindAt hx₁ H₁ [unbind] hq
        rwa [List.append_assoc] at hv

/-- Once it is bound at the next place, too, the pool has the tables of all places so far. -/
theorem room_of_bindAt {n : Nat} {s : Session} (hx : (wandered n).clients 0 = some x)
    (H : ((wandered n).session x).Roams 0)
    (hvisited : ∀ k < n, ∀ q ∈ PageTables.rangeTables (place k) 2,
      Visited Config.render (fun _ => 0) [] (wander n) 0 q)
    (hr : ((wandered n).entered x).ioctl .unfailing ⟨24, kABIVersion, 24⟩
      (.bindVirtual 1 0 (place n)) = (.ok .none, s))
    (hnodup : ((List.range (n + 1)).flatMap fun k =>
      PageTables.rangeTables (place k) 2).Nodup) :
    ((List.range (n + 1)).flatMap fun k => PageTables.rangeTables (place k) 2).length + 4 ≤
      PageTables.kMaxTables := by
  obtain ⟨g, I⟩ := wander_inv n
  obtain ⟨hx₁, H₁⟩ := roams_bindAt hx H hr
  obtain ⟨⟨g', I'⟩, -⟩ := step_inv (bindAt n) I
  obtain ⟨pt, hpt, -⟩ := H₁.tables
  have hid₁ : s.client.id = 0 := (I'.client hx₁).2.1
  have hexec : step (bindAt n) (wandered n) =
      Run.exec step (start Config.render (fun _ => 0) []) (wander n ++ [bindAt n]) := by
    rw [Run.exec_append, Run.exec_cons, Run.exec_nil]
  obtain ⟨-, -, nodes, R⟩ := I'.mem.tables hpt
  refine R.length_le hnodup fun q hmem => ?_
  obtain ⟨k, hk, hq⟩ := List.mem_flatMap.mp hmem
  have hv : Visited Config.render (fun _ => 0) [] (wander n ++ [bindAt n]) 0 q := by
    rcases Nat.lt_succ_iff_lt_or_eq.mp (List.mem_range.mp hk) with hk | rfl
    · obtain ⟨calls₁, calls₂, heq, hv⟩ := hvisited k hk q hq
      exact ⟨calls₁, calls₂ ++ [bindAt n], by rw [heq, List.append_assoc], hv⟩
    · have hv := visited_bindAt hx₁ H₁ [] hq
      rwa [List.append_nil] at hv
  obtain ⟨h0, h4, pt', hpt', hhas⟩ := hv.hasTable (hexec ▸ hx₁)
  rw [← hexec] at hpt'
  obtain rfl := Option.some.inj (hpt.symm.trans (hid₁ ▸ hpt'))
  exact ⟨h0, h4, hhas⟩

/-- The tables of the first 85 places: they are all different, and too many. -/
theorem places_nodup :
    ((List.range 85).flatMap fun k => PageTables.rangeTables (place k) 2).Nodup := by
  have htop : (List.range 85).all (fun k => (PageTables.rangeTables (place k) 2).all fun q =>
      q.head?.any fun i => i.val / 2 == k) = true := by
    decide +kernel
  have htop (k : Nat) (hk : k ∈ List.range 85) (q : PageTables.Path)
      (hq : q ∈ PageTables.rangeTables (place k) 2) : ∃ i, q.head? = some i ∧ i.val / 2 = k := by
    have h := List.all_eq_true.mp (List.all_eq_true.mp htop k hk) q hq
    obtain ⟨i, hi, h⟩ := (Option.any_eq_true _ _).mp h
    exact ⟨i, hi, beq_iff_eq.mp h⟩
  refine List.nodup_flatMap.mpr ⟨fun k _ => List.nodup_dedup _, ?_⟩
  refine List.nodup_range.imp_of_mem fun {k j} hk hj hne q hq hq' => hne ?_
  obtain ⟨i, hi, rfl⟩ := htop k hk q hq
  obtain ⟨i', hi', rfl⟩ := htop j hj q hq'
  rw [Option.some.inj (hi.symm.trans hi')]

theorem length_places :
    ((List.range 85).flatMap fun k => PageTables.rangeTables (place k) 2).length = 510 := by
  decide +kernel

/-- The client is refused at the next place, though it has nothing bound and no call has failed. -/
theorem not_served_of_wander :
    let d := wandered 84
    ∃ x v s', d.clients 0 = some x ∧ x.Renders ∧ (d.entered x).held 1 = some v ∧
      v.bound = false ∧ v.address = 0 ∧ place 84 ≠ 0 ∧ place 84 % 4096 = 0 ∧
      place 84 + v.size ≤ kVirtualAddressLimit ∧
      Placement.Free (Held.sizes (d.entered x).held) (Held.addresses (d.entered x).held)
        (1, place 84) ∧
      (d.entered x).mem.InReach (.buffer 0 1) ∧ (d.entered x).mem.os.faults = 0 ∧
      (d.entered x).ioctl .unfailing ⟨24, kABIVersion, 24⟩ (.bindVirtual 1 0 (place 84)) =
        (.error .noMemory, s') ∧ s'.mem.os.faults = 0 := by
  obtain ⟨x, hx, H, -, hvisited⟩ := wandered_roams (Nat.le_refl 84)
  obtain ⟨g, I⟩ := wander_inv 84
  have S := I.entered hx
  have H' := roams_enter H
  have hid : ((wandered 84).entered x).client.id = 0 := (I.client hx).2.1
  generalize hr : ((wandered 84).entered x).ioctl .unfailing ⟨24, kABIVersion, 24⟩
    (.bindVirtual 1 0 (place 84)) = res
  obtain ⟨r, s⟩ := res
  have hne : place 84 ≠ 0 := by
    unfold place
    omega
  have haligned : place 84 % 4096 = 0 := by
    unfold place
    omega
  have hfit : place 84 + 8192 ≤ kVirtualAddressLimit := by
    unfold place kVirtualAddressLimit
    omega
  have hmain := Session.ioctl_bindVirtual_iff S H'.renders H'.held_one rfl (.inl rfl) hne haligned
    hfit H'.free ((H'.bind S hr).1.trans H'.faults.symm) hr
  rw [hid] at hmain
  refine ⟨x, ⟨8192, 0, false⟩, s, hx, H.renders, H'.held_one, rfl, rfl, hne, haligned, hfit,
    H'.free, H'.inReach S _, H'.faults, ?_, (H'.bind S hr).1⟩
  rcases hmain.2 (H'.inReach S _) with rfl | rfl
  · -- all the places would have been bound, which is too much for the pool
    have hle := room_of_bindAt hx H hvisited hr places_nodup
    rw [length_places] at hle
    exact absurd hle (by decide)
  · exact hr

end Device
end IntelGfx
