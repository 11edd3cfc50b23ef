import IntelGfx.Verify.PageTables
import IntelGfx.Theory.Run

/-!
# Page tables refine a flat map

A `FlatMap` is a set of page tables beside the map it stands for, from page numbers to physical
pages. The map is told no more of a request than how many pages of it were completed.
-/

namespace IntelGfx

/-- Page tables, the system they live in and the flat map they stand for. -/
structure FlatMap (α : Type) where
  tables : PageTables α
  os : Os α
  flat : Nat → Nat

namespace FlatMap
variable {α : Type}

/-- The requests to the tables, and the areas that others create and delete. -/
inductive Call (α : Type) where
  | map (area address : Nat)
  | mapPhysical (address physical size : Nat)
  | unmap (address size : Nat)
  | createArea (owner : α) (contiguous : Bool) (count : Nat)
  | deleteArea (area : Nat)

/-- `count` slots from `slot` on are given the pages `page 0`, `page 1`, … -/
def write (flat : Nat → Nat) (slot count : Nat) (page : Nat → Nat) : Nat → Nat :=
  fun s => if slot ≤ s ∧ s < slot + count then page (s - slot) else flat s

variable [DecidableEq α]

def step (call : Call α × Oracle) (s : FlatMap α) : FlatMap α :=
  let os := s.os.enter
  match call with
  | (.map area address, ω) =>
    match s.tables.map ω os area address with
    | (_, done, tables, os) =>
      let page k := ((s.os.find area).bind (·.pages[k]?)).getD 0
      ⟨tables, os, write s.flat (address / 4096) done page⟩
  | (.mapPhysical address physical size, ω) =>
    match s.tables.mapPhysical ω os address physical size with
    | (_, done, tables, os) =>
      ⟨tables, os, write s.flat (address / 4096) done fun k => (physical + k * 4096) % 2 ^ 64⟩
  | (.unmap address size, ω) =>
    match s.tables.unmap ω os address size with
    | (.error _, tables) => ⟨tables, os, s.flat⟩
    | (.ok (), tables) =>
      ⟨tables, os, write s.flat (address / 4096) ((size + 4095) / 4096) fun _ => tables.scratchPage⟩
  | (.createArea owner contiguous count, ω) =>
    if owner = s.tables.owner then s else
    { s with os := (os.createArea ω owner contiguous count).2 }
  | (.deleteArea area, _) =>
    if (s.os.find area).any (·.owner = s.tables.owner) then s else
    { s with os := os.deleteArea area }

/-- The tables have the shape they should have, and translate as the map says. -/
structure Inv (pt : PageTables α) (s : FlatMap α) : Prop where
  os : s.os.WF
  rep : ∃ nodes, s.tables.Rep s.os nodes
  fixed : s.tables.fixed = pt.fixed
  flat : ∀ a, a < 2 ^ 48 → s.tables.translate a = s.flat (a / 4096)

omit [DecidableEq α] in
theorem overlay_write {f flat page : Nat → Nat} {address done a : Nat}
    (hf : f a = flat (a / 4096)) (ha : address % 4096 ≠ 0 → done = 0) :
    PageTables.overlay f address done page a =
      write flat (address / 4096) done page (a / 4096) := by
  unfold PageTables.overlay write
  by_cases h : address % 4096 = 0
  · have hiff : (address ≤ a ∧ a < address + done * 4096) ↔
        address / 4096 ≤ a / 4096 ∧ a / 4096 < address / 4096 + done := by lia
    rw [hf]
    simp only [hiff]
    split
    · next hr => rw [show (a - address) / 4096 = a / 4096 - address / 4096 by lia]
    · rfl
  · rw [ha h, if_neg (by omega), if_neg (by omega), hf]

namespace Inv
variable {pt : PageTables α} {s : FlatMap α}

omit [DecidableEq α] in
theorem mapped {bad : Prop} {nodes nodes' : List (PageTables.Path × Table)} {page : Nat → Nat}
    {address count done : Nat} {r : Except Error Unit} {tables : PageTables α} {os os' : Os α}
    (H : Inv pt s) (hbad : address % 4096 ≠ 0 → bad)
    (M : PageTables.Mapped bad s.tables os nodes page address count r done tables os' nodes') :
    Inv pt ⟨tables, os', write s.flat (address / 4096) done page⟩ where
  os := M.grown.wf
  rep := ⟨nodes', M.grown.rep⟩
  fixed := M.grown.fixed.trans H.fixed
  flat := fun a ha => (M.translate a ha).trans (overlay_write (H.flat a ha) fun h =>
    M.idle (hbad h))

end Inv

theorem write_zero {flat page : Nat → Nat} {slot : Nat} : write flat slot 0 page = flat := by
  funext s
  exact if_neg (by omega)

theorem step_inv {pt : PageTables α} {s : FlatMap α} (call : Call α × Oracle) (H : Inv pt s) :
    Inv pt (s.step call) := by
  have hS := s.os.same_enter
  have hos : s.os.enter.WF := hS.wf H.os
  obtain ⟨nodes, R⟩ := H.rep
  have R : s.tables.Rep s.os.enter nodes := R.keeps id
  obtain ⟨call, ω⟩ := call
  cases call with
  | map area address =>
    simp only [step]
    cases har : s.os.find area with
    | none =>
      obtain ⟨e, he⟩ := PageTables.map_not_found ω s.tables address
        (show s.os.enter.find area = none from har)
      rw [he, write_zero]
      exact ⟨hos, ⟨nodes, R⟩, H.fixed, H.flat⟩
    | some ar =>
      generalize hm : s.tables.map ω s.os.enter area address = res
      obtain ⟨r, done, tables, os'⟩ := res
      obtain ⟨nodes', M⟩ := PageTables.map_spec R hos har hm
      exact H.mapped .inl M
  | mapPhysical address physical size =>
    simp only [step]
    generalize hm : s.tables.mapPhysical ω s.os.enter address physical size = res
    obtain ⟨r, done, tables, os'⟩ := res
    obtain ⟨nodes', M⟩ := PageTables.mapPhysical_spec R hos hm
    exact H.mapped .inl M
  | unmap address size =>
    simp only [step]
    split
    · next e tables hu =>
      obtain ⟨R', hfix, -, htr⟩ := PageTables.unmap_spec R hos hu
      refine ⟨hos, ⟨nodes, R'⟩, hfix.trans H.fixed, fun a ha => ?_⟩
      rw [htr a ha, if_neg (by simp), H.flat a ha]
    · next tables hu =>
      obtain ⟨R', hfix, hok, htr⟩ := PageTables.unmap_spec R hos hu
      obtain ⟨haddr, hlt, hsize⟩ := hok.mp rfl
      have hscr : tables.scratchPage = s.tables.scratchPage :=
        congrArg (·.2.2.2.1) hfix
      have hround : pageRound size = (size + 4095) / 4096 * 4096 := by
        unfold pageRound
        omega
      refine ⟨hos, ⟨nodes, R'⟩, hfix.trans H.fixed, fun a ha => ?_⟩
      show _ = write s.flat (address / 4096) ((size + 4095) / 4096) (fun _ => tables.scratchPage) _
      rw [htr a ha, ← overlay_write (H.flat a ha) fun h => absurd haddr h, PageTables.overlay,
        hround, hscr]
      simp
  | createArea owner contiguous count =>
    simp only [step]
    split
    · exact H
    next hne =>
    generalize hc : s.os.enter.createArea ω owner contiguous count = res
    obtain ⟨r, os'⟩ := res
    cases r with
    | error e =>
      have S := (Os.createArea_error hc).1
      exact ⟨S.wf hos, ⟨nodes, R.keeps S.find.trans⟩, H.fixed, H.flat⟩
    | ok a =>
      exact ⟨hos.createArea hc, ⟨nodes, R.keeps (Os.keeps_createArea hos hc)⟩, H.fixed, H.flat⟩
  | deleteArea area =>
    simp only [step]
    split
    · exact H
    next hown =>
    have C : Os.Changes (· ≠ s.tables.owner) s.os.enter (s.os.enter.deleteArea area) :=
      Os.changes_deleteArea fun ar har heq => hown (by
        rw [show s.os.find area = some ar from har]
        simpa using heq)
    exact ⟨hos.deleteArea, ⟨nodes, R.changes C fun h => h rfl⟩, H.fixed, H.flat⟩

/-- The system right after a successful `Init`. -/
def start (pt : PageTables α) (os : Os α) : FlatMap α := ⟨pt, os, fun _ => pt.scratchPage⟩

theorem run_inv {ω : Oracle} {os os' : Os α} {owner : α} {pt : PageTables α} (hos : os.WF)
    (h : (PageTables.new owner).init ω os = (.ok (), pt, os')) (calls : List (Call α × Oracle)) :
    Inv pt (Run.exec step (start pt os') calls) := by
  obtain ⟨R, hwf, -, -, htr⟩ := PageTables.init_ok hos h
  exact Run.invariant_of_step (fun _ call H => step_inv call H) calls
    ⟨hwf, ⟨_, R⟩, rfl, fun a _ => htr a⟩

/-- After any requests, whatever fails in them, the hardware's walk is the flat map; the scratch
tables are as `Init` has left them, every private table hangs below one entry, and a walk that
fails changes no translation. The next request to map that succeeds has completed every page of its
range, and one to unmap succeeds just if its range is one of addresses there are. -/
theorem run_refines {ω : Oracle} {os os' : Os α} {owner : α} {pt : PageTables α} (hos : os.WF)
    (h : (PageTables.new owner).init ω os = (.ok (), pt, os')) (calls : List (Call α × Oracle)) :
    let s := Run.exec step (start pt os') calls
    let walk := SharedTrie.follow s.tables.next s.tables.root
    (∀ a, a < 2 ^ 48 → s.tables.translate a = s.flat (a / 4096)) ∧
    (s.tables.tables.take 3 = pt.tables.take 3 ∧
      ∀ t ∈ pt.tables.take 3, s.tables.mem t.physical = pt.mem t.physical) ∧
    (∀ p q : PageTables.Path, p.length < 4 → q.length < 4 →
      (∀ t ∈ pt.tables.take 3, walk p ≠ t.physical) → walk p = walk q → p = q) ∧
    (∀ ω address create e pt' os'', s.tables.walk ω s.os address create = (.error e, pt', os'') →
      ∀ a, pt'.translate a = s.tables.translate a) ∧
    (∀ ω area address done pt' os'',
      s.tables.map ω s.os.enter area address = (.ok (), done, pt', os'') →
      ∃ ar, s.os.find area = some ar ∧ done = ar.pages.length) ∧
    (∀ ω address physical size done pt' os'',
      s.tables.mapPhysical ω s.os.enter address physical size = (.ok (), done, pt', os'') →
      done * 4096 = size) ∧
    ∀ ω address size, (s.tables.unmap ω s.os.enter address size).1 = .ok () ↔
      address % 4096 = 0 ∧ address < 2 ^ 48 ∧ size ≤ 2 ^ 48 - address := by
  intro s walk
  have H : Inv pt s := run_inv hos h calls
  obtain ⟨nodes, R⟩ := H.rep
  have hos' : s.os.enter.WF := s.os.same_enter.wf H.os
  have R' : s.tables.Rep s.os.enter nodes := R.keeps id
  obtain ⟨R0, -⟩ := PageTables.init_ok hos h
  have htake : s.tables.tables.take 3 = pt.tables.take 3 := congrArg (·.2.2.2.2) H.fixed
  refine ⟨H.flat, ⟨htake, fun t ht => ?_⟩, fun p q hpl hql hns heq => ?_, ?_,
    fun ω area address done pt' os'' hm => ?_,
    fun ω address physical size done pt' os'' hm => ?_, fun ω address size => ?_⟩
  · obtain ⟨k, h0, h4, hk⟩ := R0.scratch_of_mem ht
    funext i
    rw [hk, R0.rows k h0 h4, ← PageTables.scratch_of_fixed H.fixed h0, R.rows k h0 h4,
      PageTables.scratch_of_fixed H.fixed (Nat.succ_pos k)]
  · have hownp := R.own_of_not_scratch hpl (htake ▸ hns)
    have hownq := R.own_of_not_scratch hql fun t ht hqt =>
      hns t (htake ▸ ht) (heq.trans hqt)
    exact R.trie.inj hownp (hownq.trans (congrArg some heq.symm))
  · intro ω address create e pt' os'' hw
    cases create with
    | true =>
      obtain ⟨-, -, htr, -⟩ := PageTables.walk_spec R H.os hw
      exact htr
    | false =>
      have hfind := R.walk_find ω address
      split at hfind
      · simp [hfind] at hw
      · obtain ⟨e', he'⟩ := hfind
        simp only [he', Prod.mk.injEq] at hw
        obtain ⟨-, rfl, -⟩ := hw
        exact fun _ => rfl
  · cases har : s.os.find area with
    | none =>
      obtain ⟨e, he⟩ := PageTables.map_not_found ω s.tables address
        (show s.os.enter.find area = none from har)
      rw [he] at hm
      exact nomatch (Prod.mk.inj hm).1
    | some ar =>
      obtain ⟨_, M⟩ := PageTables.map_spec R' hos' har hm
      exact ⟨ar, rfl, (M.ok rfl).1⟩
  · obtain ⟨_, M⟩ := PageTables.mapPhysical_spec R' hos' hm
    obtain ⟨hdone, hgood⟩ := M.ok rfl
    omega
  · exact (PageTables.unmap_spec R' hos' rfl).2.2.1

/-- Page tables set up on a system that never fails. -/
def newTables : Except Error Unit × PageTables Nat × Os Nat :=
    (PageTables.new 0).init .unfailing .empty

theorem newTables_init : newTables = (.ok (), newTables.2) := Prod.ext (by decide +kernel) rfl

theorem run_refines_newTables :
    let s := Run.exec step (start newTables.2.1 newTables.2.2)
      [(.createArea 1 false 2, .unfailing), (.map 5 0x40000000, .unfailing),
        (.unmap 0x40000000 0x1000, .unfailing)]
    s.tables.translate 0x40001000 ≠ newTables.2.1.scratchPage ∧
    ∀ a, a < 2 ^ 48 → s.tables.translate a = s.flat (a / 4096) :=
  ⟨by decide +kernel, (run_refines .empty newTables_init _).1⟩

end FlatMap
end IntelGfx
