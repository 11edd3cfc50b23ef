import IntelGfx.Kernel.RenderEngine
import IntelGfx.Verify.Memory

/-!
# What the operations of a context do

A context owns its four buffer objects and, unless it is a native one, its page tables. `Init`
makes them and the destructor deletes them; everything else a context does concerns the page tables
it runs against.
-/

namespace IntelGfx
open Memory

/-- The buffer objects and the page tables of a context. -/
def ContextId.Owns (x : ContextId) : Owner → Prop
  | .part y _ => y = x
  | .ownTables y => y = x
  | _ => False

theorem ContextId.owns_part (x : ContextId) (p : Part) : x.Owns (.part x p) := rfl
theorem ContextId.owns_tables (x : ContextId) : x.Owns (.ownTables x) := rfl

/-- The client a context belongs to. -/
def ContextId.client : ContextId → Option Nat
  | .master _ => none
  | .legacy c _ | .native c _ => some c

/-- The client something was made for. -/
def Owner.client : Owner → Option Nat
  | .gtt => none
  | .part x _ | .ownTables x => x.client
  | .vm c | .buffer c _ => some c

theorem ContextId.Owns.client {x : ContextId} {o : Owner} (h : x.Owns o) : o.client = x.client := by
  cases o <;> simp_all [Owns, Owner.client]

namespace RenderEngine
variable {ω : Oracle} {g : GlobalGTT} {m m' : Memory} {e e' : RenderEngine} {r : Except Error Unit}
  {id : ContextId}

/-- The buffer objects of a context are all there. -/
def Whole (m : Memory) (id : ContextId) : Prop := ∀ p, ∃ bo, m.objects (.part id p) = some bo

theorem Whole.frame {K : Owner → Prop} {x : ContextId} (H : Whole m x) (M : Moves g K m m')
    (hK : ∀ p, ¬ K (.part x p)) : Whole m' x := by
  intro p
  obtain ⟨bo, hbo⟩ := H p
  exact ⟨bo, (M.objects (hK p)).trans hbo⟩

theorem initObjects_spec {l : List (Part × Nat)} (H : Inv g m) (hs : ∀ x ∈ l, x.2 % 4096 = 0)
    (hl : (l.map Prod.fst).Nodup) (hfree : ∀ x ∈ l, m.objects (.part id x.1) = none)
    (h : initObjects ω id l m = (r, m')) :
    Moves g (fun o => ∃ x ∈ l, o = .part id x.1) m m' ∧ m'.tables = m.tables ∧
      (r = .ok () → ∀ x ∈ l, ∃ bo, m'.objects (.part id x.1) = some bo) := by
  induction l generalizing m with
  | nil =>
    cases h
    exact ⟨.rfl H, rfl, nofun⟩
  | cons x l ih =>
    have hK : ∀ o, o = Owner.part id x.1 → ∃ y ∈ x :: l, o = .part id y.1 :=
      fun o ho => ⟨x, List.mem_cons_self, ho⟩
    have hobject := Owner.isObject_part id x.1
    unfold initObjects at h
    split at h
    · next e m₁ h1 =>
      cases h
      obtain ⟨M, ht, -⟩ := newObject_spec H hobject (hfree x List.mem_cons_self)
        (hs x List.mem_cons_self) h1
      exact ⟨M.mono hK, ht, nofun⟩
    next m₁ h1 =>
    obtain ⟨M₁, ht₁, -⟩ := newObject_spec H hobject (hfree x List.mem_cons_self)
      (hs x List.mem_cons_self) h1
    split at h
    · next e m₂ h2 =>
      cases h
      obtain ⟨M₂, ht₂, -⟩ := bindObject_spec M₁.inv h2
      exact ⟨(M₁.trans M₂).mono hK, ht₂.trans ht₁, nofun⟩
    next m₂ h2 =>
    obtain ⟨M₂, ht₂, -, -, hobj₂⟩ := bindObject_spec M₁.inv h2
    have M := M₁.trans M₂
    split at h
    · cases h
      exact ⟨M.mono hK, ht₂.trans ht₁, nofun⟩
    rw [List.map_cons, List.nodup_cons] at hl
    have hne : ∀ y ∈ l, Owner.part id y.1 ≠ Owner.part id x.1 := by
      intro y hy heq
      exact hl.1 ((Owner.part.inj heq).2 ▸ List.mem_map_of_mem hy)
    obtain ⟨M₃, ht₃, hok⟩ := ih M₂.inv (fun y hy => hs y (List.mem_cons_of_mem _ hy)) hl.2
      (fun y hy => (M.objects (hne y hy)).trans (hfree y (List.mem_cons_of_mem _ hy))) h
    refine ⟨(M.mono hK).trans (M₃.mono fun o ⟨y, hy, ho⟩ => ⟨y, List.mem_cons_of_mem _ hy, ho⟩),
      ht₃.trans (ht₂.trans ht₁), fun hr y hy => ?_⟩
    rcases List.mem_cons.mp hy with rfl | hy
    · obtain ⟨bo, first, -, -, hobj, -⟩ := hobj₂ rfl
      have := M₃.objects fun ⟨z, hz, heq⟩ => hne z hz heq.symm
      rw [hobj, Function.update_self] at this
      exact ⟨_, this⟩
    · exact hok hr y hy

theorem wake_idle (h : wake ω m = (r, m')) : Idle m m' := by
  have h1 := poll_idle ω m
  unfold wake at h
  split at h
  · next m₁ hp =>
    cases h
    rwa [hp] at h1
  · next m₁ hp =>
    cases h
    rw [hp] at h1
    exact h1.trans (poll_idle ω m₁)

theorem initContext_idle (h : e.initContext ω m = (r, m')) : Idle m m' := by
  unfold initContext at h
  split at h
  · split at h
    · next hw =>
      cases h
      exact wake_idle hw
    · next hw =>
      cases h
      exact (wake_idle hw).trans (poll_idle ω _)
  · cases h
    exact .rfl

theorem bringUp_idle (ω : Oracle) (m : Memory) : Idle m (bringUp ω m) :=
  ((poll_idle ω _).trans (poll_idle ω _)).trans ((poll_idle ω _).trans (poll_idle ω _))

theorem waitFor_idle (h : waitFor ω m = (r, m')) : Idle m m' := by
  have h1 := poll_idle ω m
  unfold waitFor at h
  split at h <;>
  · next hp =>
    cases h
    rwa [hp] at h1

theorem waitIdle_idle (h : e.waitIdle ω m = (r, m')) : Idle m m' := by
  unfold waitIdle at h
  split at h
  · exact waitFor_idle h
  · cases h
    exact .rfl

theorem waitDone_idle (h : waitDone ω m = (r, m')) : Idle m m' := by
  unfold waitDone at h
  split at h
  · next h1 =>
    cases h
    exact waitFor_idle h1
  · next h1 => exact (waitFor_idle h1).trans (waitFor_idle h)

/-- `Init` makes what the context owns, and leaves an address space that is already there alone. -/
theorem init_spec (H : Inv g m) (hparts : ∀ p, m.objects (.part e.id p) = none)
    (hspace : e.addressSpace = .ownTables e.id ∧ m.tables e.addressSpace = none ∨
      ∃ pt, m.tables e.addressSpace = some pt)
    (h : e.init ω m = (r, e', m')) :
    Moves g e.id.Owns m m' ∧
      (∀ pt, m.tables e.addressSpace = some pt → m'.tables = m.tables) ∧
      (∀ s, r = .error s → e' = e) ∧
      (r = .ok () → e' = { e with ready := true } ∧ Whole m' e.id ∧
        ∃ pt, m'.tables e.addressSpace = some pt ∧
          (m.tables e.addressSpace = none → ∀ a, pt.translate a = pt.scratchPage)) := by
  unfold init at h
  split at h
  · cases h
    exact ⟨.rfl H, fun _ _ => rfl, fun _ _ => rfl, nofun⟩
  split at h
  · cases h
    exact ⟨.rfl H, fun _ _ => rfl, fun _ _ => rfl, nofun⟩
  have hK : ∀ o, (∃ x ∈ objects e.engine, o = Owner.part e.id x.1) → e.id.Owns o := by
    rintro _ ⟨x, -, rfl⟩
    rfl
  have hsizes : ∀ x ∈ objects e.engine, x.2 % 4096 = 0 := by cases e.engine <;> decide
  generalize h1 : initObjects ω e.id (objects e.engine) m = res at h
  obtain ⟨r₁, m₁⟩ := res
  obtain ⟨M₁, ht₁, hobj⟩ := initObjects_spec H hsizes (by cases e.engine <;> decide)
    (fun x _ => hparts x.1) h1
  cases r₁ with
  | error s =>
    cases h
    exact ⟨M₁.mono hK, fun _ _ => ht₁, fun _ _ => rfl, nofun⟩
  | ok u =>
  have hwhole : Whole m₁ e.id := by
    intro p
    have : ∃ size, (p, size) ∈ objects e.engine := by cases p <;> simp [objects]
    obtain ⟨size, hmem⟩ := this
    exact hobj rfl _ hmem
  dsimp only at h
  generalize hn : e.initAddressSpace ω m₁ = res at h
  obtain ⟨status, m₂⟩ := res
  -- the address space is there, or it is made now
  have hspace₂ : Moves g e.id.Owns m₁ m₂ ∧ m₂.objects = m₁.objects ∧
      (∀ pt, m.tables e.addressSpace = some pt → m₂.tables = m.tables) ∧
      (status = .ok () → ∃ pt, m₂.tables e.addressSpace = some pt ∧
          (m.tables e.addressSpace = none → ∀ a, pt.translate a = pt.scratchPage)) := by
    unfold initAddressSpace at hn
    rcases hspace with ⟨hown, hnone⟩ | ⟨pt, hpt⟩
    · rw [ht₁, hnone] at hn
      obtain ⟨M₂, hobj₂, -, -, hok⟩ := newTables_spec M₁.inv (hown ▸ trivial) (ht₁ ▸ hnone) hn
      refine ⟨M₂.mono ?_, hobj₂, fun pt hpt => by simp [hnone] at hpt, fun hs => ?_⟩
      · rintro _ rfl
        rw [hown]
        rfl
      · obtain ⟨pt, hpt, hblank⟩ := hok hs
        exact ⟨pt, by rw [hpt, Function.update_self], fun _ => hblank⟩
    · obtain ⟨-, -, nodes, R⟩ := H.tables hpt
      rw [ht₁, hpt] at hn
      simp only [Option.any_some, R.isValid H.os, if_true, Prod.mk.injEq] at hn
      obtain ⟨rfl, rfl⟩ := hn
      exact ⟨.rfl M₁.inv, rfl, fun _ _ => ht₁, fun _ =>
        ⟨pt, ht₁ ▸ hpt, fun h => by simp [hpt] at h⟩⟩
  obtain ⟨M₂, hobj₂, hkeep, hok⟩ := hspace₂
  have M := (M₁.mono hK).trans M₂
  -- from here on nothing is made any more
  suffices hidle : Idle m₂ m' ∧ (∀ s, r = .error s → e' = e) ∧
      (r = .ok () → status = .ok () ∧ e' = { e with ready := true }) by
    obtain ⟨I, herr, hrok⟩ := hidle
    refine ⟨M.trans (I.moves M₂.inv), fun pt hpt => I.tables.trans (hkeep pt hpt), herr,
      fun hr => ⟨(hrok hr).2, fun p => ?_, ?_⟩⟩
    · obtain ⟨bo, hbo⟩ := hwhole p
      exact ⟨bo, by rw [I.objects, hobj₂, hbo]⟩
    · obtain ⟨pt, hpt, hblank⟩ := hok (hrok hr).1
      exact ⟨pt, by rw [I.tables, hpt], hblank⟩
  cases status with
  | error s =>
    cases h
    exact ⟨.rfl, fun _ _ => rfl, nofun⟩
  | ok u =>
  dsimp only at h
  generalize hc : e.initContext ω m₂ = res at h
  obtain ⟨status, m₃⟩ := res
  have I₃ := initContext_idle hc
  cases status with
  | error s =>
    cases h
    exact ⟨I₃, fun _ _ => rfl, nofun⟩
  | ok u =>
  dsimp only at h
  split at h
  · cases h
    exact ⟨I₃, nofun, fun _ => ⟨rfl, rfl⟩⟩
  · split at h
    · next hw =>
      cases h
      exact ⟨I₃.trans (wake_idle hw), fun _ _ => rfl, nofun⟩
    · next hw =>
      cases h
      exact ⟨(I₃.trans (wake_idle hw)).trans ((bringUp_idle ω _).trans (poll_idle ω _)), nofun,
        fun _ => ⟨rfl, rfl⟩⟩

/-- The destructor deletes what the context owns. -/
theorem destroy_spec (H : Inv g m) (e : RenderEngine) :
    Moves g e.id.Owns m (e.destroy m) ∧ (∀ p, (e.destroy m).objects (.part e.id p) = none) ∧
      (e.destroy m).tables = Function.update m.tables (.ownTables e.id) none := by
  have hK : ∀ p o, o = Owner.part e.id p → e.id.Owns o := by
    rintro p _ rfl
    rfl
  obtain ⟨M₀, hobj₀, -, ht₀⟩ := deleteTables_spec H (.ownTables e.id)
  obtain ⟨M₁, ht₁, hobj₁⟩ := deleteObject_spec M₀.inv (.part e.id .ring)
  obtain ⟨M₂, ht₂, hobj₂⟩ := deleteObject_spec M₁.inv (.part e.id .context)
  obtain ⟨M₃, ht₃, hobj₃⟩ := deleteObject_spec M₂.inv (.part e.id .fencePage)
  obtain ⟨M₄, ht₄, hobj₄⟩ := deleteObject_spec M₃.inv (.part e.id .statusPage)
  refine ⟨(M₀.mono ?_).trans ((M₁.mono (hK _)).trans ((M₂.mono (hK _)).trans ((M₃.mono (hK _)).trans
    (M₄.mono (hK _))))), fun p => ?_, ht₄.trans (ht₃.trans (ht₂.trans (ht₁.trans ht₀)))⟩
  · rintro _ rfl
    rfl
  · rw [destroy, hobj₄, hobj₃, hobj₂, hobj₁]
    cases p <;> simp

/-! ## Page tables -/

/-- The ways in which a submission changes the context and its scheduler. -/
theorem submit_spec {masters masters' : Masters} {batchAddress batchLength : Nat}
    {s : Except Error Nat} (H : Inv g m)
    (h : e.submit ω masters m batchAddress batchLength = (s, e', masters', m')) :
    Moves g (· = e.addressSpace) m m' ∧ m'.objects = m.objects ∧ m'.gtt = m.gtt ∧
      Os.Same m.os m'.os ∧ (m'.tables = m.tables ∨ ∃ pt, m.tables e.addressSpace = some pt ∧
        m'.tables = Function.update m.tables e.addressSpace (some pt.flush)) ∧
      e' = { e with faulted := e'.faulted, nextSeqno := e'.nextSeqno } ∧
      (masters' = masters ∧ e'.faulted = e.faulted ∨
        e.ready = true ∧ e.faulted = false ∧ e.schedulerFaulted masters = false ∧
        e'.faulted = true ∧ (∃ x, s = .error x) ∧
        masters' = Function.update masters e.engine
          ((masters e.engine).map fault)) := by
  unfold submit at h
  split at h
  · cases h
    exact ⟨.rfl H, rfl, rfl, .rfl, .inl rfl, rfl, .inl ⟨rfl, rfl⟩⟩
  next hready =>
  split at h
  · cases h
    exact ⟨.rfl H, rfl, rfl, .rfl, .inl rfl, rfl, .inl ⟨rfl, rfl⟩⟩
  split at h
  · cases h
    exact ⟨.rfl H, rfl, rfl, .rfl, .inl rfl, rfl, .inl ⟨rfl, rfl⟩⟩
  next hfault =>
  split at h
  · cases h
    exact ⟨.rfl H, rfl, rfl, .rfl, .inl rfl, rfl, .inl ⟨rfl, rfl⟩⟩
  generalize h1 : e.waitIdle ω m = res at h
  obtain ⟨r₁, m₁⟩ := res
  have I₁ := waitIdle_idle h1
  cases r₁ with
  | error x =>
    cases h
    exact ⟨I₁.moves H, I₁.objects, I₁.gtt, I₁.os, .inl I₁.tables, rfl, .inl ⟨rfl, rfl⟩⟩
  | ok u =>
  dsimp only at h
  generalize h2 : wake ω m₁ = res at h
  obtain ⟨r₂, m₂⟩ := res
  have I₂ := I₁.trans (wake_idle h2)
  cases r₂ with
  | error x =>
    cases h
    exact ⟨I₂.moves H, I₂.objects, I₂.gtt, I₂.os, .inl I₂.tables, rfl, .inl ⟨rfl, rfl⟩⟩
  | ok u =>
  have M₂ : Moves g (· = e.addressSpace) m m₂ := I₂.moves H
  obtain ⟨M₃, hobj₃, hmach₃, ht₃⟩ := flush_spec M₂.inv e.addressSpace
  dsimp only at h
  generalize h4 : waitDone ω (m₂.flush e.addressSpace) = res at h
  obtain ⟨r₄, m₄⟩ := res
  have I₄ := (waitDone_idle h4).trans (poll_idle ω m₄)
  have hend : Moves g (· = e.addressSpace) m (m₄.poll ω).2 ∧ (m₄.poll ω).2.objects = m.objects ∧
      (m₄.poll ω).2.gtt = m.gtt ∧ Os.Same m.os (m₄.poll ω).2.os ∧
      ((m₄.poll ω).2.tables = m.tables ∨ ∃ pt, m.tables e.addressSpace = some pt ∧
        (m₄.poll ω).2.tables = Function.update m.tables e.addressSpace (some pt.flush)) := by
    have hgtt : (m₂.flush e.addressSpace).gtt = m₂.gtt := congrArg Machine.gtt hmach₃
    have hos : (m₂.flush e.addressSpace).os = m₂.os := congrArg Machine.os hmach₃
    refine ⟨(M₂.trans M₃).trans (I₄.moves M₃.inv), I₄.objects.trans (hobj₃.trans I₂.objects),
      I₄.gtt.trans (hgtt.trans I₂.gtt), I₂.os.trans (hos ▸ I₄.os), ?_⟩
    rw [I₄.tables, ← I₂.tables]
    cases hpt : m₂.tables e.addressSpace with
    | none => simp [flush, hpt]
    | some pt => exact .inr ⟨pt, rfl, ht₃ pt hpt⟩
  obtain ⟨M, hobj, hgtt, hos, ht⟩ := hend
  cases r₄ with
  | error x =>
    cases h
    simp only [Bool.or_eq_true, not_or, Bool.not_eq_true] at hfault
    simp only [Bool.not_eq_true', Bool.not_eq_false] at hready
    exact ⟨M, hobj, hgtt, hos, ht, rfl, .inr ⟨hready, hfault.2, hfault.1, rfl, ⟨x, rfl⟩, rfl⟩⟩
  | ok u =>
    cases h
    exact ⟨M, hobj, hgtt, hos, ht, rfl, .inl ⟨rfl, rfl⟩⟩

/-- What became of a request to map `count` pages that the global GTT resolves: the first `done` of
them are mapped, and if these are not all, then the next one is not resolved or is too far up, or
the tables or a call ran out. -/
structure GlobalMapped (gtt : GlobalGTT) (pt : PageTables Owner) (os : Os Owner)
    (nodes : List (PageTables.Path × Table)) (page count : Nat) (r : Except Error Unit) (done : Nat)
    (pt' : PageTables Owner) (os' : Os Owner) (nodes' : List (PageTables.Path × Table)) : Prop where
  grown : PageTables.Grown (PageTables.RangePaths page (done + 1)) pt os nodes pt' os' nodes'
  le : done ≤ count
  translate : ∀ a, a < 2 ^ 48 → (¬ (page ≤ a ∧ a < page + done * 4096) →
    pt'.translate a = pt.translate a) ∧ (page ≤ a ∧ a < page + done * 4096 →
      gtt.lookup (a / 4096 * 4096) = .ok (pt'.translate a))
  reached : ∀ j, j < done → (∃ x, gtt.lookup (page + j * 4096) = .ok x) ∧
    page + j * 4096 < 2 ^ 48 ∧ ∀ q ∈ PageTables.tablePaths (page + j * 4096), nodes'.lookup q ≠ none
  ok : r = .ok () → done = count
  error : ∀ s, r = .error s → (∃ s, gtt.lookup (page + done * 4096) = .error s) ∨
    2 ^ 48 ≤ page + done * 4096 ∨
    (pt'.tables.length = PageTables.kMaxTables ∧
      ∃ q ∈ PageTables.tablePaths (page + done * 4096), nodes'.lookup q = none) ∨
    os.faults < os'.faults

theorem rangePaths_mono {address count count' : Nat} (h : count ≤ count') (q : PageTables.Path)
    (hq : PageTables.RangePaths address count q) : PageTables.RangePaths address count' q := by
  obtain ⟨k, hk, hmem⟩ := hq
  exact ⟨k, by omega, hmem⟩

private theorem next_page (page k : Nat) : page + 4096 + k * 4096 = page + (k + 1) * 4096 := by
  omega

theorem rangePaths_succ {address count : Nat} (q : PageTables.Path)
    (hq : PageTables.RangePaths (address + 4096) count q) :
    PageTables.RangePaths address (count + 1) q := by
  obtain ⟨k, hk, hmem⟩ := hq
  refine ⟨k + 1, by omega, ?_⟩
  rwa [← next_page]

theorem mapGlobalPages_spec {count page : Nat} {pt : PageTables Owner}
    {nodes : List (PageTables.Path × Table)} (H : Inv g m) (hpt : m.tables e.addressSpace = some pt)
    (R : pt.Rep m.os nodes) (hpage : page % 4096 = 0)
    (h : mapGlobalPages ω e count page m = (r, m')) :
    Moves g (· = e.addressSpace) m m' ∧ m'.objects = m.objects ∧ m'.gtt = m.gtt ∧
      ∃ done pt' nodes', m'.tables = Function.update m.tables e.addressSpace (some pt') ∧
        GlobalMapped m.gtt pt m.os nodes page count r done pt' m'.os nodes' := by
  induction count generalizing m page pt nodes with
  | zero =>
    cases h
    refine ⟨.rfl H, rfl, rfl, 0, pt, nodes, (Function.update_eq_self_iff.mpr hpt.symm).symm,
      .refl R H.os, Nat.le_refl _, fun a _ => ⟨fun _ => rfl, fun h => by omega⟩,
      fun j hj => absurd hj (Nat.not_lt_zero j), fun _ => rfl, nofun⟩
  | succ count ih =>
    have hstop : ∀ s, ((∃ s, m.gtt.lookup page = .error s) ∨ 2 ^ 48 ≤ page) →
        GlobalMapped m.gtt pt m.os nodes page (count + 1) (.error s) 0 pt m.os nodes := by
      intro s hs
      refine ⟨.refl R H.os, Nat.zero_le _, fun a _ => ⟨fun _ => rfl, fun h => by omega⟩,
        fun j hj => absurd hj (Nat.not_lt_zero j), nofun, fun _ _ => ?_⟩
      rw [Nat.zero_mul, Nat.add_zero]
      exact hs.imp_right .inl
    unfold mapGlobalPages at h
    split at h
    · next s hl =>
      cases h
      exact ⟨.rfl H, rfl, rfl, 0, pt, nodes, (Function.update_eq_self_iff.mpr hpt.symm).symm,
        hstop _ (.inl ⟨_, hl⟩)⟩
    next physical hl =>
    obtain ⟨-, hphys, hphys', -⟩ := GlobalGTT.lookup_ok hl
    generalize h1 : m.mapPhysical ω e.addressSpace page physical 4096 = res at h
    obtain ⟨r₁, m₁⟩ := res
    obtain ⟨M₁, hobj₁, hgtt₁, hmapped⟩ := mapPhysical_spec H h1
    obtain ⟨done₁, pt₁, nodes₁, ht₁, P⟩ := hmapped pt nodes hpt R
    have hpt₁ : m₁.tables e.addressSpace = some pt₁ := by rw [ht₁, Function.update_self]
    have hG₁ := P.grown.mono (rangePaths_mono (show 4096 / 4096 ≤ 1 by omega))
    have hle : done₁ ≤ 1 := P.le
    have htr₁ : ∀ a, a < 2 ^ 48 → (¬ (page ≤ a ∧ a < page + done₁ * 4096) →
        pt₁.translate a = pt.translate a) ∧ (page ≤ a ∧ a < page + done₁ * 4096 →
          m.gtt.lookup (a / 4096 * 4096) = .ok (pt₁.translate a)) := by
      intro a ha
      rw [P.translate a ha, PageTables.overlay]
      refine ⟨fun h => if_neg h, fun h => ?_⟩
      rw [if_pos h, show a / 4096 * 4096 = page by omega, hl]
      congr 1
      omega
    cases r₁ with
    | error s =>
      cases h
      refine ⟨M₁, hobj₁, hgtt₁, done₁, pt₁, nodes₁, ht₁, hG₁.mono (rangePaths_mono (by omega)),
        by omega, htr₁, fun j hj => ?_, nofun, fun _ _ => ?_⟩
      · obtain rfl : j = 0 := by omega
        have h48 : page < 2 ^ 48 := by
          by_contra hbad
          have := P.idle (.inr (.inr (.inl (by omega))))
          omega
        exact ⟨⟨physical, by simpa using hl⟩, by omega, (P.reached 0 hj).2⟩
      · rcases P.error s rfl with hbad | ⟨hfull, -, q, ⟨k, hk, hq⟩, hnone⟩ | hfault |
          ⟨-, j, hj, hun⟩
        · obtain rfl := P.idle hbad
          exact .inr (.inl (by omega))
        · obtain rfl : k = 0 := by omega
          obtain rfl : done₁ = 0 := by
            by_contra hd
            exact (P.reached 0 (by omega)).2 q hq hnone
          exact .inr (.inr (.inl ⟨hfull, q, hq, hnone⟩))
        · exact .inr (.inr (.inr hfault))
        · obtain rfl : j = 0 := by omega
          have := unaddressable_eq_false.mpr ⟨hphys, hphys'⟩
          rw [Nat.zero_mul, Nat.add_zero, Nat.mod_eq_of_lt (by omega), this] at hun
          cases hun
    | ok u =>
    obtain ⟨hdone, hgood⟩ := P.ok rfl
    obtain rfl : done₁ = 1 := hdone
    obtain ⟨M₂, hobj₂, hgtt₂, done, pt', nodes', ht₂, Q⟩ := ih M₁.inv hpt₁ P.grown.rep (by omega) h
    rw [hgtt₁] at Q
    refine ⟨M₁.trans M₂, hobj₂.trans hobj₁, hgtt₂.trans hgtt₁, done + 1, pt', nodes', ?_, ?_⟩
    · rw [ht₂, ht₁, Function.update_idem]
    refine ⟨(hG₁.mono (rangePaths_mono (by omega))).trans (Q.grown.mono rangePaths_succ),
      Nat.succ_le_succ Q.le, fun a ha => ⟨fun hn => ?_, fun hr => ?_⟩, fun j hj => ?_,
      fun hr => congrArg (· + 1) (Q.ok hr), fun s hs => ?_⟩
    · rw [(Q.translate a ha).1 (by omega), (htr₁ a ha).1 (by lia)]
    · by_cases hlow : a < page + 4096
      · rw [(Q.translate a ha).1 (by omega)]
        exact (htr₁ a ha).2 ⟨hr.1, by rwa [Nat.one_mul]⟩
      · have hup : a < page + 4096 + done * 4096 := by
          rw [next_page]
          exact hr.2
        exact (Q.translate a ha).2 ⟨Nat.le_of_not_lt hlow, hup⟩
    · cases j with
      | zero =>
        refine ⟨⟨physical, by simpa using hl⟩, by omega, fun q hq => ?_⟩
        obtain ⟨t, ht⟩ := Option.ne_none_iff_exists'.mp ((P.reached 0 (by omega)).2 q hq)
        rw [Q.grown.kept ht]
        exact Option.some_ne_none t
      | succ j =>
        have := Q.reached j (by omega)
        rwa [next_page] at this
    · have := Q.error s hs
      rw [next_page] at this
      exact this.imp_right fun h => h.imp_right fun h => h.imp_right fun h =>
        P.grown.changes.faults.trans_lt h

end RenderEngine
end IntelGfx
