import IntelGfx.Kernel.RenderClient
import IntelGfx.Verify.RenderEngine

/-!
# The page tables of some engines

`kBindBuffer`, `kUnbindBuffer` and `kFramebuffer` go through the engines of a client and change the
page tables of each. There is one lemma for each of the three loops, with what it may enter into the
tables and what they show after it.
-/

namespace IntelGfx
open Memory RenderEngine

namespace Session
variable {ω : Oracle} {g : GlobalGTT} {e : RenderEngine} {engines : List RenderEngine}
  {m m' : Memory} {address size : Nat}

/-- The address spaces of some engines. -/
def Spaces (engines : List RenderEngine) (o : Owner) : Prop := ∃ e ∈ engines, o = e.addressSpace

theorem spaces_cons {o : Owner} (h : Spaces engines o) : Spaces (e :: engines) o := by
  obtain ⟨x, hx, ho⟩ := h
  exact ⟨x, List.mem_cons_of_mem _ hx, ho⟩

theorem spaces_head {o : Owner} (h : o = e.addressSpace) : Spaces (e :: engines) o :=
  ⟨e, List.mem_cons_self, h⟩

/-! ## `UnmapBuffer` -/

/-- What the engines may have done to the translation of `x`: none of them shows it any more. -/
abbrev Unmapped (engines : List RenderEngine) (address size : Nat) (o : Owner) (x s p : Nat) :
    Prop :=
  Spaces engines o ∧ Range address (pageRound size) x ∧ p = s

theorem unmapBuffer_spec {r : Except Error Unit} (H : m.Inv g)
    (h : e.unmapBuffer ω m address size = (r, m')) :
    Moves g (· = e.addressSpace) m m' ∧ m'.objects = m.objects ∧ m'.machine = m.machine ∧
      Retabled (Unmapped [e] address size) m m' ∧
      (e.ready = true → address % 4096 = 0 → address + size ≤ 2 ^ 48 → 0 < size →
        ∀ pt', m'.tables e.addressSpace = some pt' → ∀ x, Range address size x →
          pt'.translate x = pt'.scratchPage) := by
  unfold unmapBuffer at h
  split at h
  · next hr =>
    cases h
    exact ⟨.rfl H, rfl, rfl, .of_eq rfl, fun hready => by simp [hready] at hr⟩
  obtain ⟨M, hobj, hmach, hunmapped⟩ := unmap_spec H h
  have hT := unmap_retabled H h
  refine ⟨M, hobj, hmach, hT.mono fun q x s p hq => ⟨spaces_head hq.1, hq.2⟩,
    fun _ haddr hend hpos pt' hpt' x hx => ?_⟩
  obtain ⟨h1, h2⟩ := hx
  obtain ⟨pt, hpt, -⟩ := hT.back hpt'
  obtain ⟨pt₁, ht, hfix, -, hok, htr⟩ := hunmapped pt hpt
  rw [ht, Function.update_self] at hpt'
  cases hpt'
  have hround : size ≤ pageRound size := by
    unfold pageRound
    omega
  rw [htr x (by omega), if_pos ⟨hok.mpr ⟨haddr, by omega, by omega⟩, h1, by omega⟩]
  exact (congrArg (·.2.2.2.1) hfix : pt'.scratchPage = pt.scratchPage).symm

theorem unmapEngines_spec (ω : Oracle) (engines : List RenderEngine) (address size : Nat)
    (H : m.Inv g) :
    Moves g (Spaces engines) m (unmapEngines ω address size engines m) ∧
      (unmapEngines ω address size engines m).objects = m.objects ∧
      (unmapEngines ω address size engines m).machine = m.machine ∧
      Retabled (Unmapped engines address size) m (unmapEngines ω address size engines m) ∧
      ∀ e ∈ engines, e.ready = true → address % 4096 = 0 → address + size ≤ 2 ^ 48 → 0 < size →
        ∀ pt', (unmapEngines ω address size engines m).tables e.addressSpace = some pt' →
          ∀ x, Range address size x → pt'.translate x = pt'.scratchPage := by
  induction engines generalizing m with
  | nil => exact ⟨.rfl H, rfl, rfl, .of_eq rfl, nofun⟩
  | cons e engines ih =>
    obtain ⟨M₁, hobj₁, hmach₁, hT₁, hblank⟩ :=
      unmapBuffer_spec H (h := (rfl : e.unmapBuffer ω m address size = _))
    obtain ⟨M₂, hobj₂, hmach₂, hT₂, hrest⟩ := ih M₁.inv
    refine ⟨(M₁.mono fun _ => spaces_head).trans (M₂.mono fun _ => spaces_cons), hobj₂.trans hobj₁,
      hmach₂.trans hmach₁, ?_, fun x hx => ?_⟩
    · refine (hT₁.mono fun q x s p hq => ⟨?_, hq.2⟩).trans
        (hT₂.mono fun q x s p hq => ⟨spaces_cons hq.1, hq.2⟩)
      obtain ⟨y, hy, rfl⟩ := hq.1
      exact spaces_head (by rw [List.mem_singleton.mp hy])
    rcases List.mem_cons.mp hx with rfl | hx
    · intro hready haddr hend hpos pt' hpt' y hy
      -- what one engine has unmapped the later ones leave alone
      obtain ⟨pt₁, hpt₁, hs, htr⟩ := hT₂.back hpt'
      have := hblank hready haddr hend hpos pt₁ hpt₁ y hy
      rcases htr y (by have := hy.2; omega) with h | ⟨-, -, h⟩
      · rw [h, this, hs]
      · rw [h, hs]
    · exact hrest x hx

/-! ## `MapBuffer` -/

/-- What the engines may have done to the translation of `x`: it is a page of the area. -/
abbrev Mapped (engines : List RenderEngine) (address : Nat) (pages : List Nat) (o : Owner)
    (x _s p : Nat) : Prop :=
  Spaces engines o ∧ Entered address pages x p

/-- The engines map an area that is not one of their page tables. Each of them shows all of it if
none has failed. -/
theorem mapEngines_spec {area : Option Nat} {a done : Nat} {ar : Area Owner} {r : Except Error Unit}
    (H : m.Inv g) (ha : area = some a) (har : m.os.find a = some ar)
    (hne : ¬ Spaces engines ar.owner)
    (h : mapEngines ω area address engines m = (r, done, m')) :
    Moves g (Spaces engines) m m' ∧ m'.objects = m.objects ∧ m'.gtt = m.gtt ∧
      Retabled (fun o x s p => done ≠ 0 ∧ Mapped engines address ar.pages o x s p) m m' ∧
      (r = .ok () → ∀ e ∈ engines, address + ar.pages.length * 4096 ≤ 2 ^ 48 ∧
        ∀ pt', m'.tables e.addressSpace = some pt' → ∀ x,
          Range address (ar.pages.length * 4096) x →
            Entered address ar.pages x (pt'.translate x)) := by
  induction engines generalizing m done with
  | nil =>
    cases h
    exact ⟨.rfl H, rfl, rfl, .of_eq rfl, nofun⟩
  | cons e engines ih =>
    unfold mapEngines at h
    generalize h1 : e.mapBuffer ω m area address = res at h
    obtain ⟨r₁, done₁, m₁⟩ := res
    have hstep : Moves g (· = e.addressSpace) m m₁ ∧ m₁.objects = m.objects ∧ m₁.gtt = m.gtt ∧
        Retabled (fun o x _ p => o = e.addressSpace ∧ done₁ ≠ 0 ∧
          Entered address ar.pages x p) m m₁ ∧
        (r₁ = .ok () → address + ar.pages.length * 4096 ≤ 2 ^ 48 ∧
          ∀ pt', m₁.tables e.addressSpace = some pt' → ∀ x,
            Range address (ar.pages.length * 4096) x →
              Entered address ar.pages x (pt'.translate x)) := by
      unfold mapBuffer at h1
      split at h1
      · cases h1
        exact ⟨.rfl H, rfl, rfl, .of_eq rfl, nofun⟩
      · obtain ⟨M, hobj, hgtt, -⟩ := map_spec H h1
        exact ⟨M, hobj, hgtt, map_retabled H h1 ha har⟩
    obtain ⟨M₁, hobj₁, hgtt₁, hT₁, hok₁⟩ := hstep
    have M₁' : Moves g (Spaces (e :: engines)) m m₁ := M₁.mono fun _ => spaces_head
    cases r₁ with
    | error s =>
      cases h
      exact ⟨M₁', hobj₁, hgtt₁, hT₁.mono fun q x s p hq =>
        ⟨hq.2.1, spaces_head hq.1, hq.2.2⟩, nofun⟩
    | ok u =>
      dsimp only at h
      generalize h2 : mapEngines ω area address engines m₁ = res at h
      obtain ⟨r₂, more, m₂⟩ := res
      cases h
      have har₁ := M₁.os.kept har fun heq => hne (spaces_head heq)
      obtain ⟨M₂, hobj₂, hgtt₂, hT₂, hok₂⟩ := ih M₁.inv har₁ (fun h => hne (spaces_cons h)) h2
      refine ⟨M₁'.trans (M₂.mono fun _ => spaces_cons), hobj₂.trans hobj₁, hgtt₂.trans hgtt₁, ?_,
        fun hr y hy => ?_⟩
      · refine .trans (hT₁.mono fun q x s p ⟨hq, h0, hp⟩ => ⟨?_, spaces_head hq, hp⟩)
          (hT₂.mono fun q x s p ⟨h0, hq, hp⟩ => ⟨?_, spaces_cons hq, hp⟩)
        · exact fun h => h0 (Nat.add_eq_zero_iff.mp h).1
        · exact fun h => h0 (Nat.add_eq_zero_iff.mp h).2
      rcases List.mem_cons.mp hy with rfl | hy
      · obtain ⟨hlimit, hshown⟩ := hok₁ rfl
        refine ⟨hlimit, fun pt' hpt' x hx => ?_⟩
        -- the later engines leave it alone, or enter the same page
        obtain ⟨pt₁, hpt₁, -, htr⟩ := hT₂.back hpt'
        have := hx.2
        rcases htr x (by omega) with h | ⟨-, -, h⟩
        · rw [h]
          exact hshown pt₁ hpt₁ x hx
        · exact h
      · exact hok₂ hr y hy

/-- When any page is mapped, an engine shows the first one. -/
theorem mapEngines_entered {area : Option Nat} {a done : Nat} {ar : Area Owner}
    {r : Except Error Unit} (H : m.Inv g) (ha : area = some a) (har : m.os.find a = some ar)
    (hne : ¬ Spaces engines ar.owner) (hpos : 0 < ar.pages.length)
    (h : mapEngines ω area address engines m = (r, done, m')) (hdone : done ≠ 0) :
    address < 2 ^ 48 ∧ ∃ e ∈ engines, ∃ pt', m'.tables e.addressSpace = some pt' ∧
      Entered address ar.pages address (pt'.translate address) := by
  cases engines with
  | nil =>
    cases h
    exact absurd rfl hdone
  | cons e engines =>
    unfold mapEngines at h
    generalize h1 : e.mapBuffer ω m area address = res at h
    obtain ⟨r₁, done₁, m₁⟩ := res
    unfold mapBuffer at h1
    split at h1
    · cases h1
      cases h
      exact absurd rfl hdone
    obtain ⟨M₁, -⟩ := map_spec H h1
    cases r₁ with
    | error s =>
      cases h
      obtain ⟨hlt, hshown⟩ := map_entered H h1 ha har hpos (.inl hdone)
      exact ⟨hlt, e, List.mem_cons_self, hshown⟩
    | ok u =>
      dsimp only at h
      generalize h2 : mapEngines ω area address engines m₁ = res at h
      obtain ⟨r₂, more, m₂⟩ := res
      cases h
      have har₁ := M₁.os.kept har fun heq => hne (spaces_head heq)
      obtain ⟨-, -, -, hT₂, -⟩ := mapEngines_spec M₁.inv ha har₁ (fun h => hne (spaces_cons h)) h2
      obtain ⟨hlt, pt₁, hpt₁, hshown⟩ := map_entered H h1 ha har hpos (.inr rfl)
      -- the later engines leave it alone, or enter the same page
      obtain ⟨pt₂, hpt₂, -, htr⟩ := (hT₂ _).2 pt₁ hpt₁
      refine ⟨hlt, e, List.mem_cons_self, pt₂, hpt₂, ?_⟩
      rcases htr address hlt with h | ⟨-, -, h⟩
      · rw [h]
        exact hshown
      · exact h

/-! ## `MapGlobalRange` -/

/-- What the engines may have done to the translation of `x`: the global GTT resolves it so. -/
abbrev Resolved (engines : List RenderEngine) (gtt : GlobalGTT) (o : Owner) (x _s p : Nat) : Prop :=
  Spaces engines o ∧ gtt.lookup (x / 4096 * 4096) = .ok p

theorem mapGlobalRange_spec {r : Except Error Unit} (H : m.Inv g)
    (hpt : ∃ pt, m.tables e.addressSpace = some pt)
    (h : e.mapGlobalRange ω m address size = (r, m')) :
    Moves g (· = e.addressSpace) m m' ∧ m'.objects = m.objects ∧ m'.gtt = m.gtt ∧
      Retabled (Resolved [e] m.gtt) m m' := by
  unfold mapGlobalRange at h
  split at h
  · cases h
    exact ⟨.rfl H, rfl, rfl, .of_eq rfl⟩
  obtain ⟨pt, hpt⟩ := hpt
  obtain ⟨-, -, nodes, R⟩ := H.tables hpt
  obtain ⟨M, hobj, hgtt, done, pt', nodes', ht, G⟩ :=
    mapGlobalPages_spec H hpt R (Nat.mul_mod_left _ _) h
  refine ⟨M, hobj, hgtt, .of_update hpt ht (congrArg (·.2.2.2.1) G.grown.fixed) fun x hx => ?_⟩
  obtain ⟨hout, hin⟩ := G.translate x hx
  by_cases hr : address / 4096 * 4096 ≤ x ∧ x < address / 4096 * 4096 + done * 4096
  · exact .inr ⟨spaces_head rfl, hin hr⟩
  · exact .inl (hout hr)

theorem mapGlobalRanges_spec {r : Except Error Unit} (H : m.Inv g)
    (hpt : ∀ e ∈ engines, ∃ pt, m.tables e.addressSpace = some pt)
    (h : mapGlobalRanges ω address size engines m = (r, m')) :
    Moves g (Spaces engines) m m' ∧ m'.objects = m.objects ∧ m'.gtt = m.gtt ∧
      Retabled (Resolved engines m.gtt) m m' := by
  induction engines generalizing m with
  | nil =>
    cases h
    exact ⟨.rfl H, rfl, rfl, .of_eq rfl⟩
  | cons e engines ih =>
    unfold mapGlobalRanges at h
    generalize h1 : e.mapGlobalRange ω m address size = res at h
    obtain ⟨r₁, m₁⟩ := res
    obtain ⟨M₁, hobj₁, hgtt₁, hT₁⟩ := mapGlobalRange_spec H (hpt e List.mem_cons_self) h1
    have M₁' : Moves g (Spaces (e :: engines)) m m₁ := M₁.mono fun _ => spaces_head
    have hT₁' : Retabled (Resolved (e :: engines) m.gtt) m m₁ := by
      refine hT₁.mono fun q x s p hq => ⟨?_, hq.2⟩
      obtain ⟨y, hy, rfl⟩ := hq.1
      exact spaces_head (by rw [List.mem_singleton.mp hy])
    cases r₁ with
    | error s =>
      cases h
      exact ⟨M₁', hobj₁, hgtt₁, hT₁'⟩
    | ok u =>
      have hpt₁ : ∀ e ∈ engines, ∃ pt, m₁.tables e.addressSpace = some pt := by
        intro y hy
        refine Option.isSome_iff_exists.mp ((hT₁.isSome _).trans ?_)
        exact Option.isSome_iff_exists.mpr (hpt y (List.mem_cons_of_mem _ hy))
      obtain ⟨M₂, hobj₂, hgtt₂, hT₂⟩ := ih M₁.inv hpt₁ h
      rw [hgtt₁] at hT₂
      exact ⟨M₁'.trans (M₂.mono fun _ => spaces_cons), hobj₂.trans hobj₁, hgtt₂.trans hgtt₁,
        hT₁'.trans (hT₂.mono fun q x s p hq => ⟨spaces_cons hq.1, hq.2⟩)⟩

end Session
end IntelGfx
