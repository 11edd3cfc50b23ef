import IntelGfx.Mesa.Swapchain

/-!
# What a failed creation holds

`after` follows what is held through a list of calls; a call that releases what is not held is
undefined. A creation that fails after `wsi_swapchain_init` leaves the swapchain initialised.
-/

namespace IntelGfx

namespace Swapchain

variable {answers : Answers} {held : List Resource} {n : Nat}

/-- What is held after the calls. -/
def after (held : List Resource) : List Event → Option (List Resource)
  | [] => some held
  | .acquire resource :: events => after (resource :: held) events
  | .release resource :: events =>
    if resource ∈ held then after (held.erase resource) events else none

/-- Every acquisition has been undone exactly once. -/
def Undone (events : List Event) : Prop := after [] events = some []

theorem after_append (events events' : List Event) :
    after held (events ++ events') = (after held events).bind (after · events') := by
  induction events generalizing held with
  | nil => rfl
  | cons event events ih =>
    cases event with
    | acquire resource => exact ih
    | release resource =>
      simp only [List.cons_append, after]
      split
      · exact ih
      · rfl

theorem after_release_head (resource : Resource) (events : List Event) :
    after (resource :: held) (.release resource :: events) = after held events := by
  rw [after, if_pos List.mem_cons_self, List.erase_cons_head]

/-- The images below `i`, the last first. -/
def images : Nat → List Resource
  | 0 => []
  | i + 1 => .image i :: images i

theorem after_destroyImages (i : Nat) (held : List Resource) :
    after (images i ++ held) (destroyImages i) = some held := by
  induction i with
  | zero => rfl
  | succ i ih => exact (after_release_head _ _).trans ih

/-- The exit of the loop leaves the swapchain. -/
theorem after_failed (i : Nat) :
    after (images i ++ [.imageInfo, .swapchain, .chain])
      (destroyImages i ++ [.release .imageInfo, .release .chain]) = some [.swapchain] := by
  rw [after_append, after_destroyImages]
  rfl

theorem createImages_spec (answers : Answers) (left i : Nat) :
    ((createImages answers left i).1 = VK_SUCCESS ↔
      ∀ j < i + left, i ≤ j → answers.createImage j = VK_SUCCESS) ∧
    after (images i ++ [.imageInfo, .swapchain, .chain]) (createImages answers left i).2 =
      some (if (createImages answers left i).1 = VK_SUCCESS then
        images (i + left) ++ [.imageInfo, .swapchain, .chain] else [.swapchain]) := by
  induction left generalizing i with
  | zero => exact ⟨⟨fun _ j hj hij => absurd hj (Nat.not_lt.mpr hij), fun _ => rfl⟩, rfl⟩
  | succ left ih =>
    unfold createImages
    by_cases hi : answers.createImage i = VK_SUCCESS
    · obtain ⟨hresult, hafter⟩ := ih (i + 1)
      rw [if_neg (not_not_intro hi)]
      rw [Nat.add_right_comm] at hresult hafter
      refine ⟨hresult.trans ⟨fun h j hj hij => ?_, fun h j hj hij => ?_⟩, hafter⟩
      · rcases Nat.eq_or_lt_of_le hij with rfl | hij
        · exact hi
        · exact h j hj hij
      · exact h j hj (Nat.le_of_succ_le hij)
    · rw [if_pos hi]
      refine ⟨⟨fun h => absurd h hi, fun h => absurd (h i (by omega) (Nat.le_refl i)) hi⟩, ?_⟩
      rw [if_neg hi]
      exact after_failed i

/-- Releasing, in any order, what is held among other things. -/
theorem after_releases {resources rest : List Resource} (h : held.Perm (resources ++ rest)) :
    ∃ held', after held (resources.map .release) = some held' ∧ held'.Perm rest := by
  induction resources generalizing held with
  | nil => exact ⟨held, rfl, h⟩
  | cons resource resources ih =>
    have hmem : resource ∈ held := h.mem_iff.mpr List.mem_cons_self
    have herase : (held.erase resource).Perm (resources ++ rest) := by
      simpa using h.erase resource
    obtain ⟨held', hafter, hrest⟩ := ih herase
    refine ⟨held', ?_, hrest⟩
    rw [List.map_cons, after, if_pos hmem]
    exact hafter

theorem images_perm (i : Nat) : (images i).Perm ((List.range i).map .image) := by
  induction i with
  | zero => exact .nil
  | succ i ih =>
    rw [List.range_succ, List.map_append]
    exact (ih.cons _).trans (List.perm_append_singleton _ _).symm

/-- The exits of `wsi_haiku_surface_create_swapchain`. -/
theorem createSwapchain_cases (answers : Answers) (n : Nat) :
    (createSwapchain answers n).1 ≠ VK_SUCCESS ∧ (createSwapchain answers n).2.1 = none ∧
        Undone (createSwapchain answers n).2.2 ∧
        ¬ (answers.allocated = true ∧ answers.init = VK_SUCCESS) ∨
      (createSwapchain answers n).1 ≠ VK_SUCCESS ∧ (createSwapchain answers n).2.1 = none ∧
        after [] (createSwapchain answers n).2.2 = some [.swapchain] ∧
        (answers.allocated = true ∧ answers.init = VK_SUCCESS) ∧
        ¬ (answers.configure = VK_SUCCESS ∧ ∀ i < n, answers.createImage i = VK_SUCCESS) ∨
      (createSwapchain answers n).1 = VK_SUCCESS ∧
        (createSwapchain answers n).2.1 = some ⟨n, VK_SUCCESS⟩ ∧
        after [] (createSwapchain answers n).2.2 =
          some (images n ++ [.imageInfo, .swapchain, .chain]) ∧
        answers.configure = VK_SUCCESS ∧ ∀ i < n, answers.createImage i = VK_SUCCESS := by
  unfold createSwapchain
  by_cases hallocated : answers.allocated = true
  case neg =>
    rw [if_pos (by simpa using hallocated)]
    exact .inl ⟨by decide, rfl, rfl, fun h => hallocated h.1⟩
  rw [if_neg (by simpa using hallocated)]
  by_cases hinit : answers.init = VK_SUCCESS
  case neg =>
    rw [if_pos hinit]
    exact .inl ⟨hinit, rfl, rfl, fun h => hinit h.2⟩
  rw [if_neg (not_not_intro hinit)]
  by_cases hconfigure : answers.configure = VK_SUCCESS
  case neg =>
    dsimp only
    rw [if_pos hconfigure]
    exact .inr (.inl ⟨hconfigure, rfl, rfl, ⟨hallocated, hinit⟩, fun h => hconfigure h.1⟩)
  dsimp only
  rw [if_neg (not_not_intro hconfigure)]
  obtain ⟨hresult, hafter⟩ := createImages_spec answers n 0
  simp only [Nat.zero_add, Nat.zero_le, true_imp_iff] at hresult hafter
  generalize createImages answers n 0 = res at hresult hafter
  obtain ⟨result, events⟩ := res
  by_cases hcreated : result = VK_SUCCESS
  · rw [if_pos hcreated] at hafter
    exact .inr (.inr ⟨hcreated, if_neg (not_not_intro hcreated), hafter, hconfigure,
      hresult.mp hcreated⟩)
  · rw [if_neg hcreated] at hafter
    exact .inr (.inl ⟨hcreated, if_pos hcreated, hafter, ⟨hallocated, hinit⟩,
      fun h => hcreated (hresult.mpr h.2)⟩)

/-- The destroy hook releases a complete chain. -/
theorem destroySwapchain_undone {chain : Chain}
    (h : (createSwapchain answers n).2.1 = some chain) :
    Undone ((createSwapchain answers n).2.2 ++ destroySwapchain chain) := by
  rcases createSwapchain_cases answers n with
    ⟨-, hnone, -⟩ | ⟨-, hnone, -⟩ | ⟨-, hsome, hafter, -⟩
  · exact nomatch hnone.symm.trans h
  · exact nomatch hnone.symm.trans h
  · obtain rfl := Option.some.inj (hsome.symm.trans h)
    have hheld : (images n ++ [Resource.imageInfo, .swapchain, .chain]).Perm
        (((List.range n).map Resource.image ++ [Resource.imageInfo, .swapchain, .chain]) ++
          []) := by
      rw [List.append_nil]
      exact (images_perm n).append_right _
    obtain ⟨held', hreleased, hperm⟩ := after_releases hheld
    rw [List.map_append, List.map_map] at hreleased
    rw [hperm.eq_nil] at hreleased
    rw [Undone, after_append, hafter]
    exact hreleased

/-- If creating a swapchain of `n` images fails, then all that has been acquired has been released,
if and only if it does not fail after `wsi_swapchain_init` has succeeded. -/
theorem createSwapchain_undone_iff (answers : Answers) (n : Nat) :
    ((createSwapchain answers n).1 ≠ VK_SUCCESS → Undone (createSwapchain answers n).2.2) ↔
      (answers.allocated = true → answers.init = VK_SUCCESS →
        answers.configure = VK_SUCCESS ∧ ∀ i < n, answers.createImage i = VK_SUCCESS) := by
  rcases createSwapchain_cases answers n with
    ⟨-, -, hundone, hbefore⟩ | ⟨hfailed, -, hheld, hinit, hbad⟩ | ⟨hok, -, -, hgood⟩
  · exact ⟨fun _ ha hi => absurd ⟨ha, hi⟩ hbefore, fun _ _ => hundone⟩
  · refine ⟨fun h => ?_, fun h => absurd (h hinit.1 hinit.2) hbad⟩
    have hundone : after [] (createSwapchain answers n).2.2 = some [] := h hfailed
    exact nomatch hheld.symm.trans hundone
  · exact ⟨fun _ _ _ => hgood, fun _ hfailed => absurd hok hfailed⟩

/-- A chain of two images, the second of which cannot be created. -/
theorem not_undone_of_image :
    ¬ ∀ (answers : Answers) (n : Nat), (createSwapchain answers n).1 ≠ VK_SUCCESS →
      Undone (createSwapchain answers n).2.2 := by
  intro h
  have hundone := h ⟨true, VK_SUCCESS, VK_SUCCESS, fun i => if i = 1 then -2 else VK_SUCCESS⟩ 2
    (by decide)
  exact absurd hundone (by unfold Undone; decide)

end Swapchain

end IntelGfx
