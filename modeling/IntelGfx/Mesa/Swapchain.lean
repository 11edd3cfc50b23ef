import Mathlib.Tactic.Common

/-!
# Swapchains

`wsi_haiku_surface_create_swapchain` of `wsi_common_haiku.c` and the destroy hook of a chain. What
the allocator and Mesa answer is an input. The calls that acquire or release something are listed
in their order.
-/

namespace IntelGfx

namespace Swapchain

abbrev VkResult := Int

def VK_SUCCESS : VkResult := 0
def VK_ERROR_OUT_OF_HOST_MEMORY : VkResult := -1

/-- What one call acquires and another releases. -/
inductive Resource where
  /-- `vk_zalloc`, `vk_free` -/
  | chain
  /-- `wsi_swapchain_init`, `wsi_swapchain_finish` -/
  | swapchain
  /-- `wsi_configure_image`, `wsi_destroy_image_info` -/
  | imageInfo
  /-- `wsi_create_image`, `wsi_destroy_image` -/
  | image (i : Nat)
  deriving DecidableEq

inductive Event where
  | acquire (resource : Resource)
  | release (resource : Resource)
  deriving DecidableEq

/-- What `vk_zalloc`, `wsi_swapchain_init`, `wsi_configure_image` and the calls of
`wsi_create_image` answer. -/
structure Answers where
  allocated : Bool
  init : VkResult
  configure : VkResult
  createImage : Nat → VkResult

/-- `wsi_haiku_swapchain` -/
structure Chain where
  imageCount : Nat
  status : VkResult

/-- `wsi_destroy_image` for the images below `i`, the last first. -/
def destroyImages : (i : Nat) → List Event
  | 0 => []
  | i + 1 => .release (.image i) :: destroyImages i

/-- The loop that creates the images, from image `i` on, with `left` images to go. -/
def createImages (answers : Answers) : (left i : Nat) → VkResult × List Event
  | 0, _ => (VK_SUCCESS, [])
  | left + 1, i =>
    let result := answers.createImage i
    if result ≠ VK_SUCCESS then
      (result, destroyImages i ++ [.release .imageInfo, .release .chain]) else
    let (result, events) := createImages answers left (i + 1)
    (result, .acquire (.image i) :: events)

/-- `wsi_haiku_surface_create_swapchain` -/
def createSwapchain (answers : Answers) (minImageCount : Nat) :
    VkResult × Option Chain × List Event :=
  if !answers.allocated then (VK_ERROR_OUT_OF_HOST_MEMORY, none, []) else
  if answers.init ≠ VK_SUCCESS then
    (answers.init, none, [.acquire .chain, .release .chain]) else
  let chain : Chain := ⟨minImageCount, VK_SUCCESS⟩
  -- `wsi_configure_haiku_image`
  if answers.configure ≠ VK_SUCCESS then
    (answers.configure, none, [.acquire .chain, .acquire .swapchain, .release .chain]) else
  let (result, events) := createImages answers chain.imageCount 0
  (result, if result ≠ VK_SUCCESS then none else some chain,
    .acquire .chain :: .acquire .swapchain :: .acquire .imageInfo :: events)

/-- `wsi_haiku_swapchain_destroy` -/
def destroySwapchain (chain : Chain) : List Event :=
  (List.range chain.imageCount).map (.release ∘ .image) ++
    [.release .imageInfo, .release .swapchain, .release .chain]

end Swapchain

end IntelGfx
