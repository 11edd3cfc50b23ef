import IntelGfx.Mesa.IntelWinsys

/-!
# Submissions of the winsys

The calls of `intel_haiku_ioctl` that work on buffers in use: `DRM_IOCTL_I915_GEM_EXECBUFFER2`,
which first gives every buffer the address that Iris has chosen for it, and those that only pass a
request on. The waits for the fences of a submission come first and are over when the buffers are
looked at, so that whether they have succeeded is an input.
-/

namespace IntelGfx

namespace Winsys

/-- `drm_i915_gem_exec_object2` -/
structure ExecObject where
  handle : Nat
  offset : Nat
  relocationCount : Nat
  deriving DecidableEq

/-- `drm_i915_gem_execbuffer2`, with the flags that are read. -/
structure Execbuffer2 where
  objects : List ExecObject
  batchStartOffset : Nat
  batchLen : Nat
  /-- `I915_EXEC_RING_MASK` selects `I915_EXEC_RENDER`. -/
  render : Bool
  /-- `I915_EXEC_BATCH_FIRST` -/
  batchFirst : Bool
  /-- The fences are in order and have been waited for. -/
  waited : Bool
  /-- `rsvd1` -/
  context : Nat

namespace Execbuffer2

def batchIndex (r : Execbuffer2) : Nat := if r.batchFirst then 0 else r.objects.length - 1

/-- `objects[batchIndex].handle` -/
def batchHandle (r : Execbuffer2) : Nat := (r.objects[r.batchIndex]?).elim 0 (·.handle)

/-- `submit.handles` -/
def handles (r : Execbuffer2) (i : Nat) : Nat := (r.objects[i]?).elim 0 (·.handle)

end Execbuffer2

namespace Adapter
variable {κ : Type*}

/-- `kUnbindVirtual`, for an entry of the map. -/
def unbind (K : Kernel κ) (key : Key) (a : Adapter κ) : Bool × Adapter κ :=
  match a.call K key.1 (.unbindVirtual key.2 0) with
  | (.error _, a) => (false, a)
  | (.ok _, a) => (true, a.modify key fun bo => { bo with address := 0 })

/-- `kBindVirtual` -/
def bind (K : Kernel κ) (key : Key) (address : Nat) (a : Adapter κ) : Bool × Adapter κ :=
  match a.call K key.1 (.bindVirtual key.2 0 address) with
  | (.error _, a) => (false, a)
  | (.ok _, a) => (true, a.modify key fun bo => { bo with address := address })

/-- `start < other.address + other.size && other.address < end` -/
def inTheWay (start stop : Nat) (other : Buffer) : Bool :=
  start < (other.address + other.size) % 2 ^ 64 && other.address < stop

/-- The sweep over the map for a buffer that is moving. -/
def evict (K : Kernel κ) (key : Key) (start stop : Nat) : List (Key × Buffer) → Adapter κ →
    Bool × Adapter κ
  | [], a => (true, a)
  | (other, bo) :: entries, a =>
    if other.1 ≠ key.1 ∨ other = key ∨ bo.address = 0 then evict K key start stop entries a else
    if inTheWay start stop bo then
      match a.unbind K other with
      | (false, a) => (false, a)
      | (true, a) => evict K key start stop entries a
    else evict K key start stop entries a

/-- The first loop over the objects. -/
def evictAll (K : Kernel κ) (fd : Int) : List ExecObject → Adapter κ → Option Errno × Adapter κ
  | [], a => (none, a)
  | object :: objects, a =>
    match a.buffer (fd, object.handle) with
    | none => (some .EINVAL, a)
    | some bo =>
      if bo.address = object.offset then evictAll K fd objects a else
      let stop := (object.offset + bo.size) % 2 ^ 64
      match a.evict K (fd, object.handle) object.offset stop a.buffers with
      | (false, a) => (some .driver, a)
      | (true, a) => evictAll K fd objects a

/-- A buffer is taken from where it is and bound where it is to be. -/
def rebind (K : Kernel κ) (key : Key) (bo : Buffer) (address : Nat) (a : Adapter κ) :
    Bool × Adapter κ :=
  if bo.address = address then (true, a) else
  let (unbound, a) := if bo.address ≠ 0 then a.unbind K key else (true, a)
  if !unbound then (false, a) else a.bind K key address

/-- The second loop over the objects. -/
def bindAll (K : Kernel κ) (fd : Int) : List ExecObject → Adapter κ → Option Errno × Adapter κ
  | [], a => (none, a)
  | object :: objects, a =>
    match a.buffer (fd, object.handle) with
    | none => (some .EINVAL, a)
    | some bo =>
      if object.relocationCount ≠ 0 then (some .EINVAL, a) else
      match a.rebind K (fd, object.handle) bo object.offset with
      | (false, a) => (some .driver, a)
      | (true, a) => bindAll K fd objects a

/-- The two loops. -/
def layout (K : Kernel κ) (fd : Int) (objects : List ExecObject) (a : Adapter κ) :
    Option Errno × Adapter κ :=
  match a.evictAll K fd objects with
  | (some e, a) => (some e, a)
  | (none, a) => a.bindAll K fd objects

/-- `DRM_IOCTL_I915_GEM_EXECBUFFER2` -/
def execbuffer (K : Kernel κ) (fd : Int) (r : Execbuffer2) (a : Adapter κ) : Result × Adapter κ :=
  if r.objects = [] ∨ kMaxBuffers < r.objects.length ∨ !r.render ∨ !r.waited then
    (.fail .EINVAL, a) else
  match a.buffer (fd, r.batchHandle) with
  | none => (.fail .EINVAL, a)
  | some batch =>
    if batch.size ≤ r.batchStartOffset ∨ batch.size - r.batchStartOffset < r.batchLen then
      (.fail .EINVAL, a) else
    let length := if r.batchLen ≠ 0 then r.batchLen else batch.size - r.batchStartOffset
    match a.layout K fd r.objects with
    | (some e, a) => (.fail e, a)
    | (none, a) =>
      match a.call K fd (.submitObjects r.context r.batchHandle r.batchStartOffset length 0
          r.objects.length 0 r.handles) with
      | (.error _, a) => (.fail .driver, a)
      | (.ok _, a) => (.ok, a)

/-- `DRM_IOCTL_I915_GEM_SET_TILING` -/
def setTiling (K : Kernel κ) (fd : Int) (handle tiling stride : Nat) (a : Adapter κ) :
    Result × Adapter κ :=
  match a.buffer (fd, handle) with
  | none => (.fail .EINVAL, a)
  | some _ =>
    match a.call K fd (.bufferLayout handle tiling stride 0) with
    | (.error _, a) => (.fail .driver, a)
    | (.ok _, a) => (.ok, a.modify (fd, handle) fun bo => { bo with tiling := tiling })

/-- `DRM_IOCTL_I915_GEM_CONTEXT_CREATE` -/
def contextCreate (K : Kernel κ) (fd : Int) (a : Adapter κ) : Result × Adapter κ :=
  match a.call K fd (.createContext 0 0) with
  | (.ok (.context context), a) => (.context context, a)
  | (_, a) => (.fail .driver, a)

/-- `DRM_IOCTL_I915_GEM_CONTEXT_DESTROY` -/
def contextDestroy (K : Kernel κ) (fd : Int) (context : Nat) (a : Adapter κ) : Result × Adapter κ :=
  match a.call K fd (.destroyContext context 0) with
  | (.error _, a) => (.fail .driver, a)
  | (.ok _, a) => (.ok, a)

end Adapter

/-- The calls on one descriptor. -/
inductive Ioctl where
  | gemCreate (size : Nat)
  | gemClose (handle : Nat)
  | gemMadvise (handle : Nat) (dontNeed : Bool)
  | setTiling (handle tiling stride : Nat)
  | execbuffer (r : Execbuffer2)
  | contextCreate
  | contextDestroy (context : Nat)

/-- `intel_haiku_ioctl` -/
def ioctl {κ : Type*} (K : Kernel κ) (fd : Int) : Ioctl → Adapter κ → Result × Adapter κ
  | .gemCreate size, a => a.gemCreate K fd size
  | .gemClose handle, a => a.gemClose K fd handle
  | .gemMadvise handle dontNeed, a => a.gemMadvise K fd handle dontNeed
  | .setTiling handle tiling stride, a => a.setTiling K fd handle tiling stride
  | .execbuffer r, a => a.execbuffer K fd r
  | .contextCreate, a => a.contextCreate K fd
  | .contextDestroy context, a => a.contextDestroy K fd context

end Winsys

end IntelGfx
