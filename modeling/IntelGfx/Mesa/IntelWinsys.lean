import IntelGfx.Kernel.RenderClient
import IntelGfx.Theory.Run

/-!
# Buffers of the winsys

The `buffers` map of `IntelWinsys.cpp` and the calls of `intel_haiku_ioctl` that work on it. A call
holds the lock of the winsys, and asks the driver through `call`, which is here a function of the
state of whatever answers.

`trace` tells, latest first, which buffers have been entered in the map, which have been marked
purgeable or taken back, and which `reclaim` has asked the driver to close.
-/

namespace IntelGfx

namespace Winsys

/-- `call`: what `ioctl` on a descriptor answers. -/
abbrev Kernel (κ : Type*) := Int → Request → κ → Except Error Reply × κ

/-- `purgeClock` and `stamp` are 64-bit counts of marks. -/
structure Buffer where
  area : Option Nat
  size : Nat
  address : Nat
  tiling : Nat
  purgeable : Bool
  purged : Bool
  stamp : Nat
  deriving DecidableEq

/-- A descriptor and a handle. -/
abbrev Key := Int × Nat

/-- The order of the map. -/
def Key.before (a b : Key) : Prop := a.1 < b.1 ∨ a.1 = b.1 ∧ a.2 < b.2

instance (a b : Key) : Decidable (a.before b) := instDecidableOr

inductive Event where
  /-- The buffer has been entered in the map. -/
  | add (key : Key)
  /-- `DRM_IOCTL_I915_GEM_MADVISE` has marked the buffer. -/
  | mark (key : Key)
  /-- `DRM_IOCTL_I915_GEM_MADVISE` has taken the mark off. -/
  | unmark (key : Key)
  /-- `reclaim` has called `kCloseBuffer`, which has succeeded or not. -/
  | close (key : Key) (closed : Bool)
  deriving DecidableEq

structure Adapter (κ : Type*) where
  buffers : List (Key × Buffer)
  purgeClock : Nat
  kernel : κ
  trace : List Event

def start {κ : Type*} (k : κ) : Adapter κ := ⟨[], 0, k, []⟩

def kReclaimBatch : Nat := 16
def kMaxCached : Nat := 64

inductive Errno where
  | EINVAL
  /-- Left by the call of the driver that failed. -/
  | driver
  deriving DecidableEq

inductive Result where
  | ok
  | fail (error : Errno)
  /-- `drm_i915_gem_create` -/
  | created (handle size : Nat)
  /-- `drm_i915_gem_madvise::retained` -/
  | retained (retained : Bool)
  /-- `drm_i915_gem_context_create::ctx_id` -/
  | context (context : Nat)
  deriving DecidableEq

namespace Adapter
variable {κ : Type*}

/-- `buffer` -/
def buffer (a : Adapter κ) (key : Key) : Option Buffer := a.buffers.lookup key

/-- `buffers[key] = bo` -/
def insert (key : Key) (bo : Buffer) : List (Key × Buffer) → List (Key × Buffer)
  | [] => [(key, bo)]
  | entry :: entries =>
    if key.before entry.1 then (key, bo) :: entry :: entries else
    if entry.1 = key then (key, bo) :: entries else entry :: insert key bo entries

/-- What a pointer into the map is written through. -/
def modify (a : Adapter κ) (key : Key) (f : Buffer → Buffer) : Adapter κ :=
  { a with buffers := a.buffers.map fun entry =>
      if entry.1 = key then (entry.1, f entry.2) else entry }

def call (K : Kernel κ) (fd : Int) (request : Request) (a : Adapter κ) :
    Except Error Reply × Adapter κ :=
  let (r, k) := K fd request a.kernel
  (r, { a with kernel := k })

/-- Whether an entry is one of the descriptor's buffers that are cached. -/
def cached (fd : Int) (entry : Key × Buffer) : Bool :=
  entry.1.1 = fd && entry.2.purgeable && !entry.2.purged

/-- The search of `reclaim`. -/
def oldest (fd : Int) (entries : List (Key × Buffer)) : Option (Key × Buffer) :=
  entries.foldl (fun oldest entry =>
    if !cached fd entry then oldest else
    match oldest with
    | none => some entry
    | some old => if entry.2.stamp < old.2.stamp then some entry else some old) none

def purge (bo : Buffer) : Buffer := { bo with purged := true, address := 0, area := none }

/-- The loop of `reclaim`, of at most `fuel` rounds. -/
def reclaimLoop (K : Kernel κ) (fd : Int) (bytes count : Nat) :
    (fuel freed purged : Nat) → Adapter κ → Nat × Adapter κ
  | 0, _, purged, a => (purged, a)
  | fuel + 1, freed, purged, a =>
    if purged < count ∨ freed < bytes then
      match oldest fd a.buffers with
      | none => (purged, a)
      | some (key, bo) =>
        match a.call K fd (.closeBuffer key.2 0) with
        | (.error _, a) => (purged, { a with trace := .close key false :: a.trace })
        | (.ok _, a) =>
          let a := { a with trace := .close key true :: a.trace }
          reclaimLoop K fd bytes count fuel (freed + bo.size) (purged + 1) (a.modify key purge)
    else (purged, a)

/-- `reclaim`. Each round but the last purges an entry, so there are no more than entries. -/
def reclaim (K : Kernel κ) (fd : Int) (bytes count : Nat) (a : Adapter κ) : Nat × Adapter κ :=
  reclaimLoop K fd bytes count (a.buffers.length + 1) 0 0 a

/-- The entry for a buffer that the driver has made. -/
def add (a : Adapter κ) (fd : Int) (handle size : Nat) (area : Option Nat) : Adapter κ :=
  { a with
    buffers := insert (fd, handle) ⟨area, size, 0, 0, false, false, 0⟩ a.buffers
    trace := .add (fd, handle) :: a.trace }

/-- `kCreateBuffer` -/
def createBuffer (K : Kernel κ) (fd : Int) (size : Nat) (a : Adapter κ) :
    Option (Nat × Nat × Option Nat) × Adapter κ :=
  match a.call K fd (.createBuffer size 0 0) with
  | (.ok (.buffer size handle area), a) => (some (size, handle, area), a)
  | (_, a) => (none, a)

/-- `DRM_IOCTL_I915_GEM_CREATE` -/
def gemCreate (K : Kernel κ) (fd : Int) (size : Nat) (a : Adapter κ) : Result × Adapter κ :=
  match a.createBuffer K fd size with
  | (some (size, handle, area), a) => (.created handle size, a.add fd handle size area)
  | (none, a) =>
    let (freed, a) := a.reclaim K fd size kReclaimBatch
    if freed = 0 then (.fail .driver, a) else
    match a.createBuffer K fd size with
    | (none, a) => (.fail .driver, a)
    | (some (size, handle, area), a) => (.created handle size, a.add fd handle size area)

/-- `DRM_IOCTL_GEM_CLOSE` -/
def gemClose (K : Kernel κ) (fd : Int) (handle : Nat) (a : Adapter κ) : Result × Adapter κ :=
  match a.buffer (fd, handle) with
  | none => (.fail .EINVAL, a)
  | some bo =>
    let erase (a : Adapter κ) : Adapter κ :=
      { a with buffers := a.buffers.filter (·.1 ≠ (fd, handle)) }
    if bo.purged then (.ok, erase a) else
    match a.call K fd (.closeBuffer handle 0) with
    | (.error _, a) => (.fail .driver, a)
    | (.ok _, a) => (.ok, erase a)

/-- A buffer is marked purgeable, and stamped. -/
def mark (key : Key) (a : Adapter κ) : Adapter κ :=
  let a := a.modify key fun bo => { bo with purgeable := true, stamp := a.purgeClock + 1 }
  { a with purgeClock := a.purgeClock + 1, trace := .mark key :: a.trace }

/-- The mark of a buffer is taken off. -/
def unmark (key : Key) (a : Adapter κ) : Adapter κ :=
  let a := a.modify key fun bo => { bo with purgeable := false }
  { a with trace := .unmark key :: a.trace }

/-- `DRM_IOCTL_I915_GEM_MADVISE` -/
def gemMadvise (K : Kernel κ) (fd : Int) (handle : Nat) (dontNeed : Bool) (a : Adapter κ) :
    Result × Adapter κ :=
  match a.buffer (fd, handle) with
  | none => (.fail .EINVAL, a)
  | some bo =>
    if bo.purged then (.retained false, a) else
    if !dontNeed then (.retained true, a.unmark (fd, handle)) else
      let a := a.mark (fd, handle)
      let count := a.buffers.countP (cached fd)
      let a := if kMaxCached < count then (a.reclaim K fd 0 (count - kMaxCached)).2 else a
      (.retained ((a.buffer (fd, handle)).any (!·.purged)), a)

end Adapter

/-- The calls on the descriptors. -/
inductive Call where
  | gemCreate (fd : Int) (size : Nat)
  | gemClose (fd : Int) (handle : Nat)
  | gemMadvise (fd : Int) (handle : Nat) (dontNeed : Bool)

def step {κ : Type*} (K : Kernel κ) : Call → Adapter κ → Adapter κ
  | .gemCreate fd size, a => (a.gemCreate K fd size).2
  | .gemClose fd handle, a => (a.gemClose K fd handle).2
  | .gemMadvise fd handle dontNeed, a => (a.gemMadvise K fd handle dontNeed).2

end Winsys

end IntelGfx
