import Mathlib.Tactic.Common
import Mathlib.Algebra.Group.Nat.Defs
import IntelGfx.Theory.Run

/-!
# Wayland presentation

`present_wayland` of `egl_haiku.cpp`: the three shared memory buffers of each surface of a display,
and the compositor that is given them. A call runs under the lock of the display, so what goes on
during it is the compositor's releases, and of these only the ones that a dispatch or a round trip
of the display's queue delivers change anything here. What the Wayland library, the kernel and the
state tracker answer is an input of a call.

`trace` tells, latest first, what has happened to the buffers.
-/

namespace IntelGfx

namespace Presentation

def INT32_MAX : Nat := 2 ^ 31 - 1
def UINT32_MAX : Nat := 2 ^ 32 - 1

/-- Bytes of a shared memory map. -/
structure Span where
  map : Nat
  offset : Nat
  size : Nat
  deriving DecidableEq

def Span.Overlaps (a b : Span) : Prop :=
  a.map = b.map ∧ ∃ byte, (a.offset ≤ byte ∧ byte < a.offset + a.size) ∧
    b.offset ≤ byte ∧ byte < b.offset + b.size

inductive Event where
  /-- `WL_SHM_POOL_CREATE_BUFFER` has returned a proxy for a buffer in these bytes. -/
  | create (proxy : Nat) (memory : Span)
  /-- `WL_BUFFER_DESTROY` -/
  | destroy (proxy : Nat)
  /-- `util_format_translate` has written pixels there, if there is a there. -/
  | write (memory : Option Span)
  /-- `WL_SURFACE_ATTACH`, `WL_SURFACE_DAMAGE_BUFFER` or `WL_SURFACE_DAMAGE`, and
  `WL_SURFACE_COMMIT` -/
  | commit (proxy : Option Nat) (dx dy : Int) (damageBuffer : Bool) (width height : Nat)
  /-- The compositor sends `wl_buffer.release`. -/
  | release (proxy : Nat)
  /-- `wayland_buffer_release` is called. -/
  | dispatch (proxy : Nat)
  deriving DecidableEq

/-- The buffer was committed, and the compositor has not released it since. -/
def held (proxy : Nat) : List Event → Bool
  | [] => false
  | .commit (some p) .. :: events => p = proxy || held proxy events
  | .release p :: events => p ≠ proxy && held proxy events
  | _ :: events => held proxy events

/-- The buffer was committed, and no release of it has been dispatched since. -/
def unanswered (proxy : Nat) : List Event → Bool
  | [] => false
  | .commit (some p) .. :: events => p = proxy || unanswered proxy events
  | .dispatch p :: events => p ≠ proxy && unanswered proxy events
  | _ :: events => unanswered proxy events

/-- `haiku_wayland_buffer`; `data` is a map and an offset in it. -/
structure Buffer where
  proxy : Option Nat
  data : Option (Nat × Nat)
  busy : Bool
  deriving DecidableEq

/-- `wl_egl_window`, with the version of its `wl_surface`. -/
structure Window where
  dx : Int
  dy : Int
  attachedWidth : Nat
  attachedHeight : Nat
  surfaceVersion : Nat
  deriving DecidableEq

/-- The Wayland part of `haiku_egl_surface`. -/
structure Surface where
  wlWindow : Option Window
  wlBuffers : Fin 3 → Buffer
  wlMap : Option Nat
  wlMapSize : Nat
  wlStride : Nat
  wlWidth : Nat
  wlHeight : Nat
  wlNextBuffer : Fin 3

/-- A surface that has no buffers. -/
def Surface.blank (wlWindow : Option Window) : Surface :=
  ⟨wlWindow, fun _ => ⟨none, none, false⟩, none, 0, 0, 0, 0, 0⟩

def Surface.proxy (surface : Surface) (i : Fin 3) : Option Nat := (surface.wlBuffers i).proxy

/-- The proxies of a surface, the last one first. -/
def Surface.proxies (surface : Surface) : List Nat := [2, 1, 0].filterMap surface.proxy

structure State where
  surfaces : Nat → Surface
  /-- The slot of a surface that is the listener data of a proxy. -/
  listener : Nat → Option (Nat × Fin 3)
  nextProxy : Nat
  nextMap : Nat
  /-- The release events that the compositor has sent and the queue has not dispatched. -/
  queue : List Nat
  trace : List Event

def start : State := ⟨fun _ => .blank none, fun _ => none, 0, 0, [], []⟩

namespace State

def setSurface (s : State) (k : Nat) (surface : Surface) : State :=
  { s with surfaces := Function.update s.surfaces k surface }

def setBuffer (s : State) (k : Nat) (i : Fin 3) (buffer : Buffer) : State :=
  s.setSurface k { s.surfaces k with
    wlBuffers := Function.update (s.surfaces k).wlBuffers i buffer }

def log (s : State) (event : Event) : State := { s with trace := event :: s.trace }

/-! ## The compositor and the queue -/

/-- The compositor releases a buffer, which it may do while it holds it. -/
def release (s : State) (proxy : Nat) : State :=
  if held proxy s.trace then
    { s with queue := s.queue ++ [proxy], trace := .release proxy :: s.trace }
  else s

/-- `wayland_buffer_release`, unless the proxy of the event has been destroyed. -/
def deliver (s : State) (proxy : Nat) : State :=
  match s.listener proxy with
  | none => s
  | some (k, i) =>
    (s.setBuffer k i { (s.surfaces k).wlBuffers i with busy := false }).log (.dispatch proxy)

/-- The first `count` events of the queue are dispatched. -/
def dispatch (s : State) : (count : Nat) → State
  | 0 => s
  | count + 1 =>
    match s.queue with
    | [] => s
    | proxy :: queue => ({ s with queue := queue }.deliver proxy).dispatch count

end State

/-- What happens during `wl_display_roundtrip_queue`: the compositor releases some buffers; the
round trip completes and dispatches whatever has come, or fails after some events. -/
structure Trip where
  releases : List Nat
  completes : Bool
  dispatched : Nat

def roundtripQueue (trip : Trip) (s : State) : Bool × State :=
  let s := trip.releases.foldl State.release s
  if trip.completes then (true, s.dispatch s.queue.length) else (false, s.dispatch trip.dispatched)

/-! ## The buffers of a surface -/

/-- The body of the loop of `destroy_wayland_buffers`. -/
def destroyBuffer (k : Nat) (s : State) (i : Fin 3) : State :=
  let s := match ((s.surfaces k).wlBuffers i).proxy with
    | none => s
    | some proxy =>
      { s with listener := Function.update s.listener proxy none }.log (.destroy proxy)
  s.setBuffer k i ⟨none, none, false⟩

/-- `destroy_wayland_buffers` -/
def destroyWaylandBuffers (k : Nat) (s : State) : State :=
  let s := [0, 1, 2].foldl (destroyBuffer k) s
  s.setSurface k { s.surfaces k with
    wlMap := none, wlMapSize := 0, wlStride := 0, wlWidth := 0, wlHeight := 0, wlNextBuffer := 0 }

/-- What `create_wayland_buffers` is answered: for each buffer, whether there is a proxy and
whether it takes a listener. -/
structure Creation where
  shmFile : Bool
  truncated : Bool
  mapped : Bool
  pool : Bool
  buffers : Fin 3 → Bool × Bool

/-- The loop of `create_wayland_buffers`. -/
def createBuffers (answers : Fin 3 → Bool × Bool) (k map oneSize : Nat) :
    List (Fin 3) → State → Bool × State
  | [], s => (true, s)
  | i :: is, s =>
    if !(answers i).1 then (false, s.setBuffer k i ⟨none, some (map, oneSize * i), false⟩) else
    let proxy := s.nextProxy
    let s := { s with nextProxy := proxy + 1 }.log (.create proxy ⟨map, oneSize * i, oneSize⟩)
    let s := s.setBuffer k i ⟨some proxy, some (map, oneSize * i), false⟩
    if !(answers i).2 then (false, s) else
    createBuffers answers k map oneSize is
      { s with listener := Function.update s.listener proxy (some (k, i)) }

/-- `create_wayland_buffers` -/
def createWaylandBuffers (answers : Creation) (k width height : Nat) (s : State) : Bool × State :=
  let s := destroyWaylandBuffers k s
  if width = 0 ∨ height = 0 ∨ UINT32_MAX / 4 < width then (false, s) else
  let stride := width * 4
  let oneSize := stride * height
  let totalSize := oneSize * 3
  if oneSize = 0 ∨ INT32_MAX < totalSize then (false, s) else
  if !answers.shmFile || !answers.truncated || !answers.mapped then (false, s) else
  let map := s.nextMap
  let s := { s with nextMap := map + 1 }
  if !answers.pool then (false, s) else
  match createBuffers answers.buffers k map oneSize [0, 1, 2] s with
  | (false, s) =>
    (false, destroyWaylandBuffers k (s.setSurface k { s.surfaces k with
      wlMap := some map, wlMapSize := totalSize }))
  | (true, s) =>
    (true, s.setSurface k { s.surfaces k with
      wlMap := some map, wlMapSize := totalSize, wlStride := stride, wlWidth := width,
      wlHeight := height })

/-! ## `present_wayland` -/

/-- What `present_wayland` prints or the call that failed; all but `presented` are `false`. -/
inductive Outcome where
  | presented
  | noWindow
  | noResource
  | noPipe
  | notDispatched
  | noBuffers
  | noRoundtrip
  | retained
  | noPixels
  deriving DecidableEq

/-- The size of a `pipe_resource`. -/
structure Resource where
  width0 : UInt32
  height0 : UInt16

/-- What a call is answered, in the order of its questions. -/
structure Call where
  resource : Option Resource
  pipe : Bool
  /-- How many events `wl_display_dispatch_queue_pending` dispatches, and whether it succeeds. -/
  pending : Nat × Bool
  creation : Creation
  trips : Fin 2 → Trip
  pixels : Bool

/-- Up to the buffers of the right size: the size. -/
def prepare (k : Nat) (call : Call) (s : State) : Except Outcome (Nat × Nat) × State :=
  if (s.surfaces k).wlWindow = none then (.error .noWindow, s) else
  match call.resource with
  | none => (.error .noResource, s)
  | some resource =>
    if !call.pipe then (.error .noPipe, s) else
    let s := s.dispatch call.pending.1
    if !call.pending.2 then (.error .notDispatched, s) else
    let width := resource.width0.toNat
    let height := resource.height0.toNat
    if (s.surfaces k).wlMap = none ∨ (s.surfaces k).wlWidth ≠ width
        ∨ (s.surfaces k).wlHeight ≠ height then
      match createWaylandBuffers call.creation k width height s with
      | (false, s) => (.error .noBuffers, s)
      | (true, s) => (.ok (width, height), s)
    else (.ok (width, height), s)

/-- The inner loop of the search: the first buffer, from `wl_next_buffer` on, that is not busy. -/
def freeBuffer (surface : Surface) : Option (Fin 3) :=
  ([0, 1, 2].map (surface.wlNextBuffer + ·)).find? fun index => !(surface.wlBuffers index).busy

/-- The passes of the search, one for each round trip. -/
def findBuffer (k : Nat) : List Trip → State → Except Outcome (Fin 3) × State
  | [], s => (.error .retained, s)
  | trip :: trips, s =>
    match freeBuffer (s.surfaces k) with
    | some index =>
      (.ok index, s.setSurface k { s.surfaces k with wlNextBuffer := index + 1 })
    | none =>
      match roundtripQueue trip s with
      | (false, s) => (.error .noRoundtrip, s)
      | (true, s) => findBuffer k trips s

/-- The readback into a buffer: what `util_format_translate` writes is `height` rows of `width`
pixels. -/
def writePixels (k width height : Nat) (index : Fin 3) (s : State) : State :=
  let surface := s.surfaces k
  s.log <| .write <| (surface.wlBuffers index).data.map fun data =>
    ⟨data.1, data.2, surface.wlStride * (height - 1) + width * 4⟩

/-- From `buffer->busy = true` on. -/
def commitBuffer (k width height : Nat) (index : Fin 3) (window : Window) (s : State) : State :=
  let buffer := (s.surfaces k).wlBuffers index
  let s := s.setBuffer k index { buffer with busy := true }
  let s := s.log (.commit buffer.proxy window.dx window.dy (4 ≤ window.surfaceVersion) width height)
  s.setSurface k { s.surfaces k with
    wlWindow := some { window with
      attachedWidth := width, attachedHeight := height, dx := 0, dy := 0 } }

/-- `present_wayland` -/
def presentWayland (k : Nat) (call : Call) (s : State) : Outcome × State :=
  match prepare k call s with
  | (.error outcome, s) => (outcome, s)
  | (.ok (width, height), s) =>
    match findBuffer k [call.trips 0, call.trips 1] s with
    | (.error outcome, s) => (outcome, s)
    | (.ok index, s) =>
      if !call.pixels then (.noPixels, s) else
      let s := writePixels k width height index s
      match (s.surfaces k).wlWindow with
      | none => (.noWindow, s)
      | some window => (.presented, commitBuffer k width height index window s)

/-! ## Runs -/

inductive Step where
  /-- `haiku_create_window_surface` -/
  | createSurface (k : Nat) (window : Window)
  /-- `haiku_destroy_surface` -/
  | destroySurface (k : Nat)
  /-- `wayland_window_destroyed` -/
  | windowDestroyed (k : Nat)
  /-- `wl_egl_window_resize`; the size is that of the next resource. -/
  | resize (k : Nat) (dx dy : Int)
  | present (k : Nat) (call : Call)
  /-- The compositor releases a buffer. -/
  | release (proxy : Nat)

def step : Step → State → State
  | .createSurface k window, s =>
    if (s.surfaces k).wlWindow = none ∧ (s.surfaces k).wlMap = none then
      s.setSurface k { s.surfaces k with wlWindow := some window }
    else s
  | .destroySurface k, s =>
    let s := destroyWaylandBuffers k s
    s.setSurface k { s.surfaces k with wlWindow := none }
  | .windowDestroyed k, s => s.setSurface k { s.surfaces k with wlWindow := none }
  | .resize k dx dy, s =>
    s.setSurface k { s.surfaces k with
      wlWindow := (s.surfaces k).wlWindow.map fun window => { window with dx := dx, dy := dy } }
  | .present k call, s => (presentWayland k call s).2
  | .release proxy, s => s.release proxy

end Presentation

end IntelGfx
