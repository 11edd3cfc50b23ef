import IntelGfx.Kernel.RenderClient

/-!
# The device

`kernel/device.cpp`: what opening and closing the device sets up and takes down. The global GTT and
the two masters come with the first open and go with the last close, unless an engine has hung.
`intel_extreme_init` is there only as a call that may fail. What it and
`INTEL_ALLOCATE_GRAPHICS_MEMORY` have `agp_gart` write into the page table of the device is there as
calls of its own, which may come at any time: before the first open they are what
`intel_extreme_init` allocates.
-/

namespace IntelGfx

/-- What `init_graphics_translation_table` finds, and whether the device is one on which a client is
granted native rendering. -/
structure Config where
  registers : Nat
  barSize : Nat
  generation : Nat
  tableSize : Nat
  reserved : Nat
  nativeRender : Bool

structure Device where
  config : Config
  mem : Memory
  masters : Masters
  clients : Nat → Option RenderClient
  nextClient : Nat
  openCount : Nat

namespace Memory

/-- A system in which the driver has not done anything yet: the page table of the device as the
firmware left it, and the pages that are not the driver's. -/
def start (entries : Nat → Nat) (foreign : List Nat) : Memory where
  machine := ⟨{ Os.empty with foreign := foreign }, .new entries⟩
  objects := fun _ => none
  tables := fun _ => none

/-- `GlobalGTT::Init`. -/
def initGTT (ω : Oracle) (m : Memory) (config : Config) : Except Error Unit × Memory :=
  let (status, os, gtt) := m.gtt.init ω m.os Owner.gtt config.registers config.barSize
    config.generation config.tableSize config.reserved
  (status, { m with machine := ⟨os, gtt⟩ })

/-- `agp_gart` writes an entry of the page table of the device. It has none of those that
`GlobalGTT` manages. -/
def gart (m : Memory) (page entry : Nat) : Memory :=
  if m.gtt.firstPage ≤ page ∧ page < m.gtt.firstPage + m.gtt.pageCount then m else
  { m with machine := ⟨m.os, m.gtt.writeEntry page entry⟩ }

/-- `GlobalGTT::~GlobalGTT`. -/
def deleteGTT (m : Memory) : Memory :=
  let (os, gtt) := m.gtt.destroy m.os
  { m with machine := ⟨os, gtt⟩ }

end Memory

/-- `create_engine`, and what the constructor of a client does for each of its engines. -/
def createEngine (ω : Oracle) (m : Memory) (id : ContextId) (engine : EngineId) :
    Option RenderEngine × Memory :=
  match m.allocate ω with
  | (.error _, m) => (none, m)
  | (.ok (), m) =>
    match (RenderEngine.new id engine (.ownTables id)).init ω m with
    | (.error _, x, m) => (none, x.destroy m)
    | (.ok (), x, m) => (some x, m)

namespace RenderClient

/-- The loop of the constructor over the engines. -/
def createEngines (ω : Oracle) (id : Nat) (masters : Masters) : List EngineId → Memory →
    (EngineId → Option RenderEngine) × Memory
  | [], m => (fun _ => none, m)
  | e :: rest, m =>
    let (x, m) := if m.gtt.isValid && (masters e).any (·.isReady masters) then
        createEngine ω m (.legacy id e) e
      else (none, m)
    let (engines, m) := createEngines ω id masters rest m
    (Function.update engines e x, m)

/-- `RenderClient::RenderClient`. -/
def new (ω : Oracle) (id : Nat) (config : Config) (masters : Masters) (m : Memory) :
    RenderClient × Memory :=
  let (engines, m) := createEngines ω id masters [.blitter, .render] m
  ({ id := id
     gtt := m.gtt.isValid
     nativeRender := config.nativeRender && (engines .render).any (·.isReady masters)
     engines := engines
     buffers := fun _ => none
     handles := fun _ => 0
     nextHandle := 1
     allocated := 0
     bound := 0
     native := none }, m)

end RenderClient

namespace Session

/-- `~NativeState`. -/
def destroyNative (s : Session) : Memory :=
  match s.client.native with
  | none => s.mem
  | some n =>
    let contexts := (List.range kMaxContexts).filterMap n.contexts
    (contexts.foldl (fun m x => x.destroy m) s.mem).deleteTables (.vm s.client.id)

/-- The loop of the destructor over the buffers. -/
def destroyBuffers (ω : Oracle) (engines : List RenderEngine) : List Owner → Memory → Memory
  | [], m => m
  | buffer :: buffers, m =>
    let m := if m.isBound buffer then
        unmapEngines ω (m.graphicsAddress buffer) (m.size buffer) engines m
      else m
    destroyBuffers ω engines buffers (m.deleteObject buffer)

/-- Whether the destructor quarantines what the client holds. -/
def quarantined (s : Session) : Bool :=
  s.client.native.any (·.faulted) ||
    [EngineId.blitter, .render].any fun e => (s.client.engines e).any (·.isFaulted)

/-- `RenderClient::~RenderClient`. -/
def destroy (ω : Oracle) (s : Session) : Memory :=
  if s.quarantined then s.mem else
  let buffers := (List.range kMaxBuffers).filterMap s.client.buffers
  let m := destroyBuffers ω s.readyEngines buffers s.destroyNative
  ([EngineId.blitter, .render].filterMap s.client.engines).foldl (fun m x => x.destroy m) m

end Session

namespace Device

/-- The device before it is opened for the first time. -/
def start (config : Config) (entries : Nat → Nat) (foreign : List Nat) : Device where
  config := config
  mem := .start entries foreign
  masters := fun _ => none
  clients := fun _ => none
  nextClient := 0
  openCount := 0

/-- `init_graphics_translation_table`. -/
def initGTT (ω : Oracle) (d : Device) : Device :=
  if d.mem.gtt.isValid then d else
  match d.mem.allocate ω with
  | (.error _, m) => { d with mem := m }
  | (.ok (), m) =>
    match m.initGTT ω d.config with
    | (.error _, m) => { d with mem := m }
    | (.ok (), m) =>
      let (blitter, m) := createEngine ω m (.master .blitter) .blitter
      let (render, m) := createEngine ω m (.master .render) .render
      { d with mem := m, masters := fun | .blitter => blitter | .render => render }

/-- `uninit_device`. -/
def uninit (d : Device) : Device :=
  if [EngineId.blitter, .render].any fun e => (d.masters e).any (·.isFaulted) then d else
  let m := ([EngineId.render, .blitter].filterMap d.masters).foldl (fun m x => x.destroy m) d.mem
  { d with mem := m.deleteGTT, masters := fun _ => none }

/-- `device_open`. -/
def openClient (ω : Oracle) (d : Device) : Device :=
  -- `intel_extreme_init`, on the first open
  let (status, m) := if d.openCount = 0 then d.mem.allocate ω else (.ok (), d.mem)
  match status with
  | .error _ => { d with mem := m }
  | .ok () =>
    let d := initGTT ω { d with mem := m }
    match d.mem.allocate ω with
    | (.error _, m) =>
      let d := { d with mem := m }
      if d.openCount = 0 then d.uninit else d
    | (.ok (), m) =>
      let (client, m) := RenderClient.new ω d.nextClient d.config d.masters m
      { d with
        mem := m
        clients := Function.update d.clients d.nextClient (some client)
        nextClient := d.nextClient + 1
        openCount := d.openCount + 1 }

def session (d : Device) (client : RenderClient) : Session := ⟨client, d.masters, d.mem⟩

/-- `device_ioctl`, for the requests of the driver's own clients. -/
def ioctl (ω : Oracle) (d : Device) (c : Nat) (header : Header) (request : Request) :
    Except Error Reply × Device :=
  match d.clients c with
  | none => (.error .badValue, d)
  | some client =>
    let (r, s) := (d.session client).ioctl ω header request
    (r, { d with
      mem := s.mem
      masters := s.masters
      clients := Function.update d.clients c (some s.client) })

/-- `device_free`. -/
def closeClient (ω : Oracle) (d : Device) (c : Nat) : Device :=
  match d.clients c with
  | none => d
  | some client =>
    let d := { d with
      mem := (d.session client).destroy ω
      clients := Function.update d.clients c none
      openCount := d.openCount - 1 }
    if d.openCount = 0 then d.uninit else d

/-- What the users of the device do, and what `agp_gart` does for the display driver. -/
inductive Call where
  | open
  | ioctl (client : Nat) (header : Header) (request : Request)
  | close (client : Nat)
  | gart (page entry : Nat)

def step (call : Call × Oracle) (d : Device) : Device :=
  let d := { d with mem := d.mem.enter }
  match call with
  | (.open, ω) => openClient ω d
  | (.ioctl c header request, ω) => (d.ioctl ω c header request).2
  | (.close c, ω) => d.closeClient ω c
  | (.gart page entry, _) => { d with mem := d.mem.gart page entry }

end Device

end IntelGfx
