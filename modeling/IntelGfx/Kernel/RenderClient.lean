import IntelGfx.Kernel.RenderEngine

/-!
# Clients

`kernel/RenderClient.cpp`: what an open of the device holds and the operations it can ask for. A
`Session` is a client at work, with the masters and the memory that it shares with the others.

Requests that only report something (`kGetInfo`, `kDisplayStatus`, `kGetTopology`, `kGpuActivity`)
are modelled up to the data they report. Processor caches are left out.
-/

namespace IntelGfx

/-! ## The ABI -/

def kABIVersion : Nat := 8
def kMaxBufferSize : Nat := 64 * 1024 * 1024
def kClientMemoryLimit : Nat := 1024 * 1024 * 1024
def kClientApertureLimit : Nat := 64 * 1024 * 1024
def kMaxBuffers : Nat := 256
def kMaxContexts : Nat := 16
def kVirtualAddressLimit : Nat := 2 ^ 47

/-- What `kFramebuffer` reads from the `intel_shared_info` that the accelerant writes to. -/
structure SharedInfo where
  frameBuffer : Nat
  frameBufferOffset : Nat
  bytesPerRow : Nat
  virtualWidth : Nat
  virtualHeight : Nat
  bitsPerPixel : Nat
  deriving DecidableEq, Repr

/-- The fields of the requests that are read. `kFramebuffer` reads none, but what it finds in the
shared info may be different each time. -/
inductive Request where
  | getInfo
  | createBuffer (size flags reserved : Nat)
  | closeBuffer (handle reserved : Nat)
  | bindBuffer (handle flags graphicsAddress : Nat)
  | unbindBuffer (handle reserved : Nat)
  | submit (handle flags offset length fence : Nat)
  | waitFence (fence timeout : Nat)
  | engineStatus (statusBuffer : Nat)
  | readRegister (offset value : Nat)
  | framebuffer (shared : Option SharedInfo)
  | displayStatus
  | createContext (context flags : Nat)
  | destroyContext (context reserved : Nat)
  | bindVirtual (handle flags address : Nat)
  | unbindVirtual (handle reserved : Nat)
  | submitObjects (context batchHandle offset length fence count flags : Nat) (handles : Nat → Nat)
  | waitRenderFence (fence timeout : Nat)
  | bufferLayout (handle tiling stride reserved : Nat)
  | cacheBuffer (handle reserved offset length : Nat)
  | getTopology
  | gpuActivity

namespace Request

/-- `sizeof` the request. -/
def sizeof : Request → Nat
  | getInfo => 56
  | createBuffer .. => 32
  | closeBuffer .. => 16
  | bindBuffer .. => 24
  | unbindBuffer .. => 16
  | submit .. => 40
  | waitFence .. => 24
  | engineStatus .. => 152
  | readRegister .. => 16
  | framebuffer .. => 32
  | displayStatus => 64
  | createContext .. => 16
  | destroyContext .. => 16
  | bindVirtual .. => 24
  | unbindVirtual .. => 16
  | submitObjects .. => 1072
  | waitRenderFence .. => 24
  | bufferLayout .. => 24
  | cacheBuffer .. => 32
  | getTopology => 48
  | gpuActivity => 288

/-- `operation >= kCreateContext`. -/
def isNative : Request → Bool
  | createContext .. | destroyContext .. | bindVirtual .. | unbindVirtual .. | submitObjects ..
  | waitRenderFence .. | bufferLayout .. | cacheBuffer .. | getTopology => true
  | _ => false

end Request

/-- The length of a request and the header it starts with. -/
structure Header where
  length : Nat
  version : Nat
  size : Nat

/-- What a request reports. -/
inductive Reply where
  | none
  | buffer (size handle : Nat) (area : Option Nat)
  | address (graphicsAddress : Nat)
  | fence (fence : Nat)
  | context (context : Nat)
  | framebuffer (address pitch width height bitsPerPixel : Nat)
  | engineStatus (status : EngineStatus)
  | register (value : Nat)
  deriving DecidableEq, Repr

/-- `a - b` on 64 bits. -/
def sub64 (a b : Nat) : Nat := (a + 2 ^ 64 - b) % 2 ^ 64

/-! ## Clients -/

/-- `RenderClient::NativeState`; its `vm` is the page tables `Owner.vm`. -/
structure NativeState where
  contexts : Nat → Option RenderEngine
  ids : Nat → Nat
  nextContext : Nat
  addresses : Nat → Nat
  tiling : Nat → Nat
  stride : Nat → Nat
  completed : Nat
  faulted : Bool

/-- `NativeState::NativeState`. -/
def NativeState.new : NativeState where
  contexts := fun _ => none
  ids := fun _ => 0
  nextContext := 1
  addresses := fun _ => 0
  tiling := fun _ => 0
  stride := fun _ => 0
  completed := 0
  faulted := false

/-- `gtt` tells whether `fGTT` is set and `nativeRender` whether the client was granted that
capability. -/
structure RenderClient where
  id : Nat
  gtt : Bool
  nativeRender : Bool
  engines : EngineId → Option RenderEngine
  buffers : Nat → Option Owner
  handles : Nat → Nat
  nextHandle : Nat
  allocated : Nat
  bound : Nat
  native : Option NativeState

structure Session where
  client : RenderClient
  masters : Masters
  mem : Memory

namespace Session

/-- What an operation returns. -/
abbrev Result := Except Error Reply × Session

def setMem (s : Session) (m : Memory) : Session := { s with mem := m }

/-- The engines of the client that are there and ready. -/
def readyEngines (s : Session) : List RenderEngine :=
  [EngineId.blitter, .render].filterMap fun i => (s.client.engines i).filter (·.isReady s.masters)

/-- `_Engine`. -/
def engine (s : Session) (flags : Nat) : Option RenderEngine :=
  (s.client.engines (if flags % 2 = 1 then .render else .blitter)).filter (·.isReady s.masters)

/-- `_Find`, with the slot. -/
def find (s : Session) (handle : Nat) : Option (Nat × Owner) :=
  (List.range kMaxBuffers).findSome? fun i =>
    if s.client.handles i = handle then (s.client.buffers i).map ((i, ·)) else none

/-- `ReadRequest`. -/
def readRequest (ω : Oracle) (s : Session) (header : Header) (size : Nat) :
    Except Error Unit × Session :=
  if header.length ≠ size then (.error .badValue, s) else
  match s.mem.userMemcpy ω with
  | (.error _, m) => (.error .badAddress, s.setMem m)
  | (.ok (), m) =>
    if header.version ≠ kABIVersion ∨ header.size ≠ size then (.error .badValue, s.setMem m)
    else (.ok (), s.setMem m)

/-- `return user_memcpy(userBuffer, &request, sizeof(request))`. -/
def reply (ω : Oracle) (s : Session) (r : Reply) : Result :=
  match s.mem.userMemcpy ω with
  | (.error e, m) => (.error e, s.setMem m)
  | (.ok (), m) => (.ok r, s.setMem m)

/-- A status without anything to report. -/
def done (s : Session) : Except Error Unit × Memory → Result
  | (.error e, m) => (.error e, s.setMem m)
  | (.ok (), m) => (.ok .none, s.setMem m)

/-! ### Buffers -/

/-- The loops that call `UnmapBuffer`. -/
def unmapEngines (ω : Oracle) (address size : Nat) : List RenderEngine → Memory → Memory
  | [], m => m
  | e :: engines, m => unmapEngines ω address size engines (e.unmapBuffer ω m address size).2

/-- The loop of `kBindBuffer`, and how many pages it mapped. -/
def mapEngines (ω : Oracle) (area : Option Nat) (address : Nat) : List RenderEngine → Memory →
    Except Error Unit × Nat × Memory
  | [], m => (.ok (), 0, m)
  | e :: engines, m =>
    match e.mapBuffer ω m area address with
    | (.error s, done, m) => (.error s, done, m)
    | (.ok (), done, m) =>
      let (status, more, m) := mapEngines ω area address engines m
      (status, done + more, m)

/-- A slot of the native state is reset. -/
def clearSlot (s : Session) (n : NativeState) (slot : Nat) (m : Memory) : Session :=
  let n := { n with
    addresses := Function.update n.addresses slot 0
    tiling := Function.update n.tiling slot 0
    stride := Function.update n.stride slot 0 }
  { s with client := { s.client with native := some n }, mem := m }

/-- `_UnmapVirtual`. -/
def unmapVirtual (ω : Oracle) (s : Session) (slot : Nat) (buffer : Owner) :
    Except Error Unit × Session :=
  match s.client.native with
  | none => (.ok (), s)
  | some n =>
    if n.addresses slot = 0 then (.ok (), s.clearSlot n slot s.mem) else
    match s.mem.unmap ω (.vm s.client.id) (n.addresses slot) (s.mem.size buffer) with
    | (.error e, m) => (.error e, s.setMem m)
    | (.ok (), m) => (.ok (), s.clearSlot n slot m)

def createBuffer (ω : Oracle) (s : Session) (size flags reserved : Nat) : Result :=
  let c := s.client
  if flags ≠ 0 ∨ reserved ≠ 0 ∨ size = 0 ∨ kMaxBufferSize < size ∨ c.nextHandle = 0 then
    (.error .badValue, s) else
  let size := pageRound size
  if sub64 kClientMemoryLimit c.allocated < size then (.error .noMemory, s) else
  match (List.range kMaxBuffers).find? fun i => (c.buffers i).isNone with
  | none => (.error .noMemory, s)
  | some slot =>
    match s.mem.allocate ω with
    | (.error e, m) => (.error e, s.setMem m)
    | (.ok (), m) =>
      let buffer := Owner.buffer c.id c.nextHandle
      match m.newObject ω buffer size with
      | (.error e, m) => (.error e, s.setMem m)
      | (.ok (), m) =>
        let handle := c.nextHandle
        let c := { c with nextHandle := (c.nextHandle + 1) % 2 ^ 32 }
        match m.userMemcpy ω with
        | (.error e, m) => (.error e, { s with client := c, mem := m.deleteObject buffer })
        | (.ok (), m) =>
          (.ok (.buffer size handle (m.area buffer)), { s with
            client := { c with
              buffers := Function.update c.buffers slot (some buffer)
              handles := Function.update c.handles slot handle
              allocated := c.allocated + size }
            mem := m })

/-- A buffer that is about to be closed is taken out of the page tables of the engines. -/
def leaveEngines (ω : Oracle) (s : Session) (buffer : Owner) : Session :=
  if s.mem.isBound buffer then
    let size := s.mem.size buffer
    { s with
      client := { s.client with bound := sub64 s.client.bound size }
      mem := unmapEngines ω (s.mem.graphicsAddress buffer) size s.readyEngines s.mem }
  else s

def closeBuffer (ω : Oracle) (s : Session) (handle reserved : Nat) : Result :=
  if reserved ≠ 0 ∨ handle = 0 then (.error .badValue, s) else
  match s.find handle with
  | none => (.error .entryNotFound, s)
  | some (slot, buffer) =>
    match (s.leaveEngines ω buffer).unmapVirtual ω slot buffer with
    | (.error e, s) => (.error e, s)
    | (.ok (), s) =>
      let c := s.client
      (.ok .none, { s with
        client := { c with
          buffers := Function.update c.buffers slot none
          handles := Function.update c.handles slot 0
          allocated := sub64 c.allocated (s.mem.size buffer) }
        mem := s.mem.deleteObject buffer })

def bindBuffer (ω : Oracle) (s : Session) (handle flags graphicsAddress : Nat) : Result :=
  let c := s.client
  if flags ≠ 0 ∨ handle = 0 ∨ graphicsAddress ≠ 0 then (.error .badValue, s) else
  if !c.gtt || !s.mem.gtt.isValid then (.error .notSupported, s) else
  match s.find handle with
  | none => (.error .entryNotFound, s)
  | some (slot, buffer) =>
    if c.native.any (·.addresses slot ≠ 0) || s.mem.isBound buffer then (.error .busy, s) else
    if sub64 kClientApertureLimit c.bound < s.mem.size buffer then (.error .noMemory, s) else
    match s.mem.bindObject ω buffer with
    | (.error e, m) => (.error e, s.setMem m)
    | (.ok (), m) =>
      match mapEngines ω (m.area buffer) (m.graphicsAddress buffer) s.readyEngines m with
      | (.error e, _, m) => (.error e, s.setMem (m.unbindObject buffer).2)
      | (.ok (), _, m) =>
        match m.userMemcpy ω with
        | (.error e, m) => (.error e, s.setMem (m.unbindObject buffer).2)
        | (.ok (), m) =>
          (.ok (.address (m.graphicsAddress buffer)), { s with
            client := { c with bound := c.bound + m.size buffer }, mem := m })

def unbindBuffer (ω : Oracle) (s : Session) (handle reserved : Nat) : Result :=
  if reserved ≠ 0 ∨ handle = 0 then (.error .badValue, s) else
  match s.find handle with
  | none => (.error .entryNotFound, s)
  | some (_, buffer) =>
    if !s.mem.isBound buffer then (.error .badValue, s) else
    let size := s.mem.size buffer
    let address := s.mem.graphicsAddress buffer
    let (status, m) := s.mem.unbindObject buffer
    { s with client := { s.client with bound := sub64 s.client.bound size } }.done
      (status, unmapEngines ω address size s.readyEngines m)

/-! ### The engines of the client -/

/-- What a submission hands to `Submit`, and the state it is called in. -/
structure Handed where
  session : Session
  context : RenderEngine
  address : Nat
  length : Nat

/-- `kSubmit` up to the call of `Submit`. -/
def handSubmit (s : Session) (handle flags offset length fence : Nat) : Except Error Handed :=
  if flags / 2 ≠ 0 ∨ handle = 0 ∨ fence ≠ 0 ∨ offset % 4 ≠ 0 ∨ length = 0 ∨ length % 4 ≠ 0 then
    .error .badValue else
  match s.engine flags with
  | none => .error .notSupported
  | some e =>
    match s.find handle with
    | none => .error .entryNotFound
    | some (_, buffer) =>
      if !s.mem.isBound buffer then .error .badValue else
      let size := s.mem.size buffer
      if size ≤ offset ∨ size - offset < length then .error .badValue else
      .ok ⟨s, e, s.mem.graphicsAddress buffer + offset, length⟩

/-- The call of `Submit`. -/
def Handed.submit (ω : Oracle) (k : Handed) :
    Except Error Nat × RenderEngine × Masters × Memory :=
  k.context.submit ω k.session.masters k.session.mem k.address (k.length % 2 ^ 32)

def submit (ω : Oracle) (s : Session) (handle flags offset length fence : Nat) : Result :=
  match s.handSubmit handle flags offset length fence with
  | .error e => (.error e, s)
  | .ok k =>
    let (status, e, masters, m) := k.submit ω
    let s := { s with
      client := { s.client with engines := Function.update s.client.engines e.engine (some e) }
      masters := masters
      mem := m }
    match status with
    | .error e => (.error e, s)
    | .ok fence => s.reply ω (.fence (fence + flags % 2 * 2 ^ 32))

def waitFence (ω : Oracle) (s : Session) (fence timeout : Nat) : Result :=
  if 1 < fence / 2 ^ 32 then (.error .badValue, s) else
  match s.engine (fence / 2 ^ 32) with
  | none => (.error .notSupported, s)
  | some e =>
    if 10000000 < timeout then (.error .badValue, s) else
    s.done (e.wait ω s.mem (fence % 2 ^ 32) timeout)

def engineStatus (ω : Oracle) (s : Session) (statusBuffer : Nat) : Result :=
  match s.engine statusBuffer with
  | none => (.error .notSupported, s)
  | some e =>
    match e.status ω s.mem with
    | (.error e, m) => (.error e, s.setMem m)
    | (.ok status, m) => (s.setMem m).reply ω (.engineStatus status)

def readRegister (ω : Oracle) (s : Session) (offset value : Nat) : Result :=
  if value ≠ 0 ∨ offset % 4 ≠ 0 ∨ 2 * 1024 * 1024 ≤ offset then (.error .badValue, s) else
  s.reply ω (.register (ω.register offset))

/-- The loop of `kFramebuffer`. -/
def mapGlobalRanges (ω : Oracle) (address size : Nat) : List RenderEngine → Memory →
    Except Error Unit × Memory
  | [], m => (.ok (), m)
  | e :: engines, m =>
    match e.mapGlobalRange ω m address size with
    | (.error s, m) => (.error s, m)
    | (.ok (), m) => mapGlobalRanges ω address size engines m

def framebuffer (ω : Oracle) (s : Session) : Option SharedInfo → Result
  | none => (.error .notSupported, s)
  | some shared =>
    if shared.frameBuffer = 0 ∨ shared.bytesPerRow = 0 then (.error .notSupported, s) else
    let address := shared.frameBufferOffset
    let pitch := shared.bytesPerRow
    let height := shared.virtualHeight
    let engines := if s.client.gtt then s.readyEngines else []
    match mapGlobalRanges ω address (pitch * height) engines s.mem with
    | (.error e, m) => (.error e, s.setMem m)
    | (.ok (), m) =>
      (s.setMem m).reply ω
        (.framebuffer address pitch shared.virtualWidth height shared.bitsPerPixel)

/-! ### The native interface -/

def createContext (ω : Oracle) (s : Session) (n : NativeState) (context flags : Nat) : Result :=
  if context ≠ 0 ∨ flags ≠ 0 then (.error .badValue, s) else
  match (List.range kMaxContexts).find? fun i => (n.contexts i).isNone with
  | none => (.error .noMemory, s)
  | some slot =>
    if n.nextContext = 0 then (.error .noMemory, s) else
    match s.mem.allocate ω with
    | (.error e, m) => (.error e, s.setMem m)
    | (.ok (), m) =>
      let x := RenderEngine.new (.native s.client.id n.nextContext) .render (.vm s.client.id)
      match x.init ω m with
      | (.error e, x, m) => (.error e, s.setMem (x.destroy m))
      | (.ok (), x, m) =>
        let id := n.nextContext
        let n := { n with nextContext := (n.nextContext + 1) % 2 ^ 32 }
        match m.userMemcpy ω with
        | (.error e, m) =>
          (.error e, { s with client := { s.client with native := some n }, mem := x.destroy m })
        | (.ok (), m) =>
          let n := { n with
            contexts := Function.update n.contexts slot (some x)
            ids := Function.update n.ids slot id }
          (.ok (.context id), { s with client := { s.client with native := some n }, mem := m })

def destroyContext (s : Session) (n : NativeState) (context reserved : Nat) : Result :=
  if context = 0 ∨ reserved ≠ 0 then (.error .badValue, s) else
  match (List.range kMaxContexts).find? fun i => n.ids i = context with
  | none => (.error .entryNotFound, s)
  | some slot =>
    let m := match n.contexts slot with
      | none => s.mem
      | some x => x.destroy s.mem
    let n := { n with
      contexts := Function.update n.contexts slot none
      ids := Function.update n.ids slot 0 }
    (.ok .none, { s with client := { s.client with native := some n }, mem := m })

/-- The overlap check of `kBindVirtual`. -/
def overlaps (s : Session) (n : NativeState) (address size : Nat) : Bool :=
  (List.range kMaxBuffers).any fun i =>
    n.addresses i ≠ 0 && address < n.addresses i + (s.client.buffers i).elim 0 s.mem.size
      && n.addresses i < address + size

def bindVirtual (ω : Oracle) (s : Session) (n : NativeState) (handle flags address : Nat) :
    Result :=
  if flags ≠ 0 ∨ handle = 0 ∨ address = 0 ∨ kVirtualAddressLimit ≤ address ∨ address % 4096 ≠ 0 then
    (.error .badValue, s) else
  match s.find handle with
  | none => (.error .entryNotFound, s)
  | some (slot, buffer) =>
    if kVirtualAddressLimit - address < s.mem.size buffer then (.error .badValue, s) else
    if n.addresses slot = address then (.ok .none, s) else
    if n.addresses slot ≠ 0 || s.mem.isBound buffer then (.error .busy, s) else
    if s.overlaps n address (s.mem.size buffer) then (.error .busy, s) else
    match s.mem.map ω (.vm s.client.id) (s.mem.area buffer) address with
    | (.error e, _, m) =>
      (.error e, s.setMem (m.unmap ω (.vm s.client.id) address (m.size buffer)).2)
    | (.ok (), _, m) =>
      let n := { n with addresses := Function.update n.addresses slot address }
      (.ok .none, { s with client := { s.client with native := some n }, mem := m })

def unbindVirtual (ω : Oracle) (s : Session) (handle reserved : Nat) : Result :=
  if reserved ≠ 0 ∨ handle = 0 then (.error .badValue, s) else
  match s.find handle with
  | none => (.error .entryNotFound, s)
  | some (slot, buffer) =>
    match s.unmapVirtual ω slot buffer with
    | (.error e, s) => (.error e, s)
    | (.ok (), s) => (.ok .none, s)

def bufferLayout (s : Session) (n : NativeState) (handle tiling stride reserved : Nat) : Result :=
  if reserved ≠ 0 ∨ 2 < tiling ∨
      tiling ≠ 0 ∧ (stride = 0 ∨ stride % (if tiling = 1 then 512 else 128) ≠ 0) then
    (.error .badValue, s) else
  match s.find handle with
  | none => (.error .entryNotFound, s)
  | some (slot, buffer) =>
    if s.mem.size buffer < stride then (.error .badValue, s) else
    let n := { n with
      tiling := Function.update n.tiling slot tiling
      stride := Function.update n.stride slot stride }
    (.ok .none, { s with client := { s.client with native := some n } })

def getTopology (ω : Oracle) (s : Session) : Result :=
  match s.engine 1 with
  | none => (.error .notSupported, s)
  | some _ => s.reply ω .none

def cacheBuffer (s : Session) (handle reserved offset length : Nat) : Result :=
  if reserved ≠ 0 then (.error .badValue, s) else
  match s.find handle with
  | none => (.error .entryNotFound, s)
  | some (_, buffer) =>
    if s.mem.size buffer < offset ∨ s.mem.size buffer - offset < length then (.error .badValue, s)
    else (.ok .none, s)

def waitRenderFence (s : Session) (n : NativeState) (fence timeout : Nat) : Result :=
  if fence = 0 ∨ n.completed < fence ∨ 10000000 < timeout then (.error .badValue, s)
  else (.ok .none, s)

/-- The loop of `kSubmitObjects` over the named buffers: each is bound, none is named twice, and the
batch is among them. -/
def checkObjects (s : Session) (n : NativeState) (batchHandle : Nat) (handles : List Nat) : Bool :=
  handles.all (fun h => (s.find h).any fun b => n.addresses b.1 ≠ 0) && decide handles.Nodup
    && handles.contains batchHandle

/-- `kSubmitObjects` up to the call of `Submit`, with the place of the context. -/
def handObjects (s : Session) (n : NativeState)
    (context batchHandle offset length fence count flags : Nat) (handles : Nat → Nat) :
    Except Error (Nat × Handed) :=
  if flags ≠ 0 ∨ fence ≠ 0 ∨ context = 0 ∨ count = 0 ∨ kMaxBuffers < count ∨ length = 0
      ∨ offset % 8 ≠ 0 ∨ length % 4 ≠ 0 then .error .badValue else
  match (List.range kMaxContexts).reverse.find? fun i => n.ids i = context with
  | none => .error .entryNotFound
  | some place =>
    match n.contexts place with
    | none => .error .entryNotFound
    | some x =>
      match s.find batchHandle with
      | none => .error .entryNotFound
      | some (slot, batch) =>
        let size := s.mem.size batch
        if size ≤ offset ∨ size - offset < length then .error .badValue else
        if !s.checkObjects n batchHandle ((List.range count).map handles) then .error .badValue else
        .ok (place, ⟨s, x, n.addresses slot + offset, length⟩)

def submitObjects (ω : Oracle) (s : Session) (n : NativeState)
    (context batchHandle offset length fence count flags : Nat) (handles : Nat → Nat) : Result :=
  match s.handObjects n context batchHandle offset length fence count flags handles with
  | .error e => (.error e, s)
  | .ok (place, k) =>
    let (status, x, masters, m) := k.submit ω
    let n := { n with contexts := Function.update n.contexts place (some x) }
    match status with
    | .error e =>
      let n := { n with faulted := x.isFaulted }
      (.error e, ⟨{ s.client with native := some n }, masters, m⟩)
    | .ok _ =>
      let n := { n with completed := (n.completed + 1) % 2 ^ 64 }
      Session.reply ω ⟨{ s.client with native := some n }, masters, m⟩ (.fence n.completed)

/-! ### `Ioctl` -/

/-- `_GpuActivity`. -/
def gpuActivity (ω : Oracle) (s : Session) : Result :=
  if s.readyEngines.isEmpty then (.error .notSupported, s) else s.reply ω .none

/-- The requests that `_NativeIoctl` is not asked for. -/
def legacyRequest (ω : Oracle) (s : Session) : Request → Result
  | .getInfo => s.reply ω .none
  | .createBuffer size flags reserved => s.createBuffer ω size flags reserved
  | .closeBuffer handle reserved => s.closeBuffer ω handle reserved
  | .bindBuffer handle flags graphicsAddress => s.bindBuffer ω handle flags graphicsAddress
  | .unbindBuffer handle reserved => s.unbindBuffer ω handle reserved
  | .submit handle flags offset length fence => s.submit ω handle flags offset length fence
  | .waitFence fence timeout => s.waitFence ω fence timeout
  | .engineStatus statusBuffer => s.engineStatus ω statusBuffer
  | .readRegister offset value => s.readRegister ω offset value
  | .framebuffer shared => s.framebuffer ω shared
  | .displayStatus => s.reply ω .none
  | _ => (.error .devInvalidIoctl, s)

/-- The requests of the native interface. -/
def nativeRequest (ω : Oracle) (s : Session) (n : NativeState) : Request → Result
  | .createContext context flags => s.createContext ω n context flags
  | .destroyContext context reserved => s.destroyContext n context reserved
  | .bindVirtual handle flags address => s.bindVirtual ω n handle flags address
  | .unbindVirtual handle reserved => s.unbindVirtual ω handle reserved
  | .submitObjects context batchHandle offset length fence count flags handles =>
    s.submitObjects ω n context batchHandle offset length fence count flags handles
  | .waitRenderFence fence timeout => s.waitRenderFence n fence timeout
  | .bufferLayout handle tiling stride reserved => s.bufferLayout n handle tiling stride reserved
  | .cacheBuffer handle reserved offset length => s.cacheBuffer handle reserved offset length
  | .getTopology => s.getTopology ω
  | _ => (.error .devInvalidIoctl, s)

/-- The native state, made on first use. -/
def nativeState (ω : Oracle) (s : Session) : Except Error NativeState × Session :=
  match s.client.native with
  | some n => (.ok n, s)
  | none =>
    match s.mem.allocate ω with
    | (.error e, m) => (.error e, s.setMem m)
    | (.ok (), m) =>
      match m.newTables ω (.vm s.client.id) with
      | (.error e, m) => (.error e, s.setMem m)
      | (.ok (), m) =>
        (.ok .new, { s with client := { s.client with native := some .new }, mem := m })

/-- `_NativeIoctl`. -/
def nativeIoctl (ω : Oracle) (s : Session) (header : Header) (request : Request) : Result :=
  if !s.client.nativeRender then (.error .notSupported, s) else
  match s.nativeState ω with
  | (.error e, s) => (.error e, s)
  | (.ok n, s) =>
    match s.readRequest ω header request.sizeof with
    | (.error e, s) => (.error e, s)
    | (.ok (), s) => s.nativeRequest ω n request

/-- The requests that a client may still make after its native state has faulted. -/
def passesGate : Request → Bool
  | .getInfo | .engineStatus .. => true
  | _ => false

/-- `Ioctl`. -/
def ioctl (ω : Oracle) (s : Session) (header : Header) (request : Request) : Result :=
  match request with
  | .gpuActivity =>
    match s.readRequest ω header request.sizeof with
    | (.error e, s) => (.error e, s)
    | (.ok (), s) => s.gpuActivity ω
  | _ =>
    if s.client.native.any (·.faulted) && !passesGate request then (.error .devNotReady, s) else
    if request.isNative then s.nativeIoctl ω header request else
    match s.readRequest ω header request.sizeof with
    | (.error e, s) => (.error e, s)
    | (.ok (), s) => s.legacyRequest ω request

end Session

end IntelGfx
