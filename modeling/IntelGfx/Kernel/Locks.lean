import IntelGfx.Theory.LockOrder

/-!
# What the driver does with its locks

The locking of every path from the three hooks of the device: where a mutex is taken, what is
called while it is held, and what is called after it is given back. What decides a branch is left
out, and so is which page tables, which engine or which client a path works on.
-/

namespace IntelGfx

namespace Locks

open LockOrder LockOrder.Code

/-- The mutexes of the driver; an engine's is that of its scheduler. -/
inductive Lock where
  | gLock
  | sClientsLock
  | client (n : Nat)
  | engine (n : Nat)
  | pageTables (n : Nat)
  | gtt (n : Nat)
  deriving DecidableEq

/-- A call that may return before it does anything. -/
def perhaps (a : Code Lock) : Code Lock := either skip a

def sequence : List (Code Lock) → Code Lock
  | [] => skip
  | a :: as => seq a (sequence as)

/-- A mutex taken and given back, with nothing called in between. -/
def around (l : Nat → Lock) : Code Lock := choose fun n => locked (l n) skip

namespace GlobalGTT

def bind : Code Lock := perhaps (around .gtt)
def unbind : Code Lock := perhaps (around .gtt)

end GlobalGTT

namespace BufferObject

def bind : Code Lock := perhaps GlobalGTT.bind
def unbind : Code Lock := perhaps GlobalGTT.unbind
/-- `BufferObject::~BufferObject` -/
def destroy : Code Lock := unbind

end BufferObject

namespace PageTables

def map : Code Lock := perhaps (around .pageTables)
def mapPhysical : Code Lock := perhaps (around .pageTables)
def unmap : Code Lock := perhaps (around .pageTables)
def flush : Code Lock := around .pageTables

end PageTables

namespace RenderEngine

/-- `Init` and `InitClient`: the four buffer objects. -/
def init : Code Lock := loop BufferObject.bind

/-- The destructor, with those of the members. -/
def destroy : Code Lock := loop BufferObject.destroy

def mapBuffer : Code Lock := perhaps PageTables.map
def mapGlobalRange : Code Lock := perhaps (loop PageTables.mapPhysical)
def unmapBuffer : Code Lock := perhaps PageTables.unmap

/-- The lock is held until the context is saved; the page tables are flushed under it. -/
def submit : Code Lock := perhaps (choose fun n => locked (.engine n) (perhaps PageTables.flush))

def status : Code Lock := perhaps (around .engine)

end RenderEngine

namespace RenderClient

/-- `_GpuActivity`, which takes the lock of each client in turn, or gives up on it. -/
def gpuActivity : Code Lock :=
  perhaps (locked .sClientsLock (loop (perhaps (around .client))))

/-- `RenderClient::RenderClient` -/
def construct : Code Lock :=
  sequence [loop (seq RenderEngine.init (perhaps RenderEngine.destroy)), locked .sClientsLock skip]

/-- `RenderClient::~RenderClient` -/
def destroy : Code Lock :=
  seq (locked .sClientsLock skip) <| perhaps <| sequence
    [loop RenderEngine.destroy, loop (seq (loop RenderEngine.unmapBuffer) BufferObject.destroy),
      loop RenderEngine.destroy]

/-- `_UnmapVirtual` -/
def unmapVirtual : Code Lock := perhaps PageTables.unmap

def createBuffer : Code Lock := perhaps BufferObject.destroy

def closeBuffer : Code Lock :=
  perhaps <| seq (loop RenderEngine.unmapBuffer) <| seq unmapVirtual <| perhaps BufferObject.destroy

def bindBuffer : Code Lock :=
  perhaps <| seq BufferObject.bind <| seq (loop RenderEngine.mapBuffer) <| perhaps
    BufferObject.unbind

def unbindBuffer : Code Lock :=
  perhaps <| seq BufferObject.unbind (loop RenderEngine.unmapBuffer)

def submit : Code Lock := perhaps RenderEngine.submit
def framebuffer : Code Lock := perhaps (loop RenderEngine.mapGlobalRange)
def engineStatus : Code Lock := perhaps RenderEngine.status

def createContext : Code Lock := perhaps (seq RenderEngine.init (perhaps RenderEngine.destroy))
def destroyContext : Code Lock := perhaps RenderEngine.destroy
def bindVirtual : Code Lock := perhaps (seq PageTables.map (perhaps PageTables.unmap))
def unbindVirtual : Code Lock := perhaps unmapVirtual
def submitObjects : Code Lock := perhaps RenderEngine.submit

/-- The operations that `Ioctl` answers under the lock of the client; the others take no lock
below it. -/
def operations : List (Code Lock) :=
  [skip, createBuffer, closeBuffer, bindBuffer, unbindBuffer, submit, framebuffer, engineStatus,
    createContext, destroyContext, bindVirtual, unbindVirtual, submitObjects]

/-- `RenderClient::Ioctl` -/
def ioctl : Code Lock :=
  either gpuActivity (choose fun n => locked (.client n)
    (choose fun operation => operations.getD operation skip))

end RenderClient

/-- `uninit_device` -/
def uninitDevice : Code Lock := perhaps (loop RenderEngine.destroy)

/-- `init_graphics_translation_table` -/
def initGraphicsTranslationTable : Code Lock :=
  perhaps (loop (seq RenderEngine.init (perhaps RenderEngine.destroy)))

def deviceOpen : Code Lock :=
  perhaps <| locked .gLock <| perhaps <|
    sequence [initGraphicsTranslationTable, perhaps RenderClient.construct, perhaps uninitDevice]

def deviceFree : Code Lock :=
  seq RenderClient.destroy (locked .gLock (perhaps uninitDevice))

/-- `device_ioctl`; its other operations take none of these locks. -/
def deviceIoctl : Code Lock := perhaps RenderClient.ioctl

/-- What a thread may call. -/
def Entry (c : Code Lock) : Prop := c = deviceOpen ∨ c = deviceFree ∨ c = deviceIoctl

end Locks

end IntelGfx
