import IntelGfx.Kernel.Device
import IntelGfx.Mesa.IntelWinsys

/-!
# The driver below the winsys

What the winsys reaches through the descriptors it is given: the device, which has other users too.
-/

namespace IntelGfx

/-- What goes with a call of the winsys: what the others have done before it, whether it fails
without reaching the driver, and how the rest of the system answers while it is served. -/
structure Turn where
  others : List (Device.Call × Oracle)
  refused : Option Error
  oracle : Oracle

structure Driver where
  device : Device
  turns : Nat → Turn
  time : Nat

namespace Driver

/-- The turn of the next call. -/
def turn (k : Driver) : Turn := k.turns k.time

/-- The device once the others have had their turn. -/
def others (k : Driver) : Device := Run.exec Device.step k.device k.turn.others

/-- The device as a call finds it that reaches it. -/
def next (k : Driver) : Device := { k.others with mem := k.others.mem.enter }

/-- `ioctl` with a request that `Request<T>` has made; `client` tells who a descriptor is. -/
def ioctl (client : Int → Nat) : Winsys.Kernel Driver := fun fd request k =>
  let (r, d) := match k.turn.refused with
    | some e => (.error e, k.others)
    | none => k.next.ioctl k.turn.oracle (client fd) ⟨request.sizeof, kABIVersion, request.sizeof⟩
        request
  (r, { k with device := d, time := k.time + 1 })

end Driver

end IntelGfx
