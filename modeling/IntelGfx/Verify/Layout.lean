import IntelGfx.Verify.AddressSpace
import IntelGfx.Verify.Binding
import IntelGfx.Verify.Coherence

/-!
# Layouts of a submission

The two loops of `DRM_IOCTL_I915_GEM_EXECBUFFER2` bind every buffer where Iris wants it, whatever
was bound where before, and none of their requests is refused unless something fails that is no
matter of the layout (`layout_realised`). What they leave out for a buffer that is in place changes
nothing: with the sweep and the request for such a buffer, the bindings are the same.
-/

namespace IntelGfx

namespace Winsys
open Adapter Placement

/-- What is held, with every buffer where it is said to be. -/
def relocate (H : Nat → Option Held) (A : Nat → Nat) : Nat → Option Held := fun h =>
  (H h).map fun v => { v with address := A h }

/-- What the objects of a submission ask for. -/
def requests (objects : List ExecObject) : List (Nat × Nat) :=
  objects.map fun object => (object.handle, object.offset)

/-- What a kernel is asked, the state that it is asked in, and what it answers. -/
structure Exchange (κ : Type*) where
  fd : Int
  request : Request
  before : κ
  answer : Except Error Reply

/-- A kernel that keeps a record of what it is asked. -/
def recorded {κ : Type*} (K : Kernel κ) : Kernel (κ × List (Exchange κ)) := fun fd request k =>
  let (r, k') := K fd request k.1
  (r, k', k.2 ++ [⟨fd, request, k.1, r⟩])

/-- No request meets a failure that is no matter of what it asks for. -/
def Unhindered (client : Int → Nat) (asked : List (Exchange Driver)) : Prop :=
  ∀ q ∈ asked, ∀ e, ¬ Driver.Hindered client q.fd q.request q.before e

def Served (asked : List (Exchange Driver)) : Prop := ∀ q ∈ asked, q.answer = .ok .none

/-- The last request was refused, for no reason of its own. -/
def Refused (client : Int → Nat) (asked : List (Exchange Driver)) : Prop :=
  ∃ served q e, asked = served ++ [q] ∧ Served served ∧ q.answer = .error e ∧
    Driver.Hindered client q.fd q.request q.before e

/-- The objects of a submission are for different buffers that are there, and ask for different
places. -/
structure Legal (fd : Int) (objects : List ExecObject) (a : Adapter Driver) : Prop where
  handles : (objects.map (·.handle)).Nodup
  relocations : ∀ object ∈ objects, object.relocationCount = 0
  aligned : ∀ object ∈ objects, object.offset ≠ 0 ∧ object.offset % 4096 = 0
  live : ∀ object ∈ objects, ∃ bo, a.buffer (fd, object.handle) = some bo ∧ bo.purged = false ∧
    object.offset + bo.size ≤ kVirtualAddressLimit
  apart : ∀ x ∈ objects, ∀ y ∈ objects, x.handle ≠ y.handle → ∀ bo bo',
    a.buffer (fd, x.handle) = some bo → a.buffer (fd, y.handle) = some bo' →
    x.offset + bo.size ≤ y.offset ∨ y.offset + bo'.size ≤ x.offset

namespace Adapter
variable {κ : Type*}

/-! ## The loops with the shortcuts and without -/

/-- The first loop, in which a buffer in place is passed over or not. -/
def evictAllBy (skip : Bool) (K : Kernel κ) (fd : Int) : List ExecObject → Adapter κ →
    Option Errno × Adapter κ
  | [], a => (none, a)
  | object :: objects, a =>
    match a.buffer (fd, object.handle) with
    | none => (some .EINVAL, a)
    | some bo =>
      if skip ∧ bo.address = object.offset then evictAllBy skip K fd objects a else
      match a.evict K (fd, object.handle) object.offset ((object.offset + bo.size) % 2 ^ 64)
          a.buffers with
      | (false, a) => (some .driver, a)
      | (true, a) => evictAllBy skip K fd objects a

/-- A buffer in place is left there, or taken away and put back. -/
def rebindBy (skip : Bool) (K : Kernel κ) (key : Key) (bo : Buffer) (address : Nat)
    (a : Adapter κ) : Bool × Adapter κ :=
  if skip ∧ bo.address = address then (true, a) else
  let (unbound, a) := if bo.address ≠ 0 then a.unbind K key else (true, a)
  if !unbound then (false, a) else a.bind K key address

/-- The second loop. -/
def bindAllBy (skip : Bool) (K : Kernel κ) (fd : Int) : List ExecObject → Adapter κ →
    Option Errno × Adapter κ
  | [], a => (none, a)
  | object :: objects, a =>
    match a.buffer (fd, object.handle) with
    | none => (some .EINVAL, a)
    | some bo =>
      if object.relocationCount ≠ 0 then (some .EINVAL, a) else
      match a.rebindBy skip K (fd, object.handle) bo object.offset with
      | (false, a) => (some .driver, a)
      | (true, a) => bindAllBy skip K fd objects a

def layoutBy (skip : Bool) (K : Kernel κ) (fd : Int) (objects : List ExecObject) (a : Adapter κ) :
    Option Errno × Adapter κ :=
  match a.evictAllBy skip K fd objects with
  | (some e, a) => (some e, a)
  | (none, a) => a.bindAllBy skip K fd objects

/-- An adapter for which nothing has been recorded yet. -/
def recording (a : Adapter κ) : Adapter (κ × List (Exchange κ)) :=
  ⟨a.buffers, a.purgeClock, (a.kernel, []), a.trace⟩

/-- The adapter without the record. -/
def plain (a : Adapter (κ × List (Exchange κ))) : Adapter κ :=
  ⟨a.buffers, a.purgeClock, a.kernel.1, a.trace⟩

/-- What the loops ask the driver, in their order. -/
def asked (skip : Bool) (K : Kernel κ) (fd : Int) (objects : List ExecObject) (a : Adapter κ) :
    List (Exchange κ) := (a.recording.layoutBy skip (recorded K) fd objects).2.kernel.2

variable {K : Kernel κ} {fd : Int} {objects : List ExecObject}

theorem evictAllBy_true (a : Adapter κ) :
    a.evictAllBy true K fd objects = a.evictAll K fd objects := by
  induction objects generalizing a with
  | nil => rfl
  | cons object objects ih =>
    rw [evictAllBy, evictAll]
    cases a.buffer (fd, object.handle) with
    | none => rfl
    | some bo =>
      simp only [true_and]
      split
      · exact ih a
      · generalize a.evict K _ _ _ _ = res
        obtain ⟨_ | _, a₁⟩ := res
        · rfl
        · exact ih a₁

theorem rebindBy_true (key : Key) (bo : Buffer) (address : Nat) (a : Adapter κ) :
    a.rebindBy true K key bo address = a.rebind K key bo address := by
  simp only [rebindBy, rebind, true_and]

theorem bindAllBy_true (a : Adapter κ) :
    a.bindAllBy true K fd objects = a.bindAll K fd objects := by
  induction objects generalizing a with
  | nil => rfl
  | cons object objects ih =>
    rw [bindAllBy, bindAll]
    cases a.buffer (fd, object.handle) with
    | none => rfl
    | some bo =>
      dsimp only
      split
      · rfl
      · rw [rebindBy_true]
        generalize a.rebind K _ _ _ = res
        obtain ⟨_ | _, a₁⟩ := res
        · rfl
        · exact ih a₁

theorem layoutBy_true (a : Adapter κ) : a.layoutBy true K fd objects = a.layout K fd objects := by
  rw [layoutBy, layout, evictAllBy_true]
  generalize a.evictAll K fd objects = res
  obtain ⟨_ | e, a₁⟩ := res
  · exact bindAllBy_true a₁
  · rfl

/-! ## The record -/

variable {a : Adapter (κ × List (Exchange κ))}

theorem plain_kernel : a.plain.kernel = a.kernel.1 := rfl

theorem plain_unbind (key : Key) (a : Adapter (κ × List (Exchange κ))) :
    Prod.map id plain (a.unbind (recorded K) key) = a.plain.unbind K key := by
  simp only [unbind, call, recorded, plain]
  generalize K key.1 _ a.kernel.1 = res
  obtain ⟨_ | _, k⟩ := res
  · rfl
  · rfl

theorem plain_bind (key : Key) (address : Nat) (a : Adapter (κ × List (Exchange κ))) :
    Prod.map id plain (a.bind (recorded K) key address) = a.plain.bind K key address := by
  simp only [bind, call, recorded, plain]
  generalize K key.1 _ a.kernel.1 = res
  obtain ⟨_ | _, k⟩ := res
  · rfl
  · rfl

theorem plain_evict (key : Key) (start stop : Nat) (entries : List (Key × Buffer))
    (a : Adapter (κ × List (Exchange κ))) :
    Prod.map id plain (a.evict (recorded K) key start stop entries) =
      a.plain.evict K key start stop entries := by
  induction entries generalizing a with
  | nil => rfl
  | cons entry entries ih =>
    obtain ⟨other, bo⟩ := entry
    rw [evict, evict]
    split
    · exact ih a
    split
    · rw [← plain_unbind]
      generalize a.unbind (recorded K) other = res
      obtain ⟨_ | _, a₁⟩ := res
      · rfl
      · exact ih a₁
    · exact ih a

theorem plain_evictAllBy (skip : Bool) (objects : List ExecObject)
    (a : Adapter (κ × List (Exchange κ))) :
    Prod.map id plain (a.evictAllBy skip (recorded K) fd objects) =
      a.plain.evictAllBy skip K fd objects := by
  induction objects generalizing a with
  | nil => rfl
  | cons object objects ih =>
    have hbuffer : a.plain.buffer (fd, object.handle) = a.buffer (fd, object.handle) := rfl
    rw [evictAllBy, evictAllBy, hbuffer]
    cases a.buffer (fd, object.handle) with
    | none => rfl
    | some bo =>
      dsimp only
      split
      · exact ih a
      · have hevict := plain_evict (K := K) (fd, object.handle) object.offset
          ((object.offset + bo.size) % 2 ^ 64) a.buffers a
        rw [show a.plain.buffers = a.buffers from rfl, ← hevict]
        generalize a.evict (recorded K) _ _ _ _ = res
        obtain ⟨_ | _, a₁⟩ := res
        · rfl
        · exact ih a₁

theorem plain_rebindBy (skip : Bool) (key : Key) (bo : Buffer) (address : Nat)
    (a : Adapter (κ × List (Exchange κ))) :
    Prod.map id plain (a.rebindBy skip (recorded K) key bo address) =
      a.plain.rebindBy skip K key bo address := by
  rw [rebindBy, rebindBy]
  split
  · rfl
  by_cases h0 : bo.address = 0
  · rw [if_neg (not_not.mpr h0), if_neg (not_not.mpr h0)]
    exact plain_bind key address a
  · rw [if_pos h0, if_pos h0, ← plain_unbind]
    generalize a.unbind (recorded K) key = res
    obtain ⟨_ | _, a₁⟩ := res
    · rfl
    · exact plain_bind key address a₁

theorem plain_bindAllBy (skip : Bool) (objects : List ExecObject)
    (a : Adapter (κ × List (Exchange κ))) :
    Prod.map id plain (a.bindAllBy skip (recorded K) fd objects) =
      a.plain.bindAllBy skip K fd objects := by
  induction objects generalizing a with
  | nil => rfl
  | cons object objects ih =>
    have hbuffer : a.plain.buffer (fd, object.handle) = a.buffer (fd, object.handle) := rfl
    rw [bindAllBy, bindAllBy, hbuffer]
    cases a.buffer (fd, object.handle) with
    | none => rfl
    | some bo =>
      dsimp only
      split
      · rfl
      · rw [← plain_rebindBy]
        generalize a.rebindBy skip (recorded K) _ _ _ = res
        obtain ⟨_ | _, a₁⟩ := res
        · rfl
        · exact ih a₁

/-- The record changes nothing. -/
theorem plain_layoutBy (skip : Bool) (objects : List ExecObject)
    (a : Adapter (κ × List (Exchange κ))) :
    Prod.map id plain (a.layoutBy skip (recorded K) fd objects) =
      a.plain.layoutBy skip K fd objects := by
  rw [layoutBy, layoutBy, ← plain_evictAllBy]
  generalize a.evictAllBy skip (recorded K) fd objects = res
  obtain ⟨_ | e, a₁⟩ := res
  · exact plain_bindAllBy skip objects a₁
  · rfl

/-- The driver is asked, and whether it serves the request is what is returned. -/
structure Asks (K : Kernel κ) (fd : Int) (request : Request) (ok : Bool)
    (a a' : Adapter (κ × List (Exchange κ))) (r : Except Error Reply) : Prop where
  kernel : K fd request a.kernel.1 = (r, a'.kernel.1)
  record : a'.kernel.2 = a.kernel.2 ++ [⟨fd, request, a.kernel.1, r⟩]
  answer : ok = false ∧ (∃ e, r = .error e) ∨ ok = true ∧ ∃ reply, r = .ok reply

theorem unbind_asks {key : Key} {a' : Adapter (κ × List (Exchange κ))} {ok : Bool}
    (hu : a.unbind (recorded K) key = (ok, a')) :
    ∃ r, Asks K key.1 (.unbindVirtual key.2 0) ok a a' r := by
  simp only [unbind, call, recorded] at hu
  cases hk : K key.1 (.unbindVirtual key.2 0) a.kernel.1 with
  | mk r k =>
    rw [hk] at hu
    cases r with
    | error e =>
      obtain ⟨rfl, rfl⟩ := Prod.mk.inj hu
      exact ⟨_, hk, rfl, .inl ⟨rfl, e, rfl⟩⟩
    | ok reply =>
      obtain ⟨rfl, rfl⟩ := Prod.mk.inj hu
      exact ⟨_, hk, rfl, .inr ⟨rfl, reply, rfl⟩⟩

theorem bind_asks {key : Key} {address : Nat} {a' : Adapter (κ × List (Exchange κ))} {ok : Bool}
    (hu : a.bind (recorded K) key address = (ok, a')) :
    ∃ r, Asks K key.1 (.bindVirtual key.2 0 address) ok a a' r := by
  simp only [bind, call, recorded] at hu
  cases hk : K key.1 (.bindVirtual key.2 0 address) a.kernel.1 with
  | mk r k =>
    rw [hk] at hu
    cases r with
    | error e =>
      obtain ⟨rfl, rfl⟩ := Prod.mk.inj hu
      exact ⟨_, hk, rfl, .inl ⟨rfl, e, rfl⟩⟩
    | ok reply =>
      obtain ⟨rfl, rfl⟩ := Prod.mk.inj hu
      exact ⟨_, hk, rfl, .inr ⟨rfl, reply, rfl⟩⟩

end Adapter

/-! ## Moves -/

/-- The winsys and the driver agree, every buffer is where `A` says, and the driver has served what
it was asked and serves more requests to move a buffer. -/
structure Moved (client : Int → Nat) (fd : Int) (H : Nat → Option Held) (A : Nat → Nat)
    (a : Adapter (Driver × List (Exchange Driver))) : Prop extends Driven client fd a.plain where
  renders : a.kernel.1.Renders (client fd)
  held : a.kernel.1.device.held (client fd) = relocate H A
  absent : ∀ {h}, H h = none → A h = 0
  served : Served a.kernel.2

namespace Moved
variable {client : Int → Nat} {fd : Int} {H : Nat → Option Held} {A : Nat → Nat}
  {a a' : Adapter (Driver × List (Exchange Driver))} {h x : Nat} {v : Held} {ok : Bool}
  {request : Request} {r : Except Error Reply}

/-- A request that has no reason of its own to be refused. -/
theorem asks (M : Moved client fd H A a)
    (Q : Asks (Driver.ioctl client) fd request ok a a' r)
    (hr : r = .ok .none ∨ ∃ e, Driver.Hindered client fd request a.kernel.1 e ∧ r = .error e) :
    ok = false ∧ Refused client a'.kernel.2 ∨ ok = true ∧ Served a'.kernel.2 := by
  rcases Q.answer with ⟨rfl, e, rfl⟩ | ⟨rfl, reply, rfl⟩
  · obtain ⟨e, hhindered, ⟨⟩⟩ := hr.resolve_left (by rintro ⟨⟩)
    exact .inl ⟨rfl, _, _, e, Q.record, M.served, rfl, hhindered⟩
  · have hok : (Except.ok reply : Except Error Reply) = .ok .none :=
      hr.resolve_right (by rintro ⟨e, -, ⟨⟩⟩)
    refine .inr ⟨rfl, fun q hq => ?_⟩
    rw [Q.record, List.mem_append, List.mem_singleton] at hq
    rcases hq with hq | rfl
    · exact M.served q hq
    · exact hok

theorem sizes (M : Moved client fd H A a) :
    Held.sizes (a.kernel.1.device.held (client fd)) = Held.sizes H := by
  funext h
  rw [M.held, Held.sizes, relocate, Held.sizes]
  cases H h with
  | none => rfl
  | some v => rfl

theorem addresses (M : Moved client fd H A a) :
    Held.addresses (a.kernel.1.device.held (client fd)) = A := by
  funext h
  rw [M.held, Held.addresses, relocate]
  cases hv : H h with
  | none => exact (M.absent hv).symm
  | some v => rfl

theorem separate (M : Moved client fd H A a) : Separate (Held.sizes H) A := by
  have S : Separate (Held.sizes (a.kernel.1.device.held (client fd)))
      (Held.addresses (a.kernel.1.device.held (client fd))) := M.driver.separate
  rwa [M.sizes, M.addresses] at S

theorem holds (M : Moved client fd H A a) (hv : H h = some v) :
    a.kernel.1.device.held (client fd) h = some { v with address := A h } := by
  rw [M.held, relocate, hv]
  rfl

/-- The entry of a buffer says what the driver holds. -/
theorem entry (M : Moved client fd H A a) {bo : Buffer} (hb : ((fd, h), bo) ∈ a.buffers) :
    bo.address = A h ∧ (A h ≠ 0 → ∃ v, H h = some v ∧ bo.size = v.size) := by
  cases hp : bo.purged with
  | false =>
    obtain ⟨w, hw, hs, ha⟩ := M.live hb hp
    rw [plain_kernel, M.held, relocate] at hw
    obtain ⟨v, hv, rfl⟩ := Option.map_eq_some_iff.mp hw
    exact ⟨ha.symm, fun _ => ⟨v, hv, hs.symm⟩⟩
  | true =>
    obtain ⟨ha, hnone⟩ := M.gone hb hp
    rw [plain_kernel, M.held, relocate, Option.map_eq_none_iff] at hnone
    rw [ha, M.absent hnone]
    exact ⟨rfl, fun h => absurd rfl h⟩

theorem buffer (M : Moved client fd H A a) (hv : H h = some v) :
    ∃ bo, a.buffer (fd, h) = some bo ∧ bo.size = v.size ∧ bo.address = A h := by
  obtain ⟨bo, hb, hp⟩ := M.known (M.holds hv)
  obtain ⟨w, hw, hs, ha⟩ := M.live hb hp
  obtain rfl := Option.some.inj ((M.holds hv).symm.trans hw)
  exact ⟨bo, (buffer_eq_some M.sorted).mpr hb, hs.symm, ha.symm⟩

/-- One buffer is moved. -/
theorem update (M : Moved client fd H A a) (D : Driven client fd a'.plain)
    (R : a'.kernel.1.Renders (client fd)) (hv : H h = some v)
    (hh : a'.kernel.1.device.held (client fd) = Function.update
      (a.kernel.1.device.held (client fd)) h (some { v with address := x }))
    (hs : Served a'.kernel.2) : Moved client fd H (Function.update A h x) a' := by
  refine ⟨D, R, hh.trans ?_, fun {k} hk => ?_, hs⟩
  · funext k
    rw [M.held, relocate]
    by_cases hk : k = h
    · subst hk
      rw [Function.update_self, Function.update_self, hv]
      rfl
    · rw [Function.update_of_ne hk, Function.update_of_ne hk]
      rfl
  · have hne : k ≠ h := by
      rintro rfl
      cases hk.symm.trans hv
    rw [Function.update_of_ne hne]
    exact M.absent hk

theorem unbind (M : Moved client fd H A a) (hv : H h = some v)
    (hu : a.unbind (recorded (Driver.ioctl client)) (fd, h) = (ok, a')) :
    ok = false ∧ Refused client a'.kernel.2 ∨ ok = true ∧
      a'.buffers = (a.modify (fd, h) fun bo => { bo with address := 0 }).buffers ∧
      Moved client fd H (Function.update A h 0) a' := by
  have hplain := plain_unbind (K := Driver.ioctl client) (fd, h) a
  rw [hu] at hplain
  obtain ⟨D, hcase⟩ := M.toDriven.unbind hplain.symm
  obtain ⟨r, Q⟩ := unbind_asks hu
  obtain ⟨R, hok⟩ := Driver.ioctl_unbindVirtual_ok M.driver M.renders (M.holds hv) Q.kernel
  refine (M.asks Q hok).imp_right fun ⟨htrue, hs⟩ => ?_
  obtain ⟨-, hb, w, hw, hh⟩ := hcase.resolve_left (by simp [htrue])
  obtain rfl := Option.some.inj ((M.holds hv).symm.trans hw)
  exact ⟨htrue, hb, M.update D R hv hh hs⟩

theorem bind (M : Moved client fd H A a) (hv : H h = some v) (h0 : A h = 0) (hx : x ≠ 0)
    (haligned : x % 4096 = 0) (hfit : x + v.size ≤ kVirtualAddressLimit)
    (hfree : Free (Held.sizes H) A (h, x))
    (hu : a.bind (recorded (Driver.ioctl client)) (fd, h) x = (ok, a')) :
    ok = false ∧ Refused client a'.kernel.2 ∨
      ok = true ∧ Moved client fd H (Function.update A h x) a' := by
  have hplain := plain_bind (K := Driver.ioctl client) (fd, h) x a
  rw [hu] at hplain
  obtain ⟨D, hcase⟩ := M.toDriven.bind hplain.symm
  obtain ⟨r, Q⟩ := bind_asks hu
  obtain ⟨R, hok⟩ := Driver.ioctl_bindVirtual_ok M.driver M.renders (M.holds hv)
    (M.toDriven.unbound (M.holds hv)) h0 hx haligned hfit
    (by rwa [plain_kernel, M.sizes, M.addresses]) Q.kernel
  refine (M.asks Q hok).imp_right fun ⟨htrue, hs⟩ => ?_
  obtain ⟨-, -, w, hw, hh⟩ := hcase.resolve_left (by simp [htrue])
  obtain rfl := Option.some.inj ((M.holds hv).symm.trans hw)
  exact ⟨htrue, M.update D R hv hh hs⟩

theorem inTheWay (M : Moved client fd H A a) {bo : Buffer} (hb : ((fd, h), bo) ∈ a.buffers)
    {start stop : Nat} (h0 : bo.address ≠ 0) :
    Adapter.inTheWay start stop bo = true ↔ Meets (Held.sizes H) A h start stop := by
  obtain ⟨ha, hsize⟩ := M.entry hb
  rw [ha] at h0
  obtain ⟨v, hv, hs⟩ := hsize h0
  have hfit := M.driver.held_fits (M.holds hv) h0
  dsimp only at hfit
  have hsizes : Held.sizes H h = v.size := by
    rw [Held.sizes, hv]
    rfl
  rw [Adapter.inTheWay, ha, hs, Meets, hsizes, Bool.and_eq_true, decide_eq_true_eq,
    decide_eq_true_eq, Nat.mod_eq_of_lt (Nat.lt_of_le_of_lt hfit (by decide))]
  exact (and_iff_right h0).symm

/-- The sweep takes away what is in the way among the entries it goes over. -/
theorem evict (M : Moved client fd H A a) {start stop : Nat} {entries : List (Key × Buffer)}
    (hs : Sorted entries) (hmem : ∀ e ∈ entries, e ∈ a.buffers)
    (hu : a.evict (recorded (Driver.ioctl client)) (fd, h) start stop entries = (ok, a')) :
    ok = false ∧ Refused client a'.kernel.2 ∨ ok = true ∧ Moved client fd H (fun k =>
      if k ≠ h ∧ (fd, k) ∈ entries.map (·.1) ∧ Meets (Held.sizes H) A k start stop then 0
      else A k) a' := by
  induction entries generalizing a A with
  | nil =>
    obtain ⟨rfl, rfl⟩ := Prod.mk.inj hu
    exact .inr ⟨rfl, by simpa using M⟩
  | cons e entries ih =>
    obtain ⟨⟨fd', k⟩, bo⟩ := e
    obtain ⟨hhead, hs⟩ := List.pairwise_cons.mp hs
    have hin := hmem _ List.mem_cons_self
    have hrest : ∀ e ∈ entries, e ∈ a.buffers := fun e he => hmem e (List.mem_cons_of_mem _ he)
    -- the head is not in the way, and what it leaves is as the rest has it
    have hskip (hk : fd' = fd → k ≠ h → ¬ Meets (Held.sizes H) A k start stop)
        (hu : a.evict (recorded (Driver.ioctl client)) (fd, h) start stop entries = (ok, a')) :
        ok = false ∧ Refused client a'.kernel.2 ∨ ok = true ∧ Moved client fd H (fun k' =>
          if k' ≠ h ∧ (fd, k') ∈ (((fd', k), bo) :: entries).map (·.1) ∧
            Meets (Held.sizes H) A k' start stop then 0 else A k') a' := by
      refine (ih M hs hrest hu).imp_right (And.imp_right fun M' => ?_)
      have hiff (k' : Nat) : (k' ≠ h ∧ (fd, k') ∈ (((fd', k), bo) :: entries).map (·.1) ∧
          Meets (Held.sizes H) A k' start stop) ↔ (k' ≠ h ∧ (fd, k') ∈ entries.map (·.1) ∧
          Meets (Held.sizes H) A k' start stop) := by
        rw [List.map_cons, List.mem_cons]
        refine and_congr_right fun hne => and_congr_left fun hm => or_iff_right fun heq => ?_
        obtain ⟨rfl, rfl⟩ := Prod.mk.inj heq
        exact hk rfl hne hm
      simpa only [hiff] using M'
    rw [Adapter.evict] at hu
    split at hu
    · next hcase =>
      refine hskip (fun hfd hne hm => ?_) hu
      rcases hcase with hne' | heq | h0
      · exact hne' hfd
      · exact hne (Prod.mk.inj heq).2
      · subst hfd
        exact hm.1 ((M.entry hin).1.symm.trans h0)
    next hcase =>
    simp only [not_or, ne_eq, Decidable.not_not] at hcase
    obtain ⟨rfl, hne, h0⟩ := hcase
    have hway := @inTheWay _ _ _ _ _ _ M _ hin start stop h0
    split at hu
    · next hin' =>
      have hm := hway.mp hin'
      obtain ⟨v, hv, -⟩ := (M.entry hin).2 hm.1
      generalize hun : a.unbind (recorded (Driver.ioctl client)) (fd', k) = res at hu
      obtain ⟨ok', a₁⟩ := res
      rcases M.unbind hv hun with ⟨rfl, hstuck⟩ | ⟨rfl, hb, M₁⟩
      · obtain ⟨rfl, rfl⟩ := Prod.mk.inj hu
        exact .inl ⟨rfl, hstuck⟩
      have hrest₁ : ∀ e ∈ entries, e ∈ a₁.buffers := by
        rintro ⟨key, bo'⟩ he
        have hkey : key ≠ (fd', k) := (hhead _ he).ne.symm
        rw [hb]
        exact mem_modify.mpr ⟨bo', hrest _ he, (if_neg hkey).symm⟩
      refine (ih M₁ hs hrest₁ hu).imp_right (And.imp_right fun M' => ?_)
      convert M' using 1
      funext k'
      by_cases hkk : k' = k
      · subst hkk
        have hne' : k' ≠ h := fun heq => hne (congrArg _ heq)
        simp [hne', hm]
      · have hmeets : Meets (Held.sizes H) (Function.update A k 0) k' start stop ↔
            Meets (Held.sizes H) A k' start stop := by
          rw [Meets, Function.update_of_ne hkk, Meets]
        have hentries : (fd', k') ∈ (((fd', k), bo) :: entries).map (·.1) ↔
            (fd', k') ∈ entries.map (·.1) := by
          rw [List.map_cons, List.mem_cons]
          exact or_iff_right fun heq => hkk (Prod.mk.inj heq).2
        simp only [hmeets, hentries, Function.update_of_ne hkk]
    · next hin' =>
      exact hskip (fun _ _ hm => hin' (hway.mpr hm)) hu

/-- The sweep goes over all entries. -/
theorem clear (M : Moved client fd H A a) (hx : x + Held.sizes H h ≤ kVirtualAddressLimit)
    (hu : a.evict (recorded (Driver.ioctl client)) (fd, h) x ((x + Held.sizes H h) % 2 ^ 64)
      a.buffers = (ok, a')) :
    ok = false ∧ Refused client a'.kernel.2 ∨
      ok = true ∧ Moved client fd H (Placement.clear (Held.sizes H) A (h, x)) a' := by
  have hs : Sorted a.buffers := M.sorted
  refine (M.evict hs (fun _ => id) hu).imp_right (And.imp_right fun M' => ?_)
  rw [Nat.mod_eq_of_lt (Nat.lt_of_le_of_lt hx (by decide))] at M'
  convert M' using 1
  funext k
  have hentry : A k ≠ 0 → (fd, k) ∈ a.buffers.map (·.1) := by
    intro h0
    have hv : H k ≠ none := fun hnone => h0 (M.absent hnone)
    obtain ⟨v, hv⟩ := Option.ne_none_iff_exists'.mp hv
    obtain ⟨bo, hb, -⟩ := M.known (M.holds hv)
    exact List.mem_map.mpr ⟨_, hb, rfl⟩
  have hiff : (k ≠ h ∧ (fd, k) ∈ a.buffers.map (·.1) ∧
      Meets (Held.sizes H) A k x (x + Held.sizes H h)) ↔
      (k ≠ h ∧ Meets (Held.sizes H) A k x (x + Held.sizes H h)) :=
    and_congr_right fun _ => and_iff_right_of_imp fun hm => hentry hm.1
  simp only [hiff]
  rfl

/-- What the two loops may rely on about the objects that are left. -/
structure Asked (H : Nat → Option Held) (object : ExecObject) : Prop where
  relocations : object.relocationCount = 0
  ne : object.offset ≠ 0
  aligned : object.offset % 4096 = 0
  live : ∃ v, H object.handle = some v
  fits : object.offset + Held.sizes H object.handle ≤ kVirtualAddressLimit

theorem sizes_eq (hv : H h = some v) : Held.sizes H h = v.size := by
  rw [Held.sizes, hv]
  rfl

/-- After the first loop, only what is named is where a buffer is to be. -/
theorem evictAllBy (M : Moved client fd H A a) (skip : Bool) {objects : List ExecObject}
    {r : Option Errno} (hO : ∀ object ∈ objects, Asked H object)
    (hu : a.evictAllBy skip (recorded (Driver.ioctl client)) fd objects = (r, a')) :
    r = some .driver ∧ Refused client a'.kernel.2 ∨
      r = none ∧ Moved client fd H (clearAll (Held.sizes H) A (requests objects)) a' := by
  induction objects generalizing a A with
  | nil =>
    obtain ⟨rfl, rfl⟩ := Prod.mk.inj hu
    exact .inr ⟨rfl, M⟩
  | cons object objects ih =>
    have hQ := hO _ List.mem_cons_self
    have hO' : ∀ object ∈ objects, Asked H object := fun o ho => hO o (List.mem_cons_of_mem _ ho)
    obtain ⟨v, hv⟩ := hQ.live
    obtain ⟨bo, hbo, hs, ha⟩ := M.buffer hv
    rw [Adapter.evictAllBy, hbo] at hu
    dsimp only at hu
    split at hu
    · next hskip =>
      have hself := clear_eq_self (r := (object.handle, object.offset)) M.separate hQ.ne
        (ha.symm.trans hskip.2)
      have := ih M hO' hu
      rwa [← hself] at this
    · rw [hs, ← sizes_eq hv] at hu
      generalize hev : a.evict (recorded (Driver.ioctl client)) (fd, object.handle) object.offset
        ((object.offset + Held.sizes H object.handle) % 2 ^ 64) a.buffers = res at hu
      obtain ⟨ok, a₁⟩ := res
      rcases M.clear hQ.fits hev with ⟨rfl, hstuck⟩ | ⟨rfl, M₁⟩
      · obtain ⟨rfl, rfl⟩ := Prod.mk.inj hu
        exact .inl ⟨rfl, hstuck⟩
      · exact ih M₁ hO' hu

theorem rebindBy (M : Moved client fd H A a) (skip : Bool) {object : ExecObject} {bo : Buffer}
    (hQ : Asked H object) (ha : bo.address = A object.handle)
    (hfree : Free (Held.sizes H) A (object.handle, object.offset))
    (hu : a.rebindBy skip (recorded (Driver.ioctl client)) (fd, object.handle) bo object.offset =
      (ok, a')) :
    ok = false ∧ Refused client a'.kernel.2 ∨
      ok = true ∧ Moved client fd H (Function.update A object.handle object.offset) a' := by
  obtain ⟨v, hv⟩ := hQ.live
  have hfit := hQ.fits
  rw [sizes_eq hv] at hfit
  rw [Adapter.rebindBy] at hu
  split at hu
  · next hskip =>
    obtain ⟨rfl, rfl⟩ := Prod.mk.inj hu
    rw [Function.update_eq_self_iff.mpr (hskip.2.symm.trans ha)]
    exact .inr ⟨rfl, M⟩
  have hbind {A₁ : Nat → Nat} {a₁ : Adapter (Driver × List (Exchange Driver))}
      (M₁ : Moved client fd H A₁ a₁) (hA : A₁ = Function.update A object.handle 0)
      (hu : a₁.bind (recorded (Driver.ioctl client)) (fd, object.handle) object.offset =
        (ok, a')) :
      ok = false ∧ Refused client a'.kernel.2 ∨
        ok = true ∧ Moved client fd H (Function.update A object.handle object.offset) a' := by
    subst hA
    have h := M₁.bind hv (Function.update_self ..) hQ.ne hQ.aligned hfit (hfree.update_self 0) hu
    rwa [Function.update_idem] at h
  by_cases h0 : bo.address = 0
  · rw [if_neg (not_not.mpr h0)] at hu
    exact hbind M (Function.update_eq_self_iff.mpr (h0.symm.trans ha)).symm hu
  · rw [if_pos h0] at hu
    generalize hun : a.unbind (recorded (Driver.ioctl client)) (fd, object.handle) = res at hu
    obtain ⟨ok', a₁⟩ := res
    rcases M.unbind hv hun with ⟨rfl, hstuck⟩ | ⟨rfl, -, M₁⟩
    · obtain ⟨rfl, rfl⟩ := Prod.mk.inj hu
      exact .inl ⟨rfl, hstuck⟩
    · exact hbind M₁ rfl hu

/-- The second loop finds every place free. -/
theorem bindAllBy (M : Moved client fd H A a) (skip : Bool) {objects : List ExecObject}
    {r : Option Errno} (hO : ∀ object ∈ objects, Asked H object)
    (hp : (requests objects).Pairwise (Apart (Held.sizes H)))
    (hfree : ∀ q ∈ requests objects, Free (Held.sizes H) A q)
    (hu : a.bindAllBy skip (recorded (Driver.ioctl client)) fd objects = (r, a')) :
    r = some .driver ∧ Refused client a'.kernel.2 ∨
      r = none ∧ Moved client fd H (placeAll A (requests objects)) a' := by
  induction objects generalizing a A with
  | nil =>
    obtain ⟨rfl, rfl⟩ := Prod.mk.inj hu
    exact .inr ⟨rfl, M⟩
  | cons object objects ih =>
    have hQ := hO _ List.mem_cons_self
    have hO' : ∀ object ∈ objects, Asked H object := fun o ho => hO o (List.mem_cons_of_mem _ ho)
    obtain ⟨hhead, hp⟩ := List.pairwise_cons.mp hp
    obtain ⟨v, hv⟩ := hQ.live
    obtain ⟨bo, hbo, -, ha⟩ := M.buffer hv
    rw [Adapter.bindAllBy, hbo] at hu
    dsimp only at hu
    rw [if_neg (not_not.mpr hQ.relocations)] at hu
    generalize hre : a.rebindBy skip (recorded (Driver.ioctl client)) (fd, object.handle) bo
      object.offset = res at hu
    obtain ⟨ok, a₁⟩ := res
    rcases M.rebindBy skip hQ ha (hfree _ List.mem_cons_self) hre with ⟨rfl, hstuck⟩ | ⟨rfl, M₁⟩
    · obtain ⟨rfl, rfl⟩ := Prod.mk.inj hu
      exact .inl ⟨rfl, hstuck⟩
    · exact ih M₁ hO' hp (fun q hq =>
        (hfree q (List.mem_cons_of_mem _ hq)).update (hhead q hq).symm) hu

end Moved

/-! ## Layouts -/

/-- What is held when the objects are where they are to be: what was in the way is unbound, and the
rest is bound where it was. -/
structure Realises (objects : List ExecObject) (H H' : Nat → Option Held) : Prop where
  named : ∀ object ∈ objects, ∃ v, H object.handle = some v ∧
    H' object.handle = some { v with address := object.offset }
  rest : ∀ h, (∀ object ∈ objects, object.handle ≠ h) → H' h = (H h).map fun v =>
    if v.address ≠ 0 ∧ ∃ object ∈ objects, object.offset < v.address + v.size ∧
      v.address < object.offset + Held.sizes H object.handle
    then { v with address := 0 } else v

theorem Realises.unique {objects : List ExecObject} {H H₁ H₂ : Nat → Option Held}
    (h₁ : Realises objects H H₁) (h₂ : Realises objects H H₂) : H₁ = H₂ := by
  funext h
  by_cases hn : ∃ object ∈ objects, object.handle = h
  · obtain ⟨object, ho, rfl⟩ := hn
    obtain ⟨v, hv, he₁⟩ := h₁.named object ho
    obtain ⟨w, hw, he₂⟩ := h₂.named object ho
    rw [he₁, he₂, Option.some.inj (hv.symm.trans hw)]
  · have hn : ∀ object ∈ objects, object.handle ≠ h := fun o ho he => hn ⟨o, ho, he⟩
    rw [h₁.rest h hn, h₂.rest h hn]

theorem realises_relocate {objects : List ExecObject} {H : Nat → Option Held}
    (hO : ∀ object ∈ objects, ∃ v, H object.handle = some v)
    (hp : (requests objects).Pairwise (Apart (Held.sizes H))) :
    Realises objects H (relocate H (placeAll (clearAll (Held.sizes H) (Held.addresses H)
      (requests objects)) (requests objects))) := by
  obtain ⟨hnamed, hrest⟩ := realised_placeAll (A := Held.addresses H) hp
  refine ⟨fun object ho => ?_, fun h hn => ?_⟩
  · obtain ⟨v, hv⟩ := hO object ho
    refine ⟨v, hv, ?_⟩
    rw [relocate, hv, Option.map_some,
      hnamed (object.handle, object.offset) (List.mem_map.mpr ⟨object, ho, rfl⟩)]
  · rw [relocate]
    cases hv : H h with
    | none => rfl
    | some v =>
      have haddress : Held.addresses H h = v.address := by
        rw [Held.addresses, hv]
        rfl
      have hrequests : ∀ r ∈ requests objects, r.1 ≠ h := by
        intro r hr
        obtain ⟨object, ho, rfl⟩ := List.mem_map.mp hr
        exact hn object ho
      have hiff : (∃ r ∈ requests objects, Meets (Held.sizes H) (Held.addresses H) h r.2
          (r.2 + Held.sizes H r.1)) ↔ v.address ≠ 0 ∧ ∃ object ∈ objects,
            object.offset < v.address + v.size ∧
              v.address < object.offset + Held.sizes H object.handle := by
        simp only [requests, List.mem_map, exists_exists_and_eq_and, Meets, haddress,
          Moved.sizes_eq hv]
        constructor
        · rintro ⟨object, ho, h0, hm⟩
          exact ⟨h0, object, ho, hm⟩
        · rintro ⟨h0, object, ho, hm⟩
          exact ⟨object, ho, h0, hm⟩
      simp only [Option.map_some, hrest h hrequests, hiff, haddress]
      split
      · rfl
      · rfl

/-- What a layout ends in, from what was held: all that the loops have asked was served and all of
the layout is done, or their last request was refused for no reason of its own. -/
def Laid (client : Int → Nat) (fd : Int) (objects : List ExecObject) (H : Nat → Option Held)
    (asked : List (Exchange Driver)) (res : Option Errno × Adapter Driver) : Prop :=
  res.1 = some .driver ∧ Refused client asked ∨
  res.1 = none ∧ Served asked ∧ Driven client fd res.2 ∧
    Realises objects H (res.2.kernel.device.held (client fd))

namespace Laid
variable {client : Int → Nat} {fd : Int} {objects : List ExecObject} {H : Nat → Option Held}
  {asked asked' : List (Exchange Driver)} {res res' : Option Errno × Adapter Driver}

theorem of_none (h : Laid client fd objects H asked res) (hnone : res.1 = none) : Served asked ∧
    Realises objects H (res.2.kernel.device.held (client fd)) := by
  rcases h with ⟨hfail, -⟩ | ⟨-, hs, -, hr⟩
  · cases hfail.symm.trans hnone
  · exact ⟨hs, hr⟩

/-- Nothing but a failure of its own keeps a layout from being done. -/
theorem eq_none (h : Laid client fd objects H asked res) (hU : Unhindered client asked) :
    res.1 = none := by
  rcases h with ⟨-, served, q, e, rfl, -, -, hhindered⟩ | ⟨hnone, -⟩
  · exact absurd hhindered (hU q (List.mem_append_right _ List.mem_cons_self) e)
  · exact hnone

theorem held_eq (h : Laid client fd objects H asked res) (h' : Laid client fd objects H asked' res')
    (hnone : res.1 = none) (hnone' : res'.1 = none) :
    res.2.kernel.device.held (client fd) = res'.2.kernel.device.held (client fd) :=
  (h.of_none hnone).2.unique (h'.of_none hnone').2

end Laid

namespace Driven
variable {client : Int → Nat} {fd : Int} {a : Adapter Driver} {objects : List ExecObject}

theorem layoutBy (D : Driven client fd a) (R : a.kernel.Renders (client fd))
    (L : Legal fd objects a) (skip : Bool) : Laid client fd objects
      (a.kernel.device.held (client fd)) (a.asked skip (Driver.ioctl client) fd objects)
      (a.layoutBy skip (Driver.ioctl client) fd objects) := by
  generalize hH : a.kernel.device.held (client fd) = H
  have M : Moved client fd H (Held.addresses H) a.recording := by
    refine ⟨D, R, hH.trans (funext fun h => ?_), fun {h} hnone => ?_,
      fun _ hq => absurd hq List.not_mem_nil⟩
    · rw [relocate]
      cases hv : H h with
      | none => rfl
      | some v =>
        rw [Option.map_some, Held.addresses, hv]
        rfl
    · rw [Held.addresses, hnone]
      rfl
  have hlive : ∀ object ∈ objects, ∃ bo v, a.buffer (fd, object.handle) = some bo ∧
      H object.handle = some v ∧ bo.size = Held.sizes H object.handle ∧
      object.offset + bo.size ≤ kVirtualAddressLimit := by
    intro object ho
    obtain ⟨bo, hbo, hp, hle⟩ := L.live object ho
    obtain ⟨v, hv, hs, -⟩ := D.live ((buffer_eq_some D.sorted).mp hbo) hp
    rw [hH] at hv
    exact ⟨bo, v, hbo, hv, hs.symm.trans (Moved.sizes_eq hv).symm, hle⟩
  have hO : ∀ object ∈ objects, Moved.Asked H object := by
    intro object ho
    obtain ⟨bo, v, -, hv, hs, hle⟩ := hlive object ho
    exact ⟨L.relocations object ho, (L.aligned object ho).1, (L.aligned object ho).2, ⟨v, hv⟩,
      hs ▸ hle⟩
  have hp : (requests objects).Pairwise (Apart (Held.sizes H)) := by
    refine List.pairwise_map.mpr ((List.pairwise_map.mp L.handles).imp_of_mem ?_)
    intro x y hx hy hne
    obtain ⟨bo, -, hbo, -, hs, -⟩ := hlive x hx
    obtain ⟨bo', -, hbo', -, hs', -⟩ := hlive y hy
    refine ⟨hne, ?_⟩
    rw [← hs, ← hs']
    exact L.apart x hx y hy hne bo bo' hbo hbo'
  have hplain : Prod.map id Adapter.plain (a.recording.layoutBy skip
      (recorded (Driver.ioctl client)) fd objects) =
        a.layoutBy skip (Driver.ioctl client) fd objects := plain_layoutBy skip objects _
  rw [← hplain, Adapter.asked, Adapter.layoutBy]
  generalize hev : a.recording.evictAllBy skip (recorded (Driver.ioctl client)) fd objects = res
  obtain ⟨r, a₁⟩ := res
  rcases M.evictAllBy skip hO hev with ⟨rfl, hrefused⟩ | ⟨rfl, M₁⟩
  · exact .inl ⟨rfl, hrefused⟩
  dsimp only
  generalize hb : a₁.bindAllBy skip (recorded (Driver.ioctl client)) fd objects = res
  obtain ⟨r, a₂⟩ := res
  rcases M₁.bindAllBy skip hO hp (fun q hq => clearAll_free hq) hb with
    ⟨rfl, hrefused⟩ | ⟨rfl, M₂⟩
  · exact .inl ⟨rfl, hrefused⟩
  · refine .inr ⟨rfl, M₂.served, M₂.toDriven, ?_⟩
    have hheld := realises_relocate (fun object ho => (hO object ho).live) hp
    rw [← M₂.held] at hheld
    exact hheld

end Driven

/-- A layout that may be asked for is realised, whatever was bound where before, and no request of
the loops is refused, if none of them meets a failure that is no matter of the layout; else the
request that does is the last one. With every sweep and every request that the loops leave out for a
buffer in place, what is bound in the end is the same. -/
theorem layout_realised {client : Int → Nat} {fd : Int} {a : Adapter Driver}
    {objects : List ExecObject} (D : Driven client fd a) (R : a.kernel.Renders (client fd))
    (L : Legal fd objects a) :
    let K := Driver.ioctl client
    let H := a.kernel.device.held (client fd)
    (Unhindered client (a.asked true K fd objects) →
      (a.layout K fd objects).1 = none ∧ Served (a.asked true K fd objects) ∧
        Realises objects H ((a.layout K fd objects).2.kernel.device.held (client fd))) ∧
    (Unhindered client (a.asked true K fd objects) →
      Unhindered client (a.asked false K fd objects) →
        (a.layout K fd objects).2.kernel.device.held (client fd) =
          (a.layoutBy false K fd objects).2.kernel.device.held (client fd)) ∧
    Laid client fd objects H (a.asked true K fd objects) (a.layout K fd objects) ∧
    Laid client fd objects H (a.asked false K fd objects) (a.layoutBy false K fd objects) := by
  intro K H
  have hlaid : Laid client fd objects H (a.asked true K fd objects) (a.layout K fd objects) := by
    rw [← layoutBy_true]
    exact D.layoutBy R L true
  have heach : Laid client fd objects H (a.asked false K fd objects)
      (a.layoutBy false K fd objects) := D.layoutBy R L false
  refine ⟨fun hU => ?_, fun hU hU' => ?_, hlaid, heach⟩
  · have hnone := hlaid.eq_none hU
    exact ⟨hnone, hlaid.of_none hnone⟩
  · exact hlaid.held_eq heach (hlaid.eq_none hU) (heach.eq_none hU')

/-- A device with the native interface, opened once. -/
def rendering : Device := Run.exec Device.step (Device.start Device.Config.render (fun _ => 0) [])
  [(.open, .unfailing)]

theorem rendering_new {turns : Nat → Turn} (h : ∀ n, (turns n).others = []) :
    (Driver.mk rendering turns 0).Open 0 ∧ ∀ h, rendering.held 0 h = none :=
  open_alone rfl (by decide +kernel) h

/-- A buffer of one page is bound right before one of two pages, and they change places. -/
theorem layout_realised_swap :
    let turns : Nat → Turn := fun _ => ⟨[], none, .unfailing⟩
    let K := Driver.ioctl fun _ => 0
    let a := (Run.exec (fun call a => (ioctl K 3 call a).2) (start ⟨rendering, turns, 0⟩)
      [.gemCreate 4096, .gemCreate 8192]).layout K 3 [⟨1, 0x100000, 0⟩, ⟨2, 0x101000, 0⟩]
    let objects := [⟨1, 0x102000, 0⟩, ⟨2, 0x100000, 0⟩]
    Served (a.2.asked true K 3 objects) ∧ (a.2.asked true K 3 objects).length = 4 ∧
      Realises objects (a.2.kernel.device.held 0)
        ((a.2.layout K 3 objects).2.kernel.device.held 0) ∧
      a.2.buffers.map (fun e => (e.1.2, e.2.address)) = [(1, 0x100000), (2, 0x101000)] ∧
      (a.2.layout K 3 objects).2.buffers.map (fun e => (e.1.2, e.2.address)) =
        [(1, 0x102000), (2, 0x100000)] := by
  intro turns K a objects
  obtain ⟨O, hnew⟩ := @rendering_new turns fun _ => rfl
  have D₀ : Driven (fun _ => 0) 3 (start ⟨rendering, turns, 0⟩) := by
    refine @Driven.start (fun _ => 0) 3 ⟨rendering, turns, 0⟩ O fun h => ?_
    dsimp only
    exact hnew h
  have D : Driven (fun _ => 0) 3 a.2 := (D₀.exec _).layout (Prod.mk.eta (p := a)).symm
  have hb : a.2.buffers = [((3, 1), ⟨some 37, 4096, 0x100000, 0, false, false, 0⟩),
      ((3, 2), ⟨some 38, 8192, 0x101000, 0, false, false, 0⟩)] := by decide +kernel
  have hx : (a.2.kernel.device.clients 0).any (fun x => x.nativeRender &&
      !x.native.any (·.faulted)) = true := by decide +kernel
  obtain ⟨x, hx, hrenders⟩ := (Option.any_eq_true _ _).mp hx
  have R : a.2.kernel.Renders 0 := ⟨x, hx, by simpa [RenderClient.Renders] using hrenders⟩
  have h1 : a.2.buffer (3, 1) = some ⟨some 37, 4096, 0x100000, 0, false, false, 0⟩ :=
    (buffer_eq_some D.sorted).mpr (hb ▸ List.mem_cons_self)
  have h2 : a.2.buffer (3, 2) = some ⟨some 38, 8192, 0x101000, 0, false, false, 0⟩ :=
    (buffer_eq_some D.sorted).mpr (hb ▸ List.mem_cons_of_mem _ List.mem_cons_self)
  have L : Legal 3 objects a.2 := by
    refine ⟨by decide, by decide, by decide, fun object ho => ?_,
      fun x hx y hy hne bo bo' hbo hbo' => ?_⟩
    · rcases List.mem_pair.mp ho with rfl | rfl
      · exact ⟨_, h1, rfl, by decide⟩
      · exact ⟨_, h2, rfl, by decide⟩
    · rcases List.mem_pair.mp hx with rfl | rfl <;> rcases List.mem_pair.mp hy with rfl | rfl
      · exact absurd rfl hne
      · cases h1.symm.trans hbo
        cases h2.symm.trans hbo'
        decide
      · cases h2.symm.trans hbo
        cases h1.symm.trans hbo'
        decide
      · exact absurd rfl hne
  have hnone : (a.2.layout K 3 objects).1 = none := by decide +kernel
  have hlaid : Laid (fun _ => 0) 3 objects (a.2.kernel.device.held 0)
    (a.2.asked true K 3 objects) (a.2.layout K 3 objects) := (layout_realised D R L).2.2.1
  obtain ⟨hserved, hrealised⟩ := hlaid.of_none hnone
  exact ⟨hserved, by decide +kernel, hrealised, by rw [hb]; rfl, by decide +kernel⟩

end Winsys

end IntelGfx
