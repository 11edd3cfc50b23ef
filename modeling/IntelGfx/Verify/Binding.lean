import IntelGfx.Theory.Placement
import IntelGfx.Verify.Driver

/-!
# Requests that bind

A client whose native state has not faulted is refused a binding for one of three reasons: the
buffer or the place is not as the request needs it, or something has failed that the request says
nothing about (`Hindered`). The unbinding of a buffer that there is is refused for the last reason
only.
-/

namespace IntelGfx
open Memory RenderEngine

/-- The sizes of the buffers that handles name. -/
def Held.sizes (H : Nat → Option Held) (h : Nat) : Nat := (H h).elim 0 (·.size)

/-- Where they are bound. -/
def Held.addresses (H : Nat → Option Held) (h : Nat) : Nat := (H h).elim 0 (·.address)

/-- The native interface serves the client. -/
def RenderClient.Renders (x : RenderClient) : Prop :=
  x.nativeRender = true ∧ x.native.any (·.faulted) = false

namespace Session
variable {ω : Oracle} {g : GlobalGTT} {s s' : Session} {header : Header} {request : Request}
  {r : Except Error Reply} {h i address : Nat} {n : NativeState} {v : Held}

/-- Something fails that is no matter of what the request asks for: the native state cannot be
made, the request cannot be copied, or the page tables do not take the buffer. -/
inductive Hindered (ω : Oracle) (header : Header) (s : Session) : Request → Error → Prop where
  | nativeState {request e s₁} (hn : s.nativeState ω = (.error e, s₁)) :
    Hindered ω header s request e
  | readRequest {request n s₁ e s₂} (hn : s.nativeState ω = (.ok n, s₁))
    (hq : s₁.readRequest ω header request.sizeof = (.error e, s₂)) : Hindered ω header s request e
  | map {handle flags address n s₁ s₂ slot buffer e} (hn : s.nativeState ω = (.ok n, s₁))
    (hq : s₁.readRequest ω header (Request.bindVirtual handle flags address).sizeof = (.ok (), s₂))
    (hf : s₂.find handle = some (slot, buffer))
    (hm : (s₂.mem.map ω (.vm s₂.client.id) (s₂.mem.area buffer) address).1 = .error e) :
    Hindered ω header s (.bindVirtual handle flags address) e

/-! ## What is bound -/

theorem sizes_of_slot (I : s.Inv g) {o : Owner} (ho : s.client.buffers i = some o) :
    Held.sizes s.held (s.client.handles i) = s.mem.size o := by
  rw [Held.sizes, held_of_slot I rfl ho]
  rfl

theorem addresses_of_slot (I : s.Inv g) {o : Owner} (ho : s.client.buffers i = some o) :
    Held.addresses s.held (s.client.handles i) = s.address i := by
  rw [Held.addresses, held_of_slot I rfl ho]
  rfl

theorem addresses_ne (hh : Held.addresses s.held h ≠ 0) : ∃ i o, s.client.handles i = h ∧
    s.client.buffers i = some o ∧ s.address i ≠ 0 := by
  rw [Held.addresses] at hh
  cases hv : s.held h with
  | none =>
    rw [hv] at hh
    exact absurd rfl hh
  | some v =>
    rw [hv] at hh
    obtain ⟨i, o, -, hi, ho, rfl⟩ := held_some hv
    exact ⟨i, o, hi, ho, hh⟩

/-- What is bound is below the limit. -/
theorem held_fits (I : s.Inv g) (hv : s.held h = some v) (h0 : v.address ≠ 0) :
    v.address + v.size ≤ kVirtualAddressLimit := by
  obtain ⟨i, o, -, -, ho, rfl⟩ := held_some hv
  have N := I.client.native
  cases hn : s.client.native with
  | none => exact absurd (by rw [address, hn]; rfl) h0
  | some n =>
    rw [hn] at N
    obtain ⟨-, -, pt, -, E⟩ := N
    have ha : s.address i = n.addresses i := by
      rw [address, hn]
      rfl
    dsimp only at h0 ⊢
    rw [ha] at h0 ⊢
    obtain ⟨o', bo, ho', hbo, -, -, hle⟩ := E.slot h0
    obtain rfl := Option.some.inj (ho.symm.trans ho')
    rwa [Memory.size, hbo]

/-- No buffer of a client is bound over another one. -/
theorem separate_held (I : s.Inv g) :
    Placement.Separate (Held.sizes s.held) (Held.addresses s.held) := by
  rintro h h' h0' ⟨h0, h1, h2⟩
  obtain ⟨i, o, rfl, ho, hi⟩ := addresses_ne h0
  obtain ⟨j, o', rfl, ho', hj⟩ := addresses_ne h0'
  rw [sizes_of_slot I ho, addresses_of_slot I ho, addresses_of_slot I ho'] at h1
  rw [sizes_of_slot I ho', addresses_of_slot I ho, addresses_of_slot I ho'] at h2
  have N := I.client.native
  have hn : ∃ n, s.client.native = some n := by
    refine Option.ne_none_iff_exists'.mp fun hnone => hi ?_
    rw [address, hnone]
    rfl
  obtain ⟨n, hn⟩ := hn
  have ha (k : Nat) : s.address k = n.addresses k := by
    rw [address, hn]
    rfl
  rw [ha] at h1 h2 hi hj
  rw [ha] at h1 h2
  rw [hn] at N
  obtain ⟨-, -, pt, -, E⟩ := N
  have hpos {k : Nat} {o : Owner} (ho : s.client.buffers k = some o) : 0 < s.mem.size o := by
    obtain ⟨-, -, -, bo, hbo, hb⟩ := I.client.holding.slot ho
    rw [Memory.size, hbo]
    exact hb
  have hpos₁ := hpos ho
  have hpos₂ := hpos ho'
  -- the two ranges have an address in common
  have hij : i = j := E.apart (a := max (n.addresses i) (n.addresses j))
    ⟨hi, o, ho, by omega, by omega⟩ ⟨hj, o', ho', by omega, by omega⟩
  rw [hij]

/-! ## Binding and unbinding -/

theorem unbindVirtual_ok (I : s.Inv g) (hv : s.held h = some v)
    (hr : s.unbindVirtual ω h 0 = (r, s')) : r = .ok .none := by
  obtain ⟨i, o, hf, hi, ho, -⟩ := held_some hv
  obtain ⟨-, h0, -⟩ := I.client.holding.slot ho
  rw [unbindVirtual, if_neg (by simpa [← hi] using h0), hf] at hr
  dsimp only at hr
  generalize hu : s.unmapVirtual ω i o = res at hr
  obtain ⟨r₁, s₁⟩ := res
  obtain ⟨rfl, -⟩ := unmapVirtual_spec I.mem I.client ho hu
  exact (congrArg Prod.fst hr).symm

/-- A buffer that is bound nowhere is mapped where there is room. -/
theorem bindVirtual_map (I : s.Inv g) (hn : s.client.native = some n) (hv : s.held h = some v)
    (hbound : v.bound = false) (h0 : v.address = 0) (hne : address ≠ 0)
    (haligned : address % 4096 = 0) (hfit : address + v.size ≤ kVirtualAddressLimit)
    (hfree : Placement.Free (Held.sizes s.held) (Held.addresses s.held) (h, address))
    (hr : s.bindVirtual ω n h 0 address = (r, s')) :
    ∃ slot buffer r₁ done m₁, s.find h = some (slot, buffer) ∧
      s.mem.map ω (.vm s.client.id) (s.mem.area buffer) address = (r₁, done, m₁) ∧
      s'.mem.os = m₁.os ∧
      (r₁ = .ok () ∧ r = .ok .none ∨ ∃ e, r₁ = .error e ∧ r = .error e) := by
  obtain ⟨i, o, hf, hi, ho, rfl⟩ := held_some hv
  obtain ⟨-, hh0, -, bo, hbo, hpos⟩ := I.client.holding.slot ho
  have hpos : 0 < s.mem.size o := by
    rw [Memory.size, hbo]
    exact hpos
  dsimp only at hbound h0 hfit
  have ha (k : Nat) : s.address k = n.addresses k := by
    rw [Session.address, hn]
    rfl
  rw [ha] at h0
  have hover : s.overlaps n address (s.mem.size o) = false := by
    rw [overlaps, List.any_eq_false]
    intro j hj hover
    simp only [Bool.and_eq_true, decide_eq_true_eq] at hover
    obtain ⟨⟨hj0, h1⟩, h2⟩ := hover
    have N := I.client.native
    rw [hn] at N
    obtain ⟨-, -, pt, -, E⟩ := N
    obtain ⟨o', -, ho', -⟩ := E.slot hj0
    rw [ho', Option.elim_some] at h1
    have hji : s.client.handles j ≠ h := by
      rintro heq
      have hbuf := held_of_slot I heq ho'
      rw [hv, ha, ha, h0] at hbuf
      exact hj0 (congrArg Held.address (Option.some.inj hbuf)).symm
    refine hfree _ hji ⟨?_, ?_, ?_⟩
    · rw [addresses_of_slot I ho', ha]
      exact hj0
    · rw [addresses_of_slot I ho', sizes_of_slot I ho', ha]
      exact h1
    · dsimp only
      rw [addresses_of_slot I ho', ha, ← hi, sizes_of_slot I ho]
      exact h2
  rw [bindVirtual, if_neg (by rw [← hi]; omega), hf] at hr
  dsimp only at hr
  rw [if_neg (by omega), if_neg (by rw [h0]; exact hne.symm), if_neg (by simp [h0, hbound]),
    if_neg (by simp [hover])] at hr
  generalize hm : s.mem.map ω (.vm s.client.id) (s.mem.area o) address = res at hr
  obtain ⟨e | u, done, m⟩ := res
  · cases hr
    refine ⟨i, o, _, _, _, hf, hm, ?_, .inr ⟨e, rfl, rfl⟩⟩
    exact congrArg Machine.os (unmap_spec (map_spec I.mem hm).1.inv (Prod.eta _).symm).2.2.1
  · cases hr
    exact ⟨i, o, _, _, _, hf, hm, rfl, .inl ⟨rfl, rfl⟩⟩

/-! ## What stays -/

theorem nativeState_renders {q : Except Error NativeState} (R : s.client.Renders)
    (hq : s.nativeState ω = (q, s')) : s'.client.Renders := by
  rcases nativeState_cases hq with ⟨n, -, -, rfl⟩ | ⟨-, ⟨-, hidle⟩ | ⟨m₁, r₂, m₂, -, -, h⟩⟩
  · exact R
  · rw [hidle.client]
    exact R
  · rcases h with ⟨-, rfl⟩ | ⟨-, -, rfl⟩
    · exact R
    · exact ⟨R.1, rfl⟩

theorem unbindVirtual_renders {reserved : Nat} (I : s.Inv g) (R : s.client.Renders)
    (hr : s.unbindVirtual ω h reserved = (r, s')) : s'.client.Renders := by
  rcases unbindVirtual_cases hr with ⟨-, rfl⟩ | ⟨slot, buffer, r₁, hf, hu⟩
  · exact R
  · obtain ⟨-, -, -, -, hc, -, -, hnative, -⟩ :=
      unmapVirtual_spec I.mem I.client (find_some hf).2.2 hu
    refine ⟨?_, ?_⟩
    · rw [hc]
      exact R.1
    · rw [hnative, Option.any_map]
      exact R.2

theorem bindVirtual_renders {flags : Nat} (R : s.client.Renders) (hn : s.client.native = some n)
    (hr : s.bindVirtual ω n h flags address = (r, s')) : s'.client.Renders := by
  have hf : n.faulted = false := by
    have hf := R.2
    rwa [hn] at hf
  rcases bindVirtual_cases hr with ⟨-, rfl⟩ | ⟨slot, buffer, -, -, -, -,
    ⟨-, -, rfl⟩ | ⟨-, -, -, r₁, done, m₁, -, ⟨-, rfl⟩ | ⟨-, -, rfl⟩⟩⟩
  · exact R
  · exact R
  · exact R
  · exact ⟨R.1, hf⟩

/-! ## Requests -/

theorem ioctl_eq_nativeIoctl (R : s.client.Renders) (hnative : request.isNative = true) :
    s.ioctl ω header request = s.nativeIoctl ω header request := by
  cases request with
  | createContext | destroyContext | bindVirtual | unbindVirtual | submitObjects
  | waitRenderFence | bufferLayout | cacheBuffer | getTopology =>
    simp only [ioctl, R.2, Bool.false_and, Bool.false_eq_true, ↓reduceIte, Request.isNative]
  | _ => cases hnative

/-- A request to the native interface is served, or something has failed. -/
theorem ioctl_native (I : s.Inv g) (R : s.client.Renders) (hnative : request.isNative = true)
    (hr : s.ioctl ω header request = (r, s')) :
    s'.client.Renders ∧ (∃ e, s.Hindered ω header request e ∧ r = .error e) ∨
    ∃ n s₁ s₂, s.nativeState ω = (.ok n, s₁) ∧
      s₁.readRequest ω header request.sizeof = (.ok (), s₂) ∧ s₂.Inv g ∧ s₂.held = s.held ∧
      s₂.client.native = some n ∧ s₂.client.Renders ∧ s₂.nativeRequest ω n request = (r, s') := by
  rw [ioctl_eq_nativeIoctl R hnative, nativeIoctl, if_neg (by simp [R.1])] at hr
  cases hn : s.nativeState ω with
  | mk q s₁ =>
    have R₁ := nativeState_renders R hn
    rw [hn] at hr
    cases q with
    | error e =>
      cases hr
      exact .inl ⟨R₁, e, .nativeState hn, rfl⟩
    | ok n =>
      dsimp only at hr
      cases hq : s₁.readRequest ω header request.sizeof with
      | mk q s₂ =>
        have hidle := readRequest_idle hq
        have R₂ : s₂.client.Renders := hidle.client ▸ R₁
        rw [hq] at hr
        cases q with
        | error e =>
          cases hr
          exact .inl ⟨R₂, e, .readRequest hn hq, rfl⟩
        | ok u =>
          exact .inr ⟨n, s₁, s₂, rfl, hq, (hidle.keeps (nativeState_keeps I R.1 hn).inv).inv,
            hidle.held.trans (nativeState_held I hn), hidle.client ▸ (nativeState_ok hn).1, R₂, hr⟩

theorem ioctl_unbindVirtual_ok (I : s.Inv g) (R : s.client.Renders) (hv : s.held h = some v)
    (hr : s.ioctl ω header (.unbindVirtual h 0) = (r, s')) :
    s'.client.Renders ∧ (r = .ok .none ∨
      ∃ e, s.Hindered ω header (.unbindVirtual h 0) e ∧ r = .error e) := by
  rcases ioctl_native I R rfl hr with ⟨R', hh⟩ | ⟨n, s₁, s₂, -, -, I₂, hheld, -, R₂, hr⟩
  · exact ⟨R', .inr hh⟩
  · exact ⟨unbindVirtual_renders I₂ R₂ hr, .inl (unbindVirtual_ok I₂ (hheld ▸ hv) hr)⟩

theorem ioctl_bindVirtual_ok (I : s.Inv g) (R : s.client.Renders) (hv : s.held h = some v)
    (hbound : v.bound = false) (h0 : v.address = 0) (hne : address ≠ 0)
    (haligned : address % 4096 = 0) (hfit : address + v.size ≤ kVirtualAddressLimit)
    (hfree : Placement.Free (Held.sizes s.held) (Held.addresses s.held) (h, address))
    (hr : s.ioctl ω header (.bindVirtual h 0 address) = (r, s')) :
    s'.client.Renders ∧ (r = .ok .none ∨
      ∃ e, s.Hindered ω header (.bindVirtual h 0 address) e ∧ r = .error e) := by
  rcases ioctl_native I R rfl hr with ⟨R', hh⟩ | ⟨n, s₁, s₂, hs, hq, I₂, hheld, hn, R₂, hr⟩
  · exact ⟨R', .inr hh⟩
  · refine ⟨bindVirtual_renders R₂ hn hr, ?_⟩
    obtain ⟨slot, buffer, r₁, done, m₁, hf, hm, -, h⟩ :=
      bindVirtual_map I₂ hn (hheld ▸ hv) hbound h0 hne haligned hfit (hheld ▸ hfree) hr
    rcases h with ⟨-, hok⟩ | ⟨e, rfl, he⟩
    · exact .inl hok
    · exact .inr ⟨e, .map hs hq hf (congrArg Prod.fst hm), he⟩

end Session

namespace Driver
variable {c h address : Nat} {k k' : Driver} {client : Int → Nat} {fd : Int} {request : Request}
  {r : Except Error Reply} {v : Held}

/-- A call fails before it reaches the driver, or for no reason of its own. -/
inductive Hindered (client : Int → Nat) (fd : Int) (request : Request) (k : Driver) (e : Error) :
    Prop where
  | refused (hr : k.turn.refused = some e)
  | session {x} (hx : k.device.clients (client fd) = some x)
    (hh : (k.next.session x).Hindered k.turn.oracle ⟨request.sizeof, kABIVersion, request.sizeof⟩
      request e)

/-- The native interface serves the client. -/
def Renders (c : Nat) (k : Driver) : Prop := ∃ x, k.device.clients c = some x ∧ x.Renders

theorem Open.separate (O : k.Open c) :
    Placement.Separate (Held.sizes (k.device.held c)) (Held.addresses (k.device.held c)) := by
  obtain ⟨g, I⟩ := O.inv
  obtain ⟨x, hx⟩ := Option.ne_none_iff_exists'.mp O.opened
  rw [Device.held_of_client hx]
  exact Session.separate_held (I.client hx).2.2

theorem Open.held_fits (O : k.Open c) (hv : k.device.held c h = some v) (h0 : v.address ≠ 0) :
    v.address + v.size ≤ kVirtualAddressLimit := by
  obtain ⟨g, I⟩ := O.inv
  obtain ⟨x, hx⟩ := Option.ne_none_iff_exists'.mp O.opened
  rw [Device.held_of_client hx] at hv
  exact Session.held_fits (I.client hx).2.2 hv h0

theorem ioctl_unbindVirtual_ok (O : k.Open (client fd)) (R : k.Renders (client fd))
    (hv : k.device.held (client fd) h = some v)
    (hr : Driver.ioctl client fd (.unbindVirtual h 0) k = (r, k')) :
    k'.Renders (client fd) ∧ (r = .ok .none ∨
      ∃ e, Hindered client fd (.unbindVirtual h 0) k e ∧ r = .error e) := by
  obtain ⟨x, hx, R⟩ := R
  obtain ⟨g, x', s', hx', S, hheld, -, hc, -, -, hserved⟩ := ioctl_session O rfl hr
  obtain rfl := Option.some.inj (hx.symm.trans hx')
  rcases hserved with ⟨⟨e, he, hr⟩, hclient, -⟩ | ⟨hnone, -, hs⟩
  · exact ⟨⟨_, hc, hclient ▸ R⟩, .inr ⟨e, .refused he, hr⟩⟩
  · obtain ⟨R', hok⟩ := Session.ioctl_unbindVirtual_ok S R (hheld ▸ hv) hs
    exact ⟨⟨_, hc, R'⟩, hok.imp_right fun ⟨e, hh, he⟩ => ⟨e, .session hx hh, he⟩⟩

theorem ioctl_bindVirtual_ok (O : k.Open (client fd)) (R : k.Renders (client fd))
    (hv : k.device.held (client fd) h = some v) (hbound : v.bound = false) (h0 : v.address = 0)
    (hne : address ≠ 0) (haligned : address % 4096 = 0)
    (hfit : address + v.size ≤ kVirtualAddressLimit)
    (hfree : Placement.Free (Held.sizes (k.device.held (client fd)))
      (Held.addresses (k.device.held (client fd))) (h, address))
    (hr : Driver.ioctl client fd (.bindVirtual h 0 address) k = (r, k')) :
    k'.Renders (client fd) ∧
      (r = .ok .none ∨
        ∃ e, Hindered client fd (.bindVirtual h 0 address) k e ∧ r = .error e) := by
  obtain ⟨x, hx, R⟩ := R
  obtain ⟨g, x', s', hx', S, hheld, -, hc, -, -, hserved⟩ := ioctl_session O rfl hr
  obtain rfl := Option.some.inj (hx.symm.trans hx')
  rcases hserved with ⟨⟨e, he, hr⟩, hclient, -⟩ | ⟨hnone, -, hs⟩
  · exact ⟨⟨_, hc, hclient ▸ R⟩, .inr ⟨e, .refused he, hr⟩⟩
  · obtain ⟨R', hok⟩ := Session.ioctl_bindVirtual_ok S R (hheld ▸ hv) hbound h0 hne haligned hfit
      (hheld ▸ hfree) hs
    exact ⟨⟨_, hc, R'⟩, hok.imp_right fun ⟨e, hh, he⟩ => ⟨e, .session hx hh, he⟩⟩

end Driver

end IntelGfx
