import IntelGfx.Mesa.Driver
import IntelGfx.Verify.Device

/-!
# What the driver holds for the winsys

`Session.held` is all that the winsys keeps a copy of: which handles name a buffer, of what size and
where it is bound. There is a lemma for each request of the winsys that says how it changes. A
request that fails does not change it, and neither do the other users of the device.
-/

namespace IntelGfx
open Memory RenderEngine

/-- A buffer of a client: its size, where it is bound in the native page tables, and whether it is
bound in the global GTT. -/
structure Held where
  size : Nat
  address : Nat
  bound : Bool

/-- One of the two limits of a client is in the way of a buffer. -/
def RenderClient.Limited (x : RenderClient) (size : Nat) : Prop :=
  sub64 kClientMemoryLimit x.allocated < pageRound size ∨
    ∀ i, i < kMaxBuffers → x.buffers i ≠ none

namespace Memory
variable {ω : Oracle} {m m' : Memory} {o : Owner} {e : Error}

/-! ## Failed calls are counted -/

theorem allocate_error (h : m.allocate ω = (.error e, m')) : m.os.faults < m'.os.faults := by
  unfold allocate at h
  split at h
  · cases h
    exact Nat.lt_succ_self _
  · exact nomatch h

theorem userMemcpy_error (h : m.userMemcpy ω = (.error e, m')) : m.os.faults < m'.os.faults := by
  unfold userMemcpy Os.userMemcpy at h
  cases hf : ω.fails m.os.calls with
  | none =>
    rw [hf] at h
    exact nomatch h
  | some e =>
    rw [hf] at h
    cases h
    exact Nat.lt_succ_self _

theorem newObject_error {size : Nat} (h : m.newObject ω o size = (.error e, m')) :
    m.os.faults < m'.os.faults := by
  unfold newObject BufferObject.init at h
  split at h
  · next hi =>
    split at hi
    · next hc =>
      cases hi
      cases h
      exact (Os.createArea_error hc).2
    · exact nomatch hi
  · exact nomatch h

theorem newObject_faults {size : Nat} (h : m.newObject ω o size = (.ok (), m')) :
    m.os.faults ≤ m'.os.faults := by
  unfold newObject at h
  split at h
  · exact nomatch h
  · next bo os' hi =>
    obtain ⟨a, hc, -⟩ := BufferObject.init_ok hi
    cases h
    exact (Os.createArea_ok hc).2.2.2.1.ge

theorem deleteObject_faults (m : Memory) (o : Owner) :
    (m.deleteObject o).os.faults = m.os.faults := by
  unfold deleteObject
  split
  · rfl
  next bo _ =>
  have hu : (bo.unbind m.machine).2.2.os = m.machine.os := by
    unfold BufferObject.unbind
    split
    · rfl
    · rfl
  change (bo.destroy m.machine).os.faults = m.machine.os.faults
  rw [BufferObject.destroy, ← hu]
  generalize bo.unbind m.machine = res
  cases bo.area with
  | none => rfl
  | some a => rfl

end Memory

namespace Session
variable {ω : Oracle} {g g' : GlobalGTT} {s s' : Session} {r : Except Error Reply} {h i : Nat}
  {o : Owner}

/-- Where the buffer in a slot is bound in the native page tables. -/
def address (s : Session) (i : Nat) : Nat := s.client.native.elim 0 (·.addresses i)

/-- The buffer that a handle names. -/
def held (s : Session) (h : Nat) : Option Held :=
  (s.find h).map fun b => ⟨s.mem.size b.2, s.address b.1, s.mem.isBound b.2⟩

/-- The buffer in a slot is what its handle names. -/
theorem find_of_slot (I : s.Inv g) (hh : s.client.handles i = h)
    (ho : s.client.buffers i = some o) : s.find h = some (i, o) := by
  have H := I.client.holding
  cases hf : s.find h with
  | none =>
    have hnone := List.findSome?_eq_none_iff.mp hf i (List.mem_range.mpr (H.slot ho).1)
    rw [if_pos hh, ho] at hnone
    exact nomatch hnone
  | some b =>
    obtain ⟨j, o'⟩ := b
    obtain ⟨-, hj, ho'⟩ := find_some hf
    obtain rfl : o' = o := by rw [(H.slot ho).2.2.1, (H.slot ho').2.2.1, hj, hh]
    obtain rfl := H.inj ho ho'
    rfl

theorem held_of_slot (I : s.Inv g) (hh : s.client.handles i = h)
    (ho : s.client.buffers i = some o) : s.held h = some ⟨s.mem.size o, s.address i,
    s.mem.isBound o⟩ := by
  rw [held, find_of_slot I hh ho]
  rfl

theorem held_some {v : Held} (hv : s.held h = some v) : ∃ i o, s.find h = some (i, o) ∧
    s.client.handles i = h ∧ s.client.buffers i = some o ∧
      v = ⟨s.mem.size o, s.address i, s.mem.isBound o⟩ := by
  obtain ⟨⟨i, o⟩, hf, rfl⟩ := Option.map_eq_some_iff.mp hv
  exact ⟨i, o, hf, (find_some hf).2.1, (find_some hf).2.2, rfl⟩

theorem held_none (hh : ∀ i o, s.client.buffers i = some o → s.client.handles i ≠ h) :
    s.held h = none := by
  by_contra hne
  obtain ⟨v, hv⟩ := Option.ne_none_iff_exists'.mp hne
  obtain ⟨i, o, -, hi, ho, -⟩ := held_some hv
  exact hh i o ho hi

/-- A handle names what it did if its slot is as it was. -/
theorem held_congr (I : s.Inv g) (I' : s'.Inv g') (hslot : ∀ i o, s.client.buffers i = some o →
      s.client.handles i = h → s'.client.buffers i = some o ∧ s'.client.handles i = h ∧
        s'.mem.objects o = s.mem.objects o ∧ s'.address i = s.address i)
    (hback : ∀ i o, s'.client.buffers i = some o → s'.client.handles i = h →
      ∃ o', s.client.buffers i = some o' ∧ s.client.handles i = h) : s'.held h = s.held h := by
  cases hv : s.held h with
  | none =>
    refine held_none fun i o ho hi => ?_
    obtain ⟨o', ho', hi'⟩ := hback i o ho hi
    exact nomatch hv.symm.trans (held_of_slot I hi' ho')
  | some v =>
    obtain ⟨i, o, -, hi, ho, rfl⟩ := held_some hv
    obtain ⟨ho', hi', hobj, ha⟩ := hslot i o ho hi
    rw [held_of_slot I' hi' ho', Memory.size, isBound, hobj, ha]
    rfl

/-- What is made of other objects leaves the buffers as they are. -/
theorem held_of_client (hc : s'.client.handles = s.client.handles)
    (hb : s'.client.buffers = s.client.buffers) (ha : s'.address = s.address)
    (hobj : ∀ {i o}, s.client.buffers i = some o → s'.mem.objects o = s.mem.objects o) :
    s'.held = s.held := by
  funext h
  have hfind : s'.find h = s.find h := by rw [find, find, hc, hb]
  rw [held, held, hfind]
  cases hf : s.find h with
  | none => rfl
  | some b =>
    have hobj := hobj (find_some hf).2.2
    simp only [Option.map_some, Memory.size, isBound, hobj, ha]

theorem Idle.held (h : Idle s s') : s'.held = s.held :=
  held_of_client (by rw [h.client]) (by rw [h.client]) (by unfold address; rw [h.client])
    fun _ => congrFun h.mem.objects _

theorem address_free (I : s.Inv g) (hi : s.client.buffers i = none) : s.address i = 0 := by
  unfold address
  cases hn : s.client.native with
  | none => rfl
  | some n =>
    by_contra hne
    obtain ⟨o, bo, ho, -⟩ := I.client.native.slot hn hne
    exact nomatch hi.symm.trans ho

/-! ## `kCreateBuffer` -/

theorem createBuffer_held {size flags reserved : Nat} (I : s.Inv g)
    (hr : s.createBuffer ω size flags reserved = (r, s')) :
    (∃ e, r = .error e) ∧ s'.held = s.held ∧ s'.client.allocated = s.client.allocated ∨
    ∃ size handle area, r = .ok (.buffer size handle area) ∧ s.held handle = none ∧
      s'.held = Function.update s.held handle (some ⟨size, 0, false⟩) := by
  have I' := (createBuffer_keeps I hr).inv
  rcases createBuffer_cases hr with ⟨herr, hidle⟩ | ⟨slot, m₁, r₁, m₂, hn, -, -, -, hlt, hfree, I₁,
    hnew, hr⟩
  · exact .inl ⟨herr, hidle.held, by rw [hidle.client]⟩
  have hold := I.client.holding
  have hfresh := hold.fresh hn
  obtain ⟨M₂, -, -, herr, hok⟩ := newObject_spec (I₁.moves (K := fun _ => False) I.mem).inv
    (Owner.isObject_buffer _ _) ((congrFun I₁.objects _).trans hfresh) (pageRound_mod size) hnew
  have hne {i : Nat} {o : Owner} (ho : s.client.buffers i = some o) :
      o ≠ .buffer s.client.id s.client.nextHandle := by
    rintro rfl
    obtain ⟨-, -, -, bo, hbo, -⟩ := hold.slot ho
    cases hfresh.symm.trans hbo
  have hrest {i : Nat} {o : Owner} (ho : s.client.buffers i = some o) :
      m₂.objects o = s.mem.objects o := (M₂.objects (hne ho)).trans (congrFun I₁.objects o)
  rcases hr with ⟨⟨e, -, he⟩, rfl⟩ | ⟨rfl, m₃, I₃, hr⟩
  · exact .inl ⟨⟨e, he⟩, held_of_client rfl rfl rfl fun ho => hrest ho, rfl⟩
  obtain ⟨bo, hobj, hbound, hsize⟩ := hok rfl
  rcases hr with ⟨herr, rfl⟩ | ⟨rfl, rfl⟩
  · refine .inl ⟨herr, held_of_client rfl rfl rfl fun {i o} ho => ?_, rfl⟩
    dsimp only
    rw [(deleteObject_spec (I₃.moves (K := fun _ => False) M₂.inv).inv _).2.2,
      Function.update_of_ne (hne ho), I₃.objects, hrest ho]
  -- no slot has the new handle
  have hhandle {i : Nat} {o : Owner} (ho : s.client.buffers i = some o) :
      s.client.handles i ≠ s.client.nextHandle := by
    intro hi
    have heq := (hold.slot ho).2.2.1
    rw [hi] at heq
    exact hne ho heq
  refine .inr ⟨_, _, _, rfl, held_none fun i o ho => hhandle ho, funext fun k => ?_⟩
  by_cases hk : k = s.client.nextHandle
  · subst hk
    have hbo : m₃.objects (.buffer s.client.id s.client.nextHandle) = some bo := by
      rw [I₃.objects, hobj, Function.update_self]
    have hslot := @held_of_slot g _ s.client.nextHandle slot _ I'
      (Function.update_self ..) (Function.update_self ..)
    rw [Function.update_self, hslot]
    simp only [Memory.size, isBound, hbo, hsize, Option.any_some, BufferObject.isBound, hbound]
    exact congrArg (fun a => some (Held.mk _ a false)) (address_free I hfree)
  · rw [Function.update_of_ne hk]
    refine held_congr I I' (fun i o ho hi => ?_) fun i o ho hi => ?_
    · have hi' : i ≠ slot := by
        rintro rfl
        cases hfree.symm.trans ho
      exact ⟨(Function.update_of_ne hi' ..).trans ho, (Function.update_of_ne hi' ..).trans hi,
        (congrFun I₃.objects o).trans (hrest ho), rfl⟩
    · dsimp only at ho hi
      rw [Function.update_apply] at ho hi
      split at ho
      · next heq =>
        rw [if_pos heq] at hi
        exact absurd hi.symm hk
      · next hne =>
        rw [if_neg hne] at hi
        exact ⟨o, ho, hi⟩

/-- Why a buffer is refused: no handle is left, or there is a limit, or a call of the system
fails. -/
theorem createBuffer_error {size : Nat} {e : Error} (hpos : 0 < size) (hle : size ≤ kMaxBufferSize)
    (hlimit : ¬ s.client.Limited size) (hr : s.createBuffer ω size 0 0 = (.error e, s')) :
    s.client.nextHandle = 0 ∨ s.mem.os.faults < s'.mem.os.faults := by
  rw [RenderClient.Limited, not_or, not_forall] at hlimit
  obtain ⟨hmem, i, hi⟩ := hlimit
  rw [Classical.not_imp, Decidable.not_not] at hi
  by_cases hn : s.client.nextHandle = 0
  · exact .inl hn
  unfold createBuffer at hr
  dsimp only at hr
  rw [if_neg (by omega), if_neg hmem] at hr
  split at hr
  · next hslot =>
    have hused := List.find?_eq_none.mp hslot i (List.mem_range.mpr hi.1)
    rw [hi.2] at hused
    exact absurd rfl hused
  next slot hslot =>
  split at hr
  · next m hm =>
    cases hr
    exact .inr (allocate_error hm)
  next m₁ hm₁ =>
  have hle₁ := (allocate_idle hm₁).os.2.2.2
  split at hr
  · next m₂ hm₂ =>
    cases hr
    exact .inr (Nat.lt_of_le_of_lt hle₁ (newObject_error hm₂))
  next m₂ hm₂ =>
  have hle₂ := hle₁.trans (newObject_faults hm₂)
  split at hr
  · next m₃ hm₃ =>
    cases hr
    refine .inr (Nat.lt_of_le_of_lt hle₂ ?_)
    rw [deleteObject_faults]
    exact userMemcpy_error hm₃
  · exact nomatch hr

theorem readRequest_error {size : Nat} {e : Error}
    (hr : s.readRequest ω ⟨size, kABIVersion, size⟩ size = (.error e, s')) :
    s.mem.os.faults < s'.mem.os.faults := by
  unfold readRequest at hr
  rw [if_neg (not_not_intro rfl)] at hr
  split at hr
  · next hm =>
    cases hr
    exact userMemcpy_error hm
  · rw [if_neg (by simp)] at hr
    exact nomatch hr

theorem readRequest_unfailing (size : Nat) :
    s.readRequest .unfailing ⟨size, kABIVersion, size⟩ size =
      (.ok (), s.setMem (s.mem.setOs s.mem.os.called)) := by
  unfold readRequest
  rw [if_neg (not_not_intro rfl)]
  exact if_neg (by simp)

/-- Why a request for a buffer fails. -/
theorem ioctl_createBuffer_error {size : Nat} {e : Error} (hpos : 0 < size)
    (hle : size ≤ kMaxBufferSize) (hlimit : ¬ s.client.Limited size)
    (hgate : s.client.native.any (·.faulted) = false)
    (hr : s.ioctl ω ⟨32, kABIVersion, 32⟩ (.createBuffer size 0 0) = (.error e, s')) :
    s.client.nextHandle = 0 ∨ s.mem.os.faults < s'.mem.os.faults := by
  unfold ioctl at hr
  dsimp only at hr
  rw [hgate, Bool.false_and, if_neg Bool.false_ne_true, if_neg (by exact Bool.false_ne_true)] at hr
  generalize hq : s.readRequest ω ⟨32, kABIVersion, 32⟩ (Request.createBuffer size 0 0).sizeof = res
    at hr
  obtain ⟨q, s₁⟩ := res
  cases q with
  | error e =>
    cases hr
    exact .inr (readRequest_error hq)
  | ok u =>
    have hidle := readRequest_idle hq
    rw [← hidle.client] at hlimit ⊢
    exact (createBuffer_error hpos hle hlimit hr).imp_right
      (Nat.lt_of_le_of_lt hidle.mem.os.2.2.2)

/-! ## `kCloseBuffer` -/

/-- The address of a slot that `_UnmapVirtual` has cleared. -/
theorem unmapped_address {slot : Nat}
    (hnative : s'.client.native = s.client.native.map (fun n => { n with
      addresses := Function.update n.addresses slot 0
      tiling := Function.update n.tiling slot 0
      stride := Function.update n.stride slot 0 })) :
    s'.address = Function.update s.address slot 0 := by
  funext i
  unfold address
  rw [hnative, Function.update_apply]
  cases s.client.native with
  | none => exact (ite_self _).symm
  | some n => exact Function.update_apply ..

/-- What is left to do once the buffer is out of the page tables. -/
theorem closing_spec {slot : Nat} {buffer : Owner} {r₁ : Except Error Unit} {s₁ : Session}
    (I : s.Inv g) (hslot : s.client.buffers slot = some buffer)
    (hu : (s.leaveEngines ω buffer).unmapVirtual ω slot buffer = (r₁, s₁)) :
    r₁ = .ok () ∧ s₁.mem.Inv g ∧ s₁.mem.objects = s.mem.objects ∧ s₁.client.id = s.client.id ∧
      s₁.client.buffers = s.client.buffers ∧ s₁.client.handles = s.client.handles ∧
      s₁.client.allocated = s.client.allocated ∧
      s₁.client.native.any (·.faulted) = s.client.native.any (·.faulted) ∧
      s₁.address = Function.update s.address slot 0 := by
  obtain ⟨hc, -, M₁, hobj₁, -, -, C₁⟩ := leaveEngines_spec ω I.mem I.client buffer
  have hslot₁ : (s.leaveEngines ω buffer).client.buffers slot = some buffer := by rwa [hc]
  have C₁ : (s.leaveEngines ω buffer).client.Inv (s.leaveEngines ω buffer).mem := by
    rw [hc]
    exact ⟨C₁.holding, C₁.equipped, C₁.native⟩
  obtain ⟨rfl, M₂, hobj₂, -, hc₂, -, -, hnative, -⟩ := unmapVirtual_spec M₁.inv C₁ hslot₁ hu
  rw [hc] at hc₂ hnative
  exact ⟨rfl, M₂.inv, hobj₂.trans hobj₁, by rw [hc₂], by rw [hc₂], by rw [hc₂], by rw [hc₂],
    by rw [hnative, Option.any_map], unmapped_address hnative⟩

theorem closeBuffer_held {reserved : Nat} (I : s.Inv g)
    (hr : s.closeBuffer ω h reserved = (r, s')) : (∃ e, r = .error e) ∧ s' = s ∨
    r = .ok .none ∧ ∃ v, s.held h = some v ∧ s'.held = Function.update s.held h none ∧
      s'.client.allocated + v.size = s.client.allocated ∧
      s'.client.native.any (·.faulted) = s.client.native.any (·.faulted) ∧
      ∃ i, i < kMaxBuffers ∧ s'.client.buffers i = none := by
  have I' := (closeBuffer_keeps I hr).inv
  rcases closeBuffer_cases hr with herr | ⟨slot, buffer, r₁, s₁, hfind, hu, hr⟩
  · exact .inl herr
  obtain ⟨hlt, hh, hslot⟩ := find_some hfind
  obtain ⟨rfl, H, hobj, hid, hbuffers, hhandles, hallocated, hfaulted, haddress⟩ :=
    closing_spec I hslot hu
  rcases hr with ⟨⟨e, he, -⟩, -⟩ | ⟨-, rfl, rfl⟩
  · cases he
  have hcharge := I.accounts.charge_le hlt
  have hsub := I.accounts.sub_charge hlt
  rw [(charge_some hslot).1] at hcharge hsub
  have hsize : s₁.mem.size buffer = s.mem.size buffer := by rw [Memory.size, hobj, Memory.size]
  refine .inr ⟨rfl, _, held_of_slot I hh hslot, funext fun k => ?_, ?_, hfaulted, slot, hlt, ?_⟩
  · by_cases hk : k = h
    · subst hk
      rw [Function.update_self]
      refine held_none fun i o ho hi => ?_
      dsimp only at ho hi
      rw [Function.update_apply] at ho hi
      split at ho
      · cases ho
      · next hne =>
        rw [if_neg hne, hhandles] at hi
        rw [hbuffers] at ho
        obtain ⟨-, h0, rfl, -⟩ := I.client.holding.slot ho
        obtain ⟨-, -, rfl, -⟩ := I.client.holding.slot hslot
        rw [hi, ← hh] at ho
        exact hne (I.client.holding.inj ho hslot)
    · rw [Function.update_of_ne hk]
      have hmove (i : Nat) (hi : s.client.handles i = k) : i ≠ slot := by
        rintro rfl
        exact hk (hi.symm.trans hh)
      refine held_congr I I' (fun i o ho hi => ?_) fun i o ho hi => ?_
      · have hne := hmove i hi
        have hobject : o ≠ buffer := by
          rintro rfl
          exact hne (I.client.holding.inj ho hslot)
        refine ⟨?_, ?_, ?_, ?_⟩
        · dsimp only
          rw [Function.update_of_ne hne, hbuffers, ho]
        · dsimp only
          rw [Function.update_of_ne hne, hhandles, hi]
        · dsimp only
          rw [(deleteObject_spec H buffer).2.2, Function.update_of_ne hobject, hobj]
        · exact (congrFun haddress i).trans (Function.update_of_ne hne ..)
      · dsimp only at ho hi
        rw [Function.update_apply] at ho hi
        split at ho
        · cases ho
        · next hne =>
          rw [if_neg hne, hhandles] at hi
          rw [hbuffers] at ho
          exact ⟨o, ho, hi⟩
  · dsimp only
    rw [hallocated, hsize, hsub]
    exact Nat.sub_add_cancel hcharge
  · exact Function.update_self ..

/-! ## `kBindVirtual` and `kUnbindVirtual` -/

/-- A buffer is bound or unbound. -/
theorem held_address {a : Nat} (I : s.Inv g) (hf : s.find h = some (i, o))
    (hc : s'.client.handles = s.client.handles) (hb : s'.client.buffers = s.client.buffers)
    (hobj : ∀ {i o}, s.client.buffers i = some o → s'.mem.objects o = s.mem.objects o)
    (ha : s'.address = Function.update s.address i a) :
    ∃ v, s.held h = some v ∧
      s'.held = Function.update s.held h (some { v with address := a }) := by
  obtain ⟨-, hi, ho⟩ := find_some hf
  refine ⟨_, held_of_slot I hi ho, funext fun k => ?_⟩
  have hfind : s'.find k = s.find k := by rw [find, find, hc, hb]
  rw [held, hfind, Function.update_apply]
  split
  · next hk =>
    subst hk
    simp only [hf, Option.map_some, Memory.size, isBound, hobj ho, ha, Function.update_self]
  · next hk =>
    rw [held]
    cases hfk : s.find k with
    | none => rfl
    | some b =>
      obtain ⟨-, hj, ho'⟩ := find_some hfk
      have hne : b.1 ≠ i := by
        rintro heq
        exact hk (hj.symm.trans (heq ▸ hi))
      simp only [Option.map_some, Memory.size, isBound, hobj ho', ha, Function.update_of_ne hne]

theorem unbindVirtual_held {reserved : Nat} (I : s.Inv g)
    (hr : s.unbindVirtual ω h reserved = (r, s')) : (∃ e, r = .error e) ∧ s' = s ∨
    r = .ok .none ∧ ∃ v, s.held h = some v ∧
      s'.held = Function.update s.held h (some { v with address := 0 }) := by
  unfold unbindVirtual at hr
  split at hr
  · cases hr
    exact .inl ⟨⟨_, rfl⟩, rfl⟩
  split at hr
  · cases hr
    exact .inl ⟨⟨_, rfl⟩, rfl⟩
  next slot buffer hfind =>
  generalize hu : s.unmapVirtual ω slot buffer = res at hr
  obtain ⟨r₁, s₁⟩ := res
  obtain ⟨-, -, hslot⟩ := find_some hfind
  obtain ⟨rfl, -, hobj, -, hc, -, -, hnative, -⟩ := unmapVirtual_spec I.mem I.client hslot hu
  cases hr
  exact .inr ⟨rfl, held_address I hfind (by rw [hc]) (by rw [hc]) (fun _ => congrFun hobj _)
    (unmapped_address hnative)⟩

theorem bindVirtual_held {n : NativeState} {flags address : Nat} (I : s.Inv g)
    (hn : s.client.native = some n) (hr : s.bindVirtual ω n h flags address = (r, s')) :
    (∃ e, r = .error e) ∧ s'.held = s.held ∨ r = .ok .none ∧ ∃ v, s.held h = some v ∧
      s'.held = Function.update s.held h (some { v with address := address }) := by
  rcases bindVirtual_cases hr with ⟨herr, rfl⟩ | ⟨slot, buffer, hfind, -, -, -,
    ⟨ha, rfl, rfl⟩ | ⟨-, -, -, r₁, done, m₁, hm, hr⟩⟩
  · exact .inl ⟨herr, rfl⟩
  · refine .inr ⟨rfl,
      held_address I hfind rfl rfl (fun _ => rfl) (Function.update_eq_self_iff.mpr ?_).symm⟩
    rw [Session.address, hn]
    exact ha.symm
  obtain ⟨M₁, hobj₁, -⟩ := map_spec I.mem hm
  rcases hr with ⟨⟨e, -, he⟩, rfl⟩ | ⟨-, rfl, rfl⟩
  · generalize hu : m₁.unmap ω (.vm s.client.id) address (m₁.size buffer) = res
    obtain ⟨r₂, m₂⟩ := res
    obtain ⟨-, hobj₂, -⟩ := unmap_spec M₁.inv hu
    exact .inl ⟨⟨e, he⟩, held_of_client rfl rfl rfl fun _ => congrFun (hobj₂.trans hobj₁) _⟩
  · refine .inr ⟨rfl, held_address I hfind rfl rfl (fun _ => congrFun hobj₁ _) (funext fun i => ?_)⟩
    change Function.update n.addresses slot address i = _
    rw [Function.update_apply, Function.update_apply, Session.address, hn]
    rfl

/-! ## Requests that bind nothing -/

theorem bufferLayout_held {n : NativeState} {tiling stride reserved : Nat}
    (hn : s.client.native = some n)
    (hr : s.bufferLayout n h tiling stride reserved = (r, s')) : s'.held = s.held := by
  unfold bufferLayout at hr
  generalize (if tiling = 1 then 512 else 128) = unit at hr
  split at hr
  · cases hr
    rfl
  split at hr
  · cases hr
    rfl
  split at hr
  · cases hr
    rfl
  cases hr
  refine held_of_client rfl rfl (funext fun i => ?_) fun _ => rfl
  rw [address, address, hn]
  rfl

theorem submitObjects_held {n : NativeState}
    {context batchHandle offset length fence count flags : Nat}
    {handles : Nat → Nat} (I : s.Inv g) (hn : s.client.native = some n)
    (hr : s.submitObjects ω n context batchHandle offset length fence count flags
    handles = (r, s')) :
    s'.held = s.held := by
  rcases submitObjects_cases hr with ⟨-, rfl⟩ | ⟨place, k, status, x', masters', m', hk, hs, hr⟩
  · rfl
  obtain ⟨x, slot, batch, -, -, -, -, -, -, -, -, rfl⟩ := handObjects_ok hk
  obtain ⟨-, -, -, -, -, hobj, -⟩ := submit_aged I.mem hs
  have haddress (n' : NativeState) (h : n'.addresses = n.addresses) :
      (Session.mk { s.client with native := some n' } masters' m').held = s.held := by
    refine held_of_client rfl rfl (funext fun i => ?_) fun _ => congrFun hobj _
    rw [address, address, hn]
    exact congrFun h i
  rcases hr with ⟨-, rfl⟩ | ⟨-, hidle⟩
  · exact haddress _ rfl
  · exact hidle.held.trans (haddress _ rfl)

theorem createContext_held {n : NativeState} {context flags : Nat} (I : s.Inv g)
    (hn : s.client.native = some n) (hr : s.createContext ω n context flags = (r, s')) :
    s'.held = s.held := by
  rcases createContext_cases hr with ⟨-, hidle⟩ | ⟨slot, m₁, r₂, x, m₂, -, -, hnext, I₁, hi, hr⟩
  · exact hidle.held
  have N := I.client.native
  rw [hn] at N
  obtain ⟨R, -, pt, hpt, -⟩ := N
  have M₁ : Moves g (ContextId.native s.client.id n.nextContext).Owns s.mem m₁ := I₁.moves I.mem
  obtain ⟨M₂, -, herr, hok⟩ := init_spec M₁.inv
    (fun p => (congrFun I₁.objects _).trans (R.fresh hnext p))
    (.inr ⟨pt, (congrFun I₁.tables _).trans hpt⟩) hi
  have M₂ := M₁.trans M₂
  -- only what belongs to the context is made
  have hrest {v : Option NativeState} {m : Memory} (hv : ∀ i,
      v.elim 0 (·.addresses i) = s.address i)
      (M : Moves g (ContextId.native s.client.id n.nextContext).Owns s.mem m) :
      (Session.mk { s.client with native := v } s.masters m).held = s.held := by
    refine held_of_client rfl rfl (funext hv) fun {i o} ho => M.objects ?_
    obtain ⟨-, -, rfl, -⟩ := I.client.holding.slot ho
    exact id
  have haddress (n' : NativeState) (h : n'.addresses = n.addresses) (i : Nat) :
      (some n').elim 0 (·.addresses i) = s.address i := by
    rw [address, hn]
    exact congrFun h i
  have hdestroy {m : Memory} (hx : x.id = .native s.client.id n.nextContext)
      (M : Moves g (ContextId.native s.client.id n.nextContext).Owns s.mem m) :
      Moves g (ContextId.native s.client.id n.nextContext).Owns s.mem (x.destroy m) :=
    M.trans (hx ▸ (RenderEngine.destroy_spec M.inv x).1)
  rcases hr with ⟨⟨e, rfl, -⟩, rfl⟩ | ⟨rfl, m₃, I₃, ⟨-, rfl⟩ | ⟨-, rfl⟩⟩
  · exact hrest (v := s.client.native) (fun _ => rfl) (hdestroy (by rw [herr e rfl]; rfl) M₂)
  · obtain ⟨rfl, -⟩ := hok rfl
    exact hrest (haddress _ rfl) (hdestroy rfl (M₂.trans (I₃.moves M₂.inv)))
  · exact hrest (haddress _ rfl) (M₂.trans (I₃.moves M₂.inv))

theorem destroyContext_held {n : NativeState} {context reserved : Nat} (I : s.Inv g)
    (hn : s.client.native = some n) (hr : s.destroyContext n context reserved = (r, s')) :
    s'.held = s.held := by
  rcases destroyContext_cases hr with ⟨-, rfl⟩ | ⟨slot, -, hid, h0, -, rfl⟩
  · rfl
  have N := I.client.native
  rw [hn] at N
  obtain ⟨R, -⟩ := N
  obtain ⟨x, hx⟩ := R.named (hid ▸ h0)
  obtain ⟨-, -, hxid, -⟩ := R.context hx
  obtain ⟨M, -⟩ := RenderEngine.destroy_spec I.mem x
  rw [hx]
  refine held_of_client rfl rfl (funext fun i => ?_) fun {i o} ho => M.objects ?_
  · rw [address, address, hn]
    rfl
  · obtain ⟨-, -, rfl, -⟩ := I.client.holding.slot ho
    rw [hxid]
    exact id

/-- Requests of the native interface that bind nothing. -/
def bindsNothing : Request → Bool
  | .bufferLayout .. | .submitObjects .. | .createContext .. | .destroyContext .. => true
  | _ => false

theorem nativeRequest_held {n : NativeState} {request : Request} (I : s.Inv g)
    (hn : s.client.native = some n) (hb : bindsNothing request = true)
    (hr : s.nativeRequest ω n request = (r, s')) : s'.held = s.held := by
  cases request with
  | bufferLayout => exact bufferLayout_held hn hr
  | submitObjects => exact submitObjects_held I hn hr
  | createContext => exact createContext_held I hn hr
  | destroyContext => exact destroyContext_held I hn hr
  | _ => exact nomatch hb

/-! ## Requests -/

theorem nativeState_held {q : Except Error NativeState} (I : s.Inv g)
    (hq : s.nativeState ω = (q, s')) : s'.held = s.held := by
  rcases nativeState_cases hq with ⟨n, -, -, rfl⟩ | ⟨hn, ⟨-, hidle⟩ | ⟨m₁, r₂, m₂, I₁, hm₂, h⟩⟩
  · rfl
  · exact hidle.held
  have N := I.client.native
  rw [hn] at N
  obtain ⟨-, hobj₂, -⟩ := newTables_spec (I₁.moves (K := fun _ => False) I.mem).inv
    (Owner.isTables_vm _) ((congrFun I₁.tables _).trans N.1) hm₂
  have hobj := hobj₂.trans I₁.objects
  rcases h with ⟨-, rfl⟩ | ⟨-, -, rfl⟩
  · exact held_of_client rfl rfl rfl fun _ => congrFun hobj _
  · refine held_of_client rfl rfl (funext fun i => ?_) fun _ => congrFun hobj _
    rw [address, address, hn]
    rfl

/-- A request does not get past the checks that all requests pass, or it is served. -/
theorem ioctl_served {header : Header} {request : Request} (I : s.Inv g)
    (hr : s.ioctl ω header request = (r, s')) (hg : request ≠ .gpuActivity) :
    (∃ e, r = .error e) ∧ s'.held = s.held ∧ s'.client.allocated = s.client.allocated ∨
    request.isNative = false ∧
      (passesGate request = false → s.client.native.any (·.faulted) = false) ∧
      (∃ s₁ : Session, Idle s s₁ ∧ s₁.legacyRequest ω request = (r, s')) ∨
    request.isNative = true ∧ ∃ (s₁ : Session) (n : NativeState), s₁.Inv g ∧ s₁.held = s.held ∧
      s₁.client.native = some n ∧ s₁.nativeRequest ω n request = (r, s') := by
  obtain ⟨legacy, herror, hok, hioctl⟩ : ∃ legacy,
      (∀ e s₁, s.readRequest ω header request.sizeof = (.error e, s₁) → legacy = (.error e, s₁)) ∧
      (∀ s₁, s.readRequest ω header request.sizeof = (.ok (), s₁) →
        legacy = s₁.legacyRequest ω request) ∧
      s.ioctl ω header request =
        if s.client.native.any (·.faulted) && !passesGate request then (.error .devNotReady, s) else
        if request.isNative then s.nativeIoctl ω header request else legacy := by
    cases request with
    | gpuActivity => exact absurd rfl hg
    | _ => exact ⟨_, fun e s₁ hq => by rw [hq], fun s₁ hq => by rw [hq], rfl⟩
  rw [hioctl] at hr
  split at hr
  · cases hr
    exact .inl ⟨⟨_, rfl⟩, rfl, rfl⟩
  next hgate =>
  split at hr
  · next hnative =>
    rcases nativeIoctl_cases hr with ⟨herr, rfl⟩ | ⟨hrender, r₁, s₁, hn, hr⟩
    · exact .inl ⟨herr, rfl, rfl⟩
    have hheld := nativeState_held I hn
    have hallocated : s₁.client.allocated = s.client.allocated := by
      rcases nativeState_cases hn with ⟨n, -, -, rfl⟩ | ⟨-, ⟨-, hidle⟩ | ⟨_, _, _, -, -, hnew⟩⟩
      · rfl
      · rw [hidle.client]
      · rcases hnew with ⟨-, rfl⟩ | ⟨-, -, rfl⟩ <;> rfl
    rcases hr with ⟨⟨e, -, he⟩, rfl⟩ | ⟨n, r₂, s₂, rfl, hq, hr⟩
    · exact .inl ⟨⟨e, he⟩, hheld, hallocated⟩
    have hidle := readRequest_idle hq
    rcases hr with ⟨⟨e, -, he⟩, rfl⟩ | ⟨-, hr⟩
    · exact .inl ⟨⟨e, he⟩, hidle.held.trans hheld, by rw [hidle.client, hallocated]⟩
    · refine .inr (.inr ⟨hnative, s₂, n, (hidle.keeps (nativeState_keeps I hrender hn).inv).inv,
        hidle.held.trans hheld, ?_, hr⟩)
      rw [hidle.client]
      exact (nativeState_ok hn).1
  · next hnative =>
    obtain ⟨q, s₁, hq⟩ : ∃ q s₁, s.readRequest ω header request.sizeof = (q, s₁) := ⟨_, _, rfl⟩
    have hidle := readRequest_idle hq
    cases q with
    | error e =>
      cases (herror e s₁ hq).symm.trans hr
      exact .inl ⟨⟨e, rfl⟩, hidle.held, by rw [hidle.client]⟩
    | ok u =>
      refine .inr (.inl ⟨Bool.eq_false_iff.mpr hnative, fun hp => ?_, s₁, hidle,
        (hok s₁ hq).symm.trans hr⟩)
      rw [hp, Bool.not_false, Bool.and_true] at hgate
      exact Bool.eq_false_iff.mpr hgate

end Session

/-! ## Turns -/

namespace Device
variable {g : GlobalGTT} {c : Nat} {d d' : Device} {x : RenderClient}

/-- The buffer of a client that a handle names. -/
def held (d : Device) (c h : Nat) : Option Held := (d.clients c).bind fun x => (d.session x).held h

/-- What a client is charged for. -/
def allocated (d : Device) (c : Nat) : Nat := (d.clients c).elim 0 (·.allocated)

/-- A slot of a client is free, and none of its contexts has faulted. -/
def HasSlot (d : Device) (c : Nat) : Prop :=
  ∃ x, d.clients c = some x ∧ (∃ i, i < kMaxBuffers ∧ x.buffers i = none) ∧
    x.native.any (·.faulted) = false

theorem allocated_of_client (hx : d.clients c = some x) : d.allocated c = x.allocated := by
  rw [allocated, hx]
  rfl

theorem held_of_client (hx : d.clients c = some x) : d.held c = (d.session x).held := by
  funext h
  rw [held, hx]
  rfl

/-- A client's buffers are as they were. -/
theorem Undisturbed.session (U : Undisturbed c d d') (I : d.Inv g) (hx : d.clients c = some x) :
    (d'.session x).held = d.held c := by
  rw [held_of_client hx]
  refine Session.held_of_client (Eq.refl _) (Eq.refl _) (Eq.refl _) fun {i o} ho => U.objects ?_
  obtain ⟨-, hid, S⟩ := I.client hx
  obtain ⟨-, -, rfl, -⟩ := S.client.holding.slot ho
  exact congrArg some hid

end Device

namespace Driver
variable {c : Nat} {k k' : Driver} {client : Int → Nat} {fd : Int} {request : Request}
  {r : Except Error Reply}

/-- The client is there, and the others do not speak for it. -/
structure Open (c : Nat) (k : Driver) : Prop where
  reached : ∃ config entries foreign calls,
    k.device = Run.exec Device.step (Device.start config entries foreign) calls
  opened : k.device.clients c ≠ none
  others : ∀ n, ∀ a ∈ (k.turns n).others, ¬ a.1.By c

theorem Open.inv (O : k.Open c) : ∃ g, k.device.Inv g := by
  obtain ⟨config, entries, foreign, calls, hcalls⟩ := O.reached
  rw [hcalls]
  exact Device.exec_inv config entries foreign calls

/-- Buffers are of whole pages. -/
theorem Open.held_mod (O : k.Open c) {h : Nat} {v : Held} (hv : k.device.held c h = some v) :
    v.size % 4096 = 0 := by
  obtain ⟨g, I⟩ := O.inv
  obtain ⟨x, hx, hv⟩ := Option.bind_eq_some_iff.mp hv
  obtain ⟨i, o, -, -, ho, rfl⟩ := Session.held_some hv
  obtain ⟨-, -, S⟩ := I.client hx
  obtain ⟨-, -, -, bo, hbo, -⟩ := S.client.holding.slot ho
  obtain ⟨hsize, -⟩ := S.mem.size_eq hbo
  dsimp only [Memory.size]
  rw [hbo]
  dsimp only
  rw [hsize]
  exact Nat.mul_mod_left ..

theorem Open.allocated_le (O : k.Open c) : k.device.allocated c ≤ kClientMemoryLimit := by
  obtain ⟨g, I⟩ := O.inv
  obtain ⟨x, hx⟩ := Option.ne_none_iff_exists'.mp O.opened
  rw [Device.allocated_of_client hx]
  exact (I.client hx).2.2.accounts.allocated_le

/-- A call of the winsys is a request of its client, as it is after what the others have done. -/
theorem ioctl_session (O : k.Open c) (hc : client fd = c)
    (hr : Driver.ioctl client fd request k = (r, k')) :
    ∃ g x s', k.device.clients c = some x ∧ (k.next.session x).Inv g ∧
      (k.next.session x).held = k.device.held c ∧ k'.Open c ∧ k'.device.clients c = some s'.client ∧
      k'.device.held c = s'.held ∧ k'.turns = k.turns ∧
      ((∃ e, k.turn.refused = some e ∧ r = .error e) ∧ s'.client = x ∧ s'.held = k.device.held c ∨
        k.turn.refused = none ∧ k'.device.mem = s'.mem ∧ (k.next.session x).ioctl k.turn.oracle
          ⟨request.sizeof, kABIVersion, request.sizeof⟩ request = (r, s')) := by
  obtain ⟨x, hx⟩ := Option.ne_none_iff_exists'.mp O.opened
  obtain ⟨config, entries, foreign, calls, hcalls⟩ := O.reached
  obtain ⟨g, I⟩ := O.inv
  obtain ⟨⟨g', I'⟩, U⟩ := Device.exec_undisturbed k.turn.others ⟨g, I⟩ O.opened (O.others k.time)
  have hnext := U.trans (.of_idle (idle_enter _))
  have hx' : k.next.clients c = some x := hnext.client.trans hx
  have S := ((I'.idle (idle_enter _)).client hx').2.2
  have hheld := hnext.session I hx
  rw [Driver.ioctl] at hr
  cases hrefused : k.turn.refused with
  | some e =>
    rw [hrefused] at hr
    obtain ⟨rfl, rfl⟩ := Prod.mk.inj hr
    have hx₁ : k.others.clients c = some x := U.client.trans hx
    refine ⟨g', x, k.others.session x, hx, S, hheld, ⟨?_, ?_, O.others⟩, hx₁,
      Device.held_of_client hx₁, rfl, .inl ⟨⟨e, rfl, rfl⟩, rfl, U.session I hx⟩⟩
    · refine ⟨config, entries, foreign, calls ++ k.turn.others, ?_⟩
      rw [Run.exec_append, ← hcalls]
      rfl
    · exact fun hnone => by cases hx₁.symm.trans hnone
  | none =>
    rw [hrefused, hc] at hr
    dsimp only at hr
    generalize hi : k.next.ioctl k.turn.oracle c ⟨request.sizeof, kABIVersion, request.sizeof⟩
      request = res at hr
    obtain ⟨r₁, d₁⟩ := res
    obtain ⟨rfl, rfl⟩ := Prod.mk.inj hr
    have hstep : d₁ = Run.exec Device.step k.others
        [(.ioctl c ⟨request.sizeof, kABIVersion, request.sizeof⟩ request, k.turn.oracle)] :=
      (congrArg Prod.snd hi).symm
    rw [Device.ioctl, hx'] at hi
    dsimp only at hi
    generalize hs : (k.next.session x).ioctl k.turn.oracle _ request = res at hi
    obtain ⟨r, s'⟩ := res
    obtain ⟨rfl, hd⟩ := Prod.mk.inj hi
    have hc' : d₁.clients c = some s'.client := by
      rw [← hd]
      exact Function.update_self ..
    refine ⟨g', x, s', hx, S, hheld, ⟨?_, ?_, O.others⟩, hc', ?_, rfl,
      .inr ⟨rfl, ?_, hs⟩⟩
    · refine ⟨config, entries, foreign, calls ++ (k.turn.others ++
        [(.ioctl c ⟨request.sizeof, kABIVersion, request.sizeof⟩ request, k.turn.oracle)]), ?_⟩
      rw [Run.exec_append, Run.exec_append, ← hcalls]
      exact hstep
    · exact fun hnone => by cases hc'.symm.trans hnone
    · rw [Device.held_of_client hc', ← hd]
      rfl
    · rw [← hd]

/-! ## The requests of the winsys -/

theorem ioctl_createBuffer {size : Nat} (O : k.Open c) (hc : client fd = c)
    (hr : Driver.ioctl client fd (.createBuffer size 0 0) k = (r, k')) :
    k'.Open c ∧ ((∃ e, r = .error e) ∧ k'.device.held c = k.device.held c ∧
        k'.device.allocated c = k.device.allocated c ∨
      ∃ size handle area, r = .ok (.buffer size handle area) ∧ k.device.held c handle = none ∧
        k'.device.held c =
          Function.update (k.device.held c) handle (some ⟨size, 0, false⟩)) := by
  obtain ⟨g, x, s', hx, S, hheld, O', hx', hheld', -, h⟩ := ioctl_session O hc hr
  refine ⟨O', ?_⟩
  rw [hheld', Device.allocated_of_client hx, Device.allocated_of_client hx', ← hheld]
  rcases h with ⟨⟨e, -, rfl⟩, rfl, h⟩ | ⟨-, -, h⟩
  · exact .inl ⟨⟨e, rfl⟩, h.trans hheld.symm, rfl⟩
  rcases Session.ioctl_served S h nofun with h | ⟨-, -, s₁, hidle, h⟩ | ⟨hnative, -⟩
  · exact .inl h
  · rw [← hidle.held]
    refine (Session.createBuffer_held (hidle.keeps S).inv h).imp_left fun ⟨he, hh, ha⟩ =>
      ⟨he, hh, ?_⟩
    rw [ha, hidle.client]
    rfl
  · exact nomatch hnative

theorem ioctl_createBuffer_error {size : Nat} {e : Error} {x : RenderClient} (O : k.Open c)
    (hc : client fd = c) (hpos : 0 < size) (hle : size ≤ kMaxBufferSize)
    (hx : k.device.clients c = some x) (hlimit : ¬ x.Limited size)
    (hgate : x.native.any (·.faulted) = false)
    (hr : Driver.ioctl client fd (.createBuffer size 0 0) k = (.error e, k')) :
    k.turn.refused ≠ none ∨ x.nextHandle = 0 ∨
      k.next.mem.os.faults < k'.device.mem.os.faults := by
  obtain ⟨g, x', s', hx', -, -, -, -, -, -, h⟩ := ioctl_session O hc hr
  obtain rfl := Option.some.inj (hx.symm.trans hx')
  rcases h with ⟨⟨e, he, -⟩, -⟩ | ⟨-, hmem, h⟩
  · exact .inl fun hnone => nomatch he.symm.trans hnone
  · rw [hmem]
    exact .inr (Session.ioctl_createBuffer_error hpos hle hlimit hgate h)

theorem ioctl_closeBuffer {h : Nat} (O : k.Open c) (hc : client fd = c)
    (hr : Driver.ioctl client fd (.closeBuffer h 0) k = (r, k')) :
    k'.Open c ∧ ((∃ e, r = .error e) ∧ k'.device.held c = k.device.held c ∨
      r = .ok .none ∧ ∃ v, k.device.held c h = some v ∧
        k'.device.held c = Function.update (k.device.held c) h none ∧
        k'.device.allocated c + v.size = k.device.allocated c ∧ k'.device.HasSlot c) := by
  obtain ⟨g, x, s', hx, S, hheld, O', hx', hheld', -, h⟩ := ioctl_session O hc hr
  refine ⟨O', ?_⟩
  rw [hheld', Device.allocated_of_client hx, Device.allocated_of_client hx', ← hheld]
  rcases h with ⟨⟨e, -, rfl⟩, rfl, h⟩ | ⟨-, -, h⟩
  · exact .inl ⟨⟨e, rfl⟩, h.trans hheld.symm⟩
  rcases Session.ioctl_served S h nofun with ⟨he, hh, -⟩ | ⟨-, hgate, s₁, hidle, h⟩ | ⟨hnative, -⟩
  · exact .inl ⟨he, hh⟩
  · rw [← hidle.held]
    rcases Session.closeBuffer_held (hidle.keeps S).inv h with ⟨he, rfl⟩ |
      ⟨he, v, hv, hh, ha, hfaulted, hfree⟩
    · exact .inl ⟨he, rfl⟩
    · refine .inr ⟨he, v, hv, hh, ?_, s'.client, hx', hfree, ?_⟩
      · rw [ha, hidle.client]
        rfl
      · rw [hfaulted, hidle.client]
        exact hgate rfl
  · exact nomatch hnative

theorem ioctl_bindVirtual {h address : Nat} (O : k.Open c) (hc : client fd = c)
    (hr : Driver.ioctl client fd (.bindVirtual h 0 address) k = (r, k')) :
    k'.Open c ∧ ((∃ e, r = .error e) ∧ k'.device.held c = k.device.held c ∨
      r = .ok .none ∧ ∃ v, k.device.held c h = some v ∧ k'.device.held c =
        Function.update (k.device.held c) h (some { v with address := address })) := by
  obtain ⟨g, x, s', hx, S, hheld, O', hx', hheld', -, h⟩ := ioctl_session O hc hr
  refine ⟨O', ?_⟩
  rw [hheld', ← hheld]
  rcases h with ⟨⟨e, -, rfl⟩, rfl, h⟩ | ⟨-, -, h⟩
  · exact .inl ⟨⟨e, rfl⟩, h.trans hheld.symm⟩
  rcases Session.ioctl_served S h nofun with ⟨he, hh, -⟩ | ⟨hnative, -⟩ |
    ⟨-, s₁, n, S₁, hh, hn, h⟩
  · exact .inl ⟨he, hh⟩
  · exact nomatch hnative
  · rw [← hh]
    exact Session.bindVirtual_held S₁ hn h

theorem ioctl_unbindVirtual {h : Nat} (O : k.Open c) (hc : client fd = c)
    (hr : Driver.ioctl client fd (.unbindVirtual h 0) k = (r, k')) :
    k'.Open c ∧ ((∃ e, r = .error e) ∧ k'.device.held c = k.device.held c ∨
      r = .ok .none ∧ ∃ v, k.device.held c h = some v ∧ k'.device.held c =
        Function.update (k.device.held c) h (some { v with address := 0 })) := by
  obtain ⟨g, x, s', hx, S, hheld, O', hx', hheld', -, h⟩ := ioctl_session O hc hr
  refine ⟨O', ?_⟩
  rw [hheld', ← hheld]
  rcases h with ⟨⟨e, -, rfl⟩, rfl, h⟩ | ⟨-, -, h⟩
  · exact .inl ⟨⟨e, rfl⟩, h.trans hheld.symm⟩
  rcases Session.ioctl_served S h nofun with ⟨he, hh, -⟩ | ⟨hnative, -⟩ |
    ⟨-, s₁, n, S₁, hh, -, h⟩
  · exact .inl ⟨he, hh⟩
  · exact nomatch hnative
  · rw [← hh]
    exact (Session.unbindVirtual_held S₁ h).imp_left fun ⟨he, hs⟩ => ⟨he, by rw [hs]⟩

theorem ioctl_bindsNothing (O : k.Open c) (hc : client fd = c)
    (hb : Session.bindsNothing request = true)
    (hr : Driver.ioctl client fd request k = (r, k')) :
    k'.Open c ∧ k'.device.held c = k.device.held c := by
  obtain ⟨g, x, s', hx, S, hheld, O', hx', hheld', -, h⟩ := ioctl_session O hc hr
  refine ⟨O', ?_⟩
  rw [hheld', ← hheld]
  rcases h with ⟨-, -, h⟩ | ⟨-, -, h⟩
  · exact h.trans hheld.symm
  rcases Session.ioctl_served S h (by rintro rfl; exact nomatch hb) with ⟨-, hh, -⟩ | ⟨hlegacy, -⟩ |
    ⟨-, s₁, n, S₁, hh, hn, h⟩
  · exact hh
  · cases request with
    | bufferLayout | submitObjects | createContext | destroyContext => exact nomatch hlegacy
    | _ => exact nomatch hb
  · exact (Session.nativeRequest_held S₁ hn hb h).trans hh

end Driver

end IntelGfx
