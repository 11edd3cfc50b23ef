import Mathlib.Algebra.Order.BigOperators.Group.Finset
import IntelGfx.Verify.RenderClient

/-!
# What a client is charged for

`Accounts`: the two counters of a client are the sums over its slots, and within their limits.
`Advances`: a handle or the id of a context that is new has never been there before.
-/

namespace IntelGfx

/-- The size of the buffer in a slot. -/
def charge (m : Memory) (buffers : Nat → Option Owner) (i : Nat) : Nat :=
  (buffers i).elim 0 m.size

/-- The size of the buffer in a slot, if it is bound in the global GTT. -/
def boundCharge (m : Memory) (buffers : Nat → Option Owner) (i : Nat) : Nat :=
  (buffers i).elim 0 fun o => if m.isBound o then m.size o else 0

structure Accounts (c : RenderClient) (m : Memory) : Prop where
  allocated : c.allocated = ∑ i ∈ Finset.range kMaxBuffers, charge m c.buffers i
  bound : c.bound = ∑ i ∈ Finset.range kMaxBuffers, boundCharge m c.buffers i
  allocated_le : c.allocated ≤ kClientMemoryLimit
  bound_le : c.bound ≤ kClientApertureLimit
  size_le : ∀ {i o}, c.buffers i = some o → m.size o ≤ kMaxBufferSize
  free : ∀ {i}, c.buffers i = none → c.handles i = 0

/-- One term of a sum changes. -/
theorem sum_change {n k : Nat} {f f' : Nat → Nat} (hk : k < n)
    (h : ∀ i, i ≠ k → f' i = f i) :
    ∑ i ∈ Finset.range n, f' i + f k = ∑ i ∈ Finset.range n, f i + f' k := by
  have hmem := Finset.mem_range.2 hk
  have hrest : ∑ i ∈ (Finset.range n).erase k, f' i = ∑ i ∈ (Finset.range n).erase k, f i :=
    Finset.sum_congr rfl fun i hi => h i (Finset.ne_of_mem_erase hi)
  have hnew := Finset.add_sum_erase (Finset.range n) f' hmem
  have hold := Finset.add_sum_erase (Finset.range n) f hmem
  omega

theorem sub64_of_le {a b : Nat} (h : b ≤ a) (ha : a < 2 ^ 64) : sub64 a b = a - b := by
  unfold sub64
  omega

theorem charge_none {m : Memory} {buffers : Nat → Option Owner} {i : Nat} (h : buffers i = none) :
    charge m buffers i = 0 ∧ boundCharge m buffers i = 0 := by
  rw [charge, boundCharge, h]
  exact ⟨rfl, rfl⟩

theorem charge_some {m : Memory} {buffers : Nat → Option Owner} {i : Nat} {o : Owner}
    (h : buffers i = some o) : charge m buffers i = m.size o ∧
      boundCharge m buffers i = if m.isBound o then m.size o else 0 := by
  rw [charge, boundCharge, h]
  exact ⟨rfl, rfl⟩

theorem charge_congr {m m' : Memory} {buffers buffers' : Nat → Option Owner} {i : Nat}
    (hb : buffers' i = buffers i) (h : ∀ o, buffers i = some o → m'.objects o = m.objects o) :
    charge m' buffers' i = charge m buffers i ∧
      boundCharge m' buffers' i = boundCharge m buffers i := by
  unfold charge boundCharge
  rw [hb]
  cases ho : buffers i with
  | none => exact ⟨rfl, rfl⟩
  | some o =>
    simp only [Option.elim_some, Memory.size, Memory.isBound, h o ho]
    exact ⟨trivial, rfl⟩

namespace Accounts
variable {c c' : RenderClient} {m m' : Memory} {slot : Nat}

theorem charge_le (A : Accounts c m) (h : slot < kMaxBuffers) :
    charge m c.buffers slot ≤ c.allocated := by
  rw [A.allocated]
  exact Finset.single_le_sum (f := charge m c.buffers) (fun _ _ => Nat.zero_le _)
    (Finset.mem_range.2 h)

theorem boundCharge_le (A : Accounts c m) (h : slot < kMaxBuffers) :
    boundCharge m c.buffers slot ≤ c.bound := by
  rw [A.bound]
  exact Finset.single_le_sum (f := boundCharge m c.buffers) (fun _ _ => Nat.zero_le _)
    (Finset.mem_range.2 h)

/-- One slot changes, and the counters by as much. -/
theorem change (A : Accounts c m) (hslot : slot < kMaxBuffers)
    (hbuffers : ∀ i, i ≠ slot → c'.buffers i = c.buffers i ∧ c'.handles i = c.handles i)
    (hobjects : ∀ i o, i ≠ slot → c.buffers i = some o → m'.objects o = m.objects o)
    (ha : c'.allocated + charge m c.buffers slot = c.allocated + charge m' c'.buffers slot)
    (hb : c'.bound + boundCharge m c.buffers slot = c.bound + boundCharge m' c'.buffers slot)
    (hal : c'.allocated ≤ kClientMemoryLimit) (hbl : c'.bound ≤ kClientApertureLimit)
    (hsize : ∀ o, c'.buffers slot = some o → m'.size o ≤ kMaxBufferSize)
    (hfree : c'.buffers slot = none → c'.handles slot = 0) : Accounts c' m' := by
  have hcongr (i : Nat) (hi : i ≠ slot) :=
    charge_congr (hbuffers i hi).1 fun o => hobjects i o hi
  have hsum := sum_change hslot fun i hi => (hcongr i hi).1
  have hbound := sum_change hslot fun i hi => (hcongr i hi).2
  have hallocated := A.allocated
  have hold := A.bound
  refine ⟨by omega, by omega, hal, hbl, fun {i o} hi => ?_, fun {i} hi => ?_⟩
  · rcases eq_or_ne i slot with rfl | hne
    · exact hsize o hi
    · rw [(hbuffers i hne).1] at hi
      rw [Memory.size, hobjects i o hne hi]
      exact A.size_le hi
  · rcases eq_or_ne i slot with rfl | hne
    · exact hfree hi
    · rw [(hbuffers i hne).1] at hi
      rw [(hbuffers i hne).2]
      exact A.free hi

theorem sub_charge (A : Accounts c m) (h : slot < kMaxBuffers) :
    sub64 c.allocated (charge m c.buffers slot) = c.allocated - charge m c.buffers slot := by
  refine sub64_of_le (A.charge_le h) (Nat.lt_of_le_of_lt A.allocated_le ?_)
  unfold kClientMemoryLimit
  omega

theorem sub_boundCharge (A : Accounts c m) (h : slot < kMaxBuffers) :
    sub64 c.bound (boundCharge m c.buffers slot) = c.bound - boundCharge m c.buffers slot := by
  refine sub64_of_le (A.boundCharge_le h) (Nat.lt_of_le_of_lt A.bound_le ?_)
  unfold kClientApertureLimit
  omega

/-- A slot is emptied. -/
theorem remove (A : Accounts c m) (hslot : slot < kMaxBuffers)
    (hbuffers : c'.buffers = Function.update c.buffers slot none)
    (hhandles : c'.handles = Function.update c.handles slot 0)
    (hobjects : ∀ i o, i ≠ slot → c.buffers i = some o → m'.objects o = m.objects o)
    (ha : c'.allocated = c.allocated - charge m c.buffers slot)
    (hb : c'.bound = c.bound - boundCharge m c.buffers slot) : Accounts c' m' := by
  have hnone : c'.buffers slot = none := by rw [hbuffers, Function.update_self]
  have hcharge := A.charge_le hslot
  have hboundCharge := A.boundCharge_le hslot
  refine A.change hslot (fun i hi => ?_) hobjects ?_ ?_ ?_ ?_ (fun o ho => ?_) fun _ => ?_
  · rw [hbuffers, hhandles, Function.update_of_ne hi, Function.update_of_ne hi]
    exact ⟨rfl, rfl⟩
  · rw [ha, (charge_none hnone).1]
    exact Nat.sub_add_cancel hcharge
  · rw [hb, (charge_none hnone).2]
    exact Nat.sub_add_cancel hboundCharge
  · rw [ha]
    exact Nat.le_trans (Nat.sub_le _ _) A.allocated_le
  · rw [hb]
    exact Nat.le_trans (Nat.sub_le _ _) A.bound_le
  · rw [hnone] at ho
    cases ho
  · rw [hhandles, Function.update_self]

/-- A buffer is bound or unbound. -/
theorem rebound (A : Accounts c m) (hslot : slot < kMaxBuffers) {o : Owner} {bound : Nat}
    (ho : c.buffers slot = some o) (hsize : m'.size o = m.size o)
    (hobjects : ∀ i o, i ≠ slot → c.buffers i = some o → m'.objects o = m.objects o)
    (hb : bound + boundCharge m c.buffers slot = c.bound + boundCharge m' c.buffers slot)
    (hle : bound ≤ kClientApertureLimit) : Accounts { c with bound := bound } m' := by
  refine A.change hslot (fun i _ => ⟨rfl, rfl⟩) hobjects ?_ hb A.allocated_le hle (fun o' ho' => ?_)
    fun h => nomatch h.symm.trans ho
  · rw [(charge_some ho).1, (charge_some ho).1, hsize]
  · cases ho.symm.trans ho'
    rw [hsize]
    exact A.size_le ho

/-- Nothing changes that a client is charged for. -/
theorem congr (A : Accounts c m) (hbuffers : c'.buffers = c.buffers)
    (hhandles : c'.handles = c.handles) (hallocated : c'.allocated = c.allocated)
    (hbound : c'.bound = c.bound)
    (hobjects : ∀ i o, c.buffers i = some o → m'.objects o = m.objects o) : Accounts c' m' := by
  have hcongr (i : Nat) := charge_congr (congrFun hbuffers i) fun o => hobjects i o
  refine ⟨?_, ?_, hallocated ▸ A.allocated_le, hbound ▸ A.bound_le, fun {i o} hi => ?_,
    fun {i} hi => ?_⟩
  · rw [hallocated, A.allocated]
    exact Finset.sum_congr rfl fun i _ => (hcongr i).1.symm
  · rw [hbound, A.bound]
    exact Finset.sum_congr rfl fun i _ => (hcongr i).2.symm
  · rw [hbuffers] at hi
    rw [Memory.size, hobjects i o hi]
    exact A.size_le hi
  · rw [hbuffers] at hi
    rw [hhandles]
    exact A.free hi

end Accounts

/-- The ids of the contexts of a client. -/
def RenderClient.ids (c : RenderClient) (i : Nat) : Nat := c.native.elim 0 (·.ids i)

/-- The next id of a context; there is one before there is a native state. -/
def RenderClient.nextContext (c : RenderClient) : Nat := c.native.elim 1 (·.nextContext)

theorem RenderClient.ids_map {c c' : RenderClient} {f : NativeState → NativeState}
    (h : c'.native = c.native.map f) (hids : ∀ n, (f n).ids = n.ids)
    (hnext : ∀ n, (f n).nextContext = n.nextContext) :
    c'.ids = c.ids ∧ c'.nextContext = c.nextContext := by
  unfold RenderClient.nextContext
  rw [show c'.ids = fun i => c'.native.elim 0 (·.ids i) from rfl,
    show c.ids = fun i => c.native.elim 0 (·.ids i) from rfl, h]
  cases c.native with
  | none => exact ⟨rfl, rfl⟩
  | some n => exact ⟨funext fun i => congrFun (hids n) i, hnext n⟩

/-- New handles and ids come after all that were given out before. -/
structure Advances (c c' : RenderClient) : Prop where
  nextHandle : limit c.nextHandle ≤ limit c'.nextHandle
  handles : ∀ i, c'.handles i ≠ 0 →
    (∃ j, c.handles j = c'.handles i) ∨ limit c.nextHandle ≤ c'.handles i
  nextContext : limit c.nextContext ≤ limit c'.nextContext
  ids : ∀ i, c'.ids i ≠ 0 → (∃ j, c.ids j = c'.ids i) ∨ limit c.nextContext ≤ c'.ids i

namespace Advances
variable {c c' c'' : RenderClient}

theorem rfl : Advances c c :=
  ⟨Nat.le_refl _, fun i _ => .inl ⟨i, Eq.refl _⟩, Nat.le_refl _, fun i _ => .inl ⟨i, Eq.refl _⟩⟩

/-- Handles and ids go, but none comes. -/
theorem shrink (hh : ∀ i, c'.handles i = c.handles i ∨ c'.handles i = 0)
    (hn : c'.nextHandle = c.nextHandle) (hids : ∀ i, c'.ids i = c.ids i ∨ c'.ids i = 0)
    (hc : c'.nextContext = c.nextContext) : Advances c c' := by
  refine ⟨Nat.le_of_eq (by rw [hn]), fun i hi => .inl ⟨i, ?_⟩, Nat.le_of_eq (by rw [hc]),
    fun i hi => .inl ⟨i, ?_⟩⟩
  · exact ((hh i).resolve_right hi).symm
  · exact ((hids i).resolve_right hi).symm

theorem of_eq (hh : c'.handles = c.handles) (hn : c'.nextHandle = c.nextHandle)
    (hnative : c'.native = c.native) : Advances c c' := by
  refine shrink (fun i => .inl (congrFun hh i)) hn (fun i => .inl ?_) ?_
  · rw [RenderClient.ids, RenderClient.ids, hnative]
  · rw [RenderClient.nextContext, RenderClient.nextContext, hnative]

theorem trans (h : Advances c c') (h' : Advances c' c'') : Advances c c'' := by
  refine ⟨h.nextHandle.trans h'.nextHandle, fun i hi => ?_, h.nextContext.trans h'.nextContext,
    fun i hi => ?_⟩
  · rcases h'.handles i hi with ⟨j, hj⟩ | hlimit
    · rw [← hj] at hi ⊢
      exact h.handles j hi
    · exact .inr (h.nextHandle.trans hlimit)
  · rcases h'.ids i hi with ⟨j, hj⟩ | hlimit
    · rw [← hj] at hi ⊢
      exact h.ids j hi
    · exact .inr (h.nextContext.trans hlimit)

/-- A handle is given out. -/
theorem handle {buffers : Nat → Option Owner} {handles : Nat → Nat} {allocated : Nat}
    (hn : c.nextHandle ≠ 0) (hsmall : c.nextHandle < 2 ^ 32)
    (hh : ∀ i, handles i = c.handles i ∨ handles i = c.nextHandle) :
    Advances c { c with
      nextHandle := (c.nextHandle + 1) % 2 ^ 32, buffers := buffers, handles := handles,
      allocated := allocated } := by
  refine ⟨?_, fun i _ => ?_, Nat.le_refl _, fun i _ => .inl ⟨i, Eq.refl _⟩⟩
  · change limit c.nextHandle ≤ limit ((c.nextHandle + 1) % 2 ^ 32)
    rw [limit_of_ne hn, limit_succ hn hsmall]
    exact Nat.le_succ _
  · rcases hh i with h | h
    · exact .inl ⟨i, h.symm⟩
    · exact .inr (by rw [limit_of_ne hn]; exact Nat.le_of_eq h.symm)

/-- Neither handles nor ids are concerned. -/
theorem native {n n' : NativeState} (hnative : c.native = some n) (hids : n'.ids = n.ids)
    (hnext : n'.nextContext = n.nextContext) : Advances c { c with native := some n' } := by
  refine shrink (fun _ => .inl (Eq.refl _)) (Eq.refl _) (fun i => .inl ?_) ?_
  · rw [RenderClient.ids, RenderClient.ids, hnative]
    exact congrFun hids i
  · rw [RenderClient.nextContext, RenderClient.nextContext, hnative]
    exact hnext

/-- An id is given out. -/
theorem context {n n' : NativeState} (hnative : c.native = some n) (hn : n.nextContext ≠ 0)
    (hsmall : n.nextContext < 2 ^ 32) (hnext : n'.nextContext = (n.nextContext + 1) % 2 ^ 32)
    (hids : ∀ i, n'.ids i = n.ids i ∨ n'.ids i = n.nextContext) :
    Advances c { c with native := some n' } := by
  have hc : c.nextContext = n.nextContext := by
    rw [RenderClient.nextContext, hnative]
    rfl
  refine ⟨Nat.le_refl _, fun i _ => .inl ⟨i, Eq.refl _⟩, ?_, fun i _ => ?_⟩
  · change _ ≤ limit n'.nextContext
    rw [hc, hnext, limit_of_ne hn, limit_succ hn hsmall]
    exact Nat.le_succ _
  · rcases hids i with h | h
    · refine .inl ⟨i, ?_⟩
      rw [RenderClient.ids, hnative]
      exact h.symm
    · refine .inr ?_
      rw [hc, limit_of_ne hn]
      exact Nat.le_of_eq h.symm

end Advances

end IntelGfx
