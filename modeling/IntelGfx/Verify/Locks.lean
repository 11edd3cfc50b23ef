import IntelGfx.Kernel.Locks

/-!
# The driver's locks have an order

`gLock`, `sClientsLock`, the clients' locks, the engines', the page tables' and the GTT's, in this
order: a report of the activity takes the locks of the clients below the list's, a submission that
of the page tables below the engine's, and nothing is taken below the last two.
-/

namespace IntelGfx

namespace Locks

open LockOrder LockOrder.Code

@[simp] def rank : Lock → Nat
  | .gLock => 0
  | .sClientsLock => 1
  | .client _ => 2
  | .engine _ => 3
  | .pageTables _ => 4
  | .gtt _ => 5

variable {a : Code Lock} {b : Nat}

attribute [local simp] Ordered

@[simp] theorem ordered_perhaps : Ordered rank b (perhaps a) ↔ Ordered rank b a := by
  simp [perhaps, Ordered]

@[simp] theorem ordered_sequence {as : List (Code Lock)} :
    Ordered rank b (sequence as) ↔ ∀ a ∈ as, Ordered rank b a := by
  induction as with
  | nil => simp [sequence, Ordered]
  | cons a as ih => simp [sequence, Ordered, ih]

@[simp] theorem ordered_around {l : Nat → Lock} :
    Ordered rank b (around l) ↔ ∀ n, b ≤ rank (l n) := by
  simp [around, Ordered]

theorem bind_ordered (h : b ≤ 5) : Ordered rank b BufferObject.bind := by
  simpa [BufferObject.bind, GlobalGTT.bind, rank] using h

theorem unbind_ordered (h : b ≤ 5) : Ordered rank b BufferObject.unbind := by
  simpa [BufferObject.unbind, GlobalGTT.unbind, rank] using h

theorem init_ordered (h : b ≤ 5) : Ordered rank b RenderEngine.init := bind_ordered h

theorem destroy_ordered (h : b ≤ 5) : Ordered rank b RenderEngine.destroy := unbind_ordered h

theorem unmapBuffer_ordered (h : b ≤ 4) : Ordered rank b RenderEngine.unmapBuffer := by
  simpa [RenderEngine.unmapBuffer, PageTables.unmap, rank] using h

theorem submit_ordered (h : b ≤ 3) : Ordered rank b RenderEngine.submit := by
  simpa [RenderEngine.submit, PageTables.flush, Ordered, rank] using h

/-- Below a client's lock come those of the engines, of the page tables and of the GTT. -/
theorem operations_ordered : ∀ c ∈ RenderClient.operations, Ordered rank 3 c := by
  have hbind : Ordered rank 3 BufferObject.bind := bind_ordered (by decide)
  have hunbind : Ordered rank 3 BufferObject.unbind := unbind_ordered (by decide)
  have hinit : Ordered rank 3 RenderEngine.init := init_ordered (by decide)
  have hdestroy : Ordered rank 3 RenderEngine.destroy := destroy_ordered (by decide)
  have hunmap : Ordered rank 3 RenderEngine.unmapBuffer := unmapBuffer_ordered (by decide)
  have hsubmit : Ordered rank 3 RenderEngine.submit := submit_ordered (by decide)
  have htables (n : Nat) : 3 ≤ rank (.pageTables n) := Nat.le_of_ble_eq_true rfl
  have hengine (n : Nat) : 3 ≤ rank (.engine n) := Nat.le_of_ble_eq_true rfl
  simp only [RenderClient.operations, List.forall_mem_cons, RenderClient.createBuffer,
    RenderClient.closeBuffer, RenderClient.bindBuffer, RenderClient.unbindBuffer,
    RenderClient.submit, RenderClient.framebuffer, RenderClient.engineStatus,
    RenderClient.createContext, RenderClient.destroyContext, RenderClient.bindVirtual,
    RenderClient.unbindVirtual, RenderClient.submitObjects, RenderClient.unmapVirtual,
    RenderEngine.mapBuffer, RenderEngine.mapGlobalRange, RenderEngine.status, PageTables.map,
    PageTables.mapPhysical, PageTables.unmap, BufferObject.destroy, ordered_perhaps, ordered_around,
    Ordered]
  simp [*]

/-- The paths that run under `gLock`, or under no lock at all. -/
theorem construct_ordered (h : b ≤ 1) : Ordered rank b RenderClient.construct := by
  have hinit : Ordered rank b RenderEngine.init := init_ordered (by omega)
  have hdestroy : Ordered rank b RenderEngine.destroy := destroy_ordered (by omega)
  simpa [RenderClient.construct, Ordered, rank, hinit, hdestroy] using h

theorem client_destroy_ordered (h : b ≤ 1) : Ordered rank b RenderClient.destroy := by
  have hdestroy : Ordered rank b RenderEngine.destroy := destroy_ordered (by omega)
  have hunmap : Ordered rank b RenderEngine.unmapBuffer := unmapBuffer_ordered (by omega)
  have hbuffer : Ordered rank b BufferObject.destroy := unbind_ordered (by omega)
  simpa [RenderClient.destroy, Ordered, rank, hdestroy, hunmap, hbuffer] using h

theorem uninitDevice_ordered (h : b ≤ 5) : Ordered rank b uninitDevice := by
  have hdestroy : Ordered rank b RenderEngine.destroy := destroy_ordered h
  simpa [uninitDevice, Ordered] using hdestroy

theorem gpuActivity_ordered (h : b ≤ 1) : Ordered rank b RenderClient.gpuActivity := by
  simpa [RenderClient.gpuActivity, Ordered, rank] using h

theorem ioctl_ordered (h : b ≤ 1) : Ordered rank b RenderClient.ioctl := by
  refine ⟨gpuActivity_ordered h, fun n => ⟨Nat.le_succ_of_le h, fun operation => ?_⟩⟩
  beta_reduce
  rw [List.getD_eq_getElem?_getD]
  cases hop : RenderClient.operations[operation]? with
  | none => trivial
  | some c => exact operations_ordered c (List.mem_of_getElem? hop)

theorem entry_ordered (c : Code Lock) (h : Entry c) : Ordered rank 0 c := by
  rcases h with rfl | rfl | rfl
  · have hinit : Ordered rank 1 RenderEngine.init := init_ordered (by decide)
    have hdestroy : Ordered rank 1 RenderEngine.destroy := destroy_ordered (by decide)
    have hconstruct : Ordered rank 1 RenderClient.construct := construct_ordered (by decide)
    have huninit : Ordered rank 1 uninitDevice := uninitDevice_ordered (by decide)
    simp [deviceOpen, initGraphicsTranslationTable, Ordered, rank, hinit, hdestroy, hconstruct,
      huninit]
  · exact ⟨client_destroy_ordered (by decide), Nat.zero_le _,
      ordered_perhaps.2 (uninitDevice_ordered (by decide))⟩
  · exact ordered_perhaps.2 (ioctl_ordered (by decide))

/-- In every state that any number of threads reach in the driver's hooks, no thread waits for
itself through the locks. -/
theorem no_deadlock {τ : Type*} [DecidableEq τ] {s : τ → List (Item Lock)}
    (h : Reachable Entry s) (t : τ) : ¬ Relation.TransGen (WaitsFor s) t t :=
  LockOrder.no_cycle entry_ordered h t

/-- Two threads that ask for the activity at once: one of them waits for the other. -/
theorem no_deadlock_pollers : ∃ s : Bool → List (Item Lock), WaitsFor s true false ∧
    ∀ t, ¬ Relation.TransGen (WaitsFor s) t t := by
  have hnone : Reachable Entry (fun _ : Bool => []) := .refl
  -- each thread comes to the lock of the list of clients
  have poll (s : Bool → List (Item Lock)) (t : Bool) (hs : Reachable Entry s) (ht : s t = []) :
      Reachable Entry (Function.update s t [.run (.locked .sClientsLock
        (.loop (perhaps (around .client))))]) := by
    have step {s : Bool → List (Item Lock)} {k k' : List (Item Lock)}
        (h : Reachable Entry (Function.update s t k))
        (hk : Advance Entry (fun l => ∀ u, l ∉ held (Function.update s t k u)) k k') :
        Reachable Entry (Function.update s t k') :=
      h.tail ⟨t, k', by rwa [Function.update_self], by rw [Function.update_idem]⟩
    have henter : Reachable Entry (Function.update s t [.run deviceIoctl]) :=
      hs.tail ⟨t, _, by rw [ht]; exact .enter (.inr (.inr rfl)), rfl⟩
    exact step (step (step henter .right) .left) .right
  have hboth := poll _ true (poll _ false hnone rfl) rfl
  refine ⟨_, ?_, no_deadlock (hboth.tail ⟨false, _, .lock ?_, rfl⟩)⟩
  · exact ⟨.sClientsLock, rfl, .head _⟩
  · rintro (_ | _) hheld <;> cases hheld

end Locks

end IntelGfx
