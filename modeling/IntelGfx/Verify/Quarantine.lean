import IntelGfx.Verify.EngineStatus
import IntelGfx.Verify.Frame

/-!
# The quarantine of a client that hung an engine

An engine that has hung may go on with what it was given. A client whose native state has faulted is
refused what could take any of it away, and its close leaves all of it where it is
(`exec_quarantined`). A client that has hung an engine of the legacy interface is only closed so.
-/

namespace IntelGfx
open Memory RenderEngine

namespace Session
variable {ω : Oracle} {g : GlobalGTT} {s s' : Session} {r : Except Error Reply} {header : Header}
  {request : Request}

/-- What a request of a client does whose native state has faulted. -/
theorem ioctl_idle_of_faulted (hf : s.client.native.any (·.faulted) = true)
    (h : s.ioctl ω header request = (r, s')) : Idle s s' := by
  unfold ioctl at h
  split at h
  · split at h
    · next hq =>
      cases h
      exact readRequest_idle hq
    · next hq => exact (readRequest_idle hq).trans (gpuActivity_idle h)
  rw [hf, Bool.true_and] at h
  split at h
  · cases h
    exact .rfl
  next hgate =>
  have hpasses : request = .getInfo ∨ ∃ b, request = .engineStatus b := by
    cases request with
    | getInfo => exact .inl rfl
    | engineStatus b => exact .inr ⟨b, rfl⟩
    | _ => exact absurd rfl hgate
  have hnative : request.isNative = false := by
    rcases hpasses with rfl | ⟨b, rfl⟩
    · rfl
    · rfl
  rw [hnative, if_neg Bool.false_ne_true] at h
  split at h
  · next hq =>
    cases h
    exact readRequest_idle hq
  · next hq =>
    refine (readRequest_idle hq).trans ?_
    rcases hpasses with rfl | ⟨b, rfl⟩
    · exact reply_idle h
    · exact engineStatus_idle h

/-- Nearly all of its requests are refused. -/
theorem ioctl_refused (hf : s.client.native.any (·.faulted) = true)
    (hactivity : request ≠ .gpuActivity) (hgate : passesGate request = false) :
    s.ioctl ω header request = (.error .devNotReady, s) := by
  unfold ioctl
  split
  · exact absurd rfl hactivity
  · rw [hf, hgate, Bool.not_false, Bool.true_and, if_pos rfl]

end Session

namespace Device
variable {g : GlobalGTT} {d d' : Device} {c : Nat} {x : RenderClient}

/-- The client is quarantined, or has been closed so. -/
structure Sealed (c : Nat) (x : RenderClient) (d : Device) : Prop where
  next : c < d.nextClient
  faulted : Faulted d.masters
  client : d.clients c = some x ∨ d.clients c = none
  quarantined : (d.session x).quarantined = true

/-- The call leaves the client its place, or it is one that the gate stops. -/
def Call.Gated (c : Nat) (x : RenderClient) (call : Call) : Prop :=
  x.native.any (·.faulted) = true ∨ ∀ header request, call ≠ .ioctl c header request

theorem step_sealed (a : Call × Oracle) (I : d.Inv g) (Q : Sealed c x d) (h : a.1.Gated c x) :
    Sealed c x (step a d) ∧ Memory.Leaves (·.client ≠ some c) d.mem (step a d).mem := by
  have hnext := (step_lives I a Q.next).next
  have hfaulted := step_faulted a I Q.faulted
  suffices ((step a d).clients c = some x ∨ (step a d).clients c = none) ∧
      Memory.Leaves (·.client ≠ some c) d.mem (step a d).mem from
    ⟨⟨hnext, hfaulted, this.1, Q.quarantined⟩, this.2⟩
  by_cases hby : a.1.By c
  · obtain ⟨call, ω⟩ := a
    have I₁ := I.idle (idle_enter d.mem)
    have L₁ : Memory.Leaves (·.client ≠ some c) d.mem d.mem.enter := (idle_enter d.mem).leaves
    unfold step
    cases call with
    | «open» | gart => exact hby.elim
    | ioctl c' header request =>
      obtain rfl : c' = c := hby
      dsimp only
      rw [Device.ioctl]
      split
      · exact ⟨Q.client, L₁⟩
      · next y hy =>
        obtain rfl : y = x := by
          rcases Q.client with hx | hx
          · exact Option.some.inj (hy.symm.trans hx)
          · cases hy.symm.trans hx
        generalize hi : Session.ioctl ω _ header request = res
        obtain ⟨r, s⟩ := res
        have J := Session.ioctl_idle_of_faulted (h.resolve_right fun hno => hno _ _ rfl) hi
        refine ⟨.inl ?_, L₁.trans J.mem.leaves⟩
        dsimp only
        rw [Function.update_self, J.client]
        rfl
    | close c' =>
      obtain rfl : c' = c := hby
      dsimp only
      rw [Device.closeClient]
      split
      · exact ⟨Q.client, L₁⟩
      · next y hy =>
        obtain rfl : y = x := by
          rcases Q.client with hx | hx
          · exact Option.some.inj (hy.symm.trans hx)
          · cases hy.symm.trans hx
        have hdestroy : Session.destroy ω (session { d with mem := d.mem.enter } y) =
            d.mem.enter := by
          rw [Session.destroy, if_pos]
          · rfl
          · exact Q.quarantined
        dsimp only
        rw [hdestroy]
        split
        · rw [uninit_of_faulted]
          · exact ⟨.inr (Function.update_self ..), L₁⟩
          · exact Q.faulted
        · exact ⟨.inr (Function.update_self ..), L₁⟩
  · have L := step_leaves a I ⟨Q.next, .inr Q.faulted⟩ hby
    exact ⟨L.client ▸ Q.client, L.mem⟩

theorem exec_sealed (calls : List (Call × Oracle)) (I : ∃ g, d.Inv g) (Q : Sealed c x d)
    (h : ∀ a ∈ calls, a.1.Gated c x) :
    Sealed c x (Run.exec step d calls) ∧
      Memory.Leaves (·.client ≠ some c) d.mem (Run.exec step d calls).mem := by
  induction calls generalizing d with
  | nil => exact ⟨Q, .rfl⟩
  | cons a calls ih =>
    obtain ⟨g, I⟩ := I
    obtain ⟨Q₁, L₁⟩ := step_sealed a I Q (h a List.mem_cons_self)
    obtain ⟨Q₂, L₂⟩ := ih (step_inv a I).1 Q₁ fun b hb => h b (List.mem_cons_of_mem _ hb)
    exact ⟨Q₂, L₁.trans L₂⟩

/-- Whatever the client or anybody else does once it has hung an engine through the native
interface, its close included: no area of it is deleted, its buffer objects and page tables stay as
they are, and the global GTT shows its bound objects where they were. It does not matter how many
other clients there are, or whether the device is ever opened again. A client that has hung an
engine of the legacy interface keeps all of it as well unless it gives it back itself. -/
theorem exec_quarantined (config : Config) (entries : Nat → Nat) (foreign : List Nat)
    (calls calls' : List (Call × Oracle)) {c : Nat} {x : RenderClient}
    (hx : (Run.exec step (start config entries foreign) calls).clients c = some x)
    (hq : ((Run.exec step (start config entries foreign) calls).session x).quarantined = true)
    (hcalls : ∀ a ∈ calls', a.1.Gated c x) :
    (Run.exec step (start config entries foreign) calls).mem.Leaves (·.client ≠ some c)
      (Run.exec step (start config entries foreign) (calls ++ calls')).mem ∧
    ∀ o bo, o.client = some c →
      (Run.exec step (start config entries foreign) calls).mem.objects o = some bo →
      bo.bound = true → ∃ first,
        bo.graphicsAddress = ((Run.exec step (start config entries foreign)
          (calls ++ calls')).mem.gtt.firstPage + first) * 4096 ∧
        (Run.exec step (start config entries foreign) (calls ++ calls')).mem.gtt.Maps first
          ((Run.exec step (start config entries foreign) calls).mem.pages o) := by
  obtain ⟨g, I⟩ := exec_inv config entries foreign calls
  obtain ⟨g', I'⟩ := exec_inv config entries foreign (calls ++ calls')
  have S := (I.client hx).2.2
  have Q : Sealed c x (Run.exec step (start config entries foreign) calls) :=
    ⟨(I.client hx).1, quarantined_faulted S hq, .inl hx, hq⟩
  rw [Run.exec_append] at I' ⊢
  obtain ⟨-, L⟩ := exec_sealed calls' ⟨g, I⟩ Q hcalls
  refine ⟨L, fun o bo ho hbo hbound => ?_⟩
  have hne : ¬ o.client ≠ some c := not_not.mpr ho
  have hbo' := (L.objects hne).trans hbo
  obtain ⟨first, haddr, -, hmaps⟩ := I'.mem.bound_at hbo' hbound
  exact ⟨first, haddr, L.pages I.mem hne ▸ hmaps⟩

/-- A device where a client can have a context of its own as well. -/
def Config.native : Config := ⟨0x1000000, 0x1000000, 9, 0x200000, 0x3ff60000, true⟩

/-- A client submits its buffer to its context, and the engine does not answer. -/
def hungContext : List (Call × Oracle) :=
  [(.open, .unfailing), (.ioctl 0 ⟨32, 8, 32⟩ (.createBuffer 8192 0 0), .unfailing),
    (.ioctl 0 ⟨24, 8, 24⟩ (.bindVirtual 1 0 0x100000), .unfailing),
    (.ioctl 0 ⟨16, 8, 16⟩ (.createContext 0 0), .unfailing),
    (.ioctl 0 ⟨1072, 8, 1072⟩ (.submitObjects 1 1 0 8 0 1 0 fun _ => 1), Oracle.hung)]

set_option maxRecDepth 10000 in
/-- It cannot close its buffer, and after its close the next client gets other pages. -/
theorem exec_quarantined_hungContext :
    let d := Run.exec step (start Config.native (fun _ => 0) []) hungContext
    let d' := Run.exec step (start Config.native (fun _ => 0) []) (hungContext ++
      [(.ioctl 0 ⟨16, 8, 16⟩ (.closeBuffer 1 0), .unfailing), (.close 0, .unfailing),
        (.open, .unfailing), (.ioctl 1 ⟨32, 8, 32⟩ (.createBuffer 8192 0 0), .unfailing)])
    d.mem.Leaves (·.client ≠ some 0) d'.mem := by
  have h : ((Run.exec step (start Config.native (fun _ => 0) []) hungContext).clients 0).any
      (fun x => x.native.any (·.faulted)) = true := by
    decide +kernel
  generalize hungContext = calls at h
  intro d d'
  obtain ⟨x, hx, h⟩ := (Option.any_eq_true _ _).mp h
  have hq : (d.session x).quarantined = true := Bool.or_eq_true_iff.mpr (.inl h)
  exact (exec_quarantined Config.native (fun _ => 0) [] calls _ hx hq fun _ _ => .inl h).1

end Device
end IntelGfx
