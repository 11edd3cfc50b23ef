import IntelGfx.Verify.Submission

/-!
# The diagnostic after a failure

`Ioctl` lets `kEngineStatus` through after a fault, but the engine is looked up by `_Engine`, which
finds no engine that has faulted or whose scheduler has.
-/

namespace IntelGfx
open Memory RenderEngine

namespace Session
variable {ω : Oracle} {s s' : Session} {r : Except Error Reply}

/-- The requests of the system fail with `B_BAD_ADDRESS`, as `user_memcpy` does. -/
def BadAddress (ω : Oracle) : Prop := ∀ n e, ω.fails n = some e → e = .badAddress

theorem reply_cases {x : Reply} (hω : BadAddress ω) (h : s.reply ω x = (r, s')) :
    r = .ok x ∨ r = .error .badAddress := by
  unfold reply at h
  split at h
  · next e m hm =>
    obtain ⟨rfl, -⟩ := Prod.mk.inj h
    unfold userMemcpy Os.userMemcpy at hm
    cases hf : ω.fails s.mem.os.calls with
    | none =>
      rw [hf] at hm
      exact nomatch (Prod.mk.inj hm).1
    | some e' =>
      rw [hf] at hm
      obtain rfl := Except.error.inj (Prod.mk.inj hm).1
      exact .inr (congrArg _ (hω _ _ hf))
  · obtain ⟨rfl, -⟩ := Prod.mk.inj h
    exact .inl rfl

theorem report_congr {m m' : Memory} (h : m'.objects = m.objects) (x : RenderEngine) :
    x.report ω m' = x.report ω m := by
  unfold report RenderEngine.dword area
  rw [h]

theorem status_cases {x : RenderEngine} {m m' : Memory} {q : Except Error EngineStatus}
    (hr : x.ready = true) (h : x.status ω m = (q, m')) :
    q = .ok (x.report ω m) ∨ q = .error .timedOut := by
  unfold RenderEngine.status at h
  rw [hr, Bool.not_true, if_neg Bool.false_ne_true] at h
  split at h
  · exact .inr (Prod.mk.inj h).1.symm
  · next m₁ hm =>
    have hidle := poll_idle ω m
    rw [hm] at hidle
    rw [report_congr hidle.objects] at h
    exact .inl (Prod.mk.inj h).1.symm

/-- What a request for the status of an engine is answered. -/
theorem engineStatus_cases {statusBuffer : Nat} (hω : BadAddress ω)
    (h : s.engineStatus ω statusBuffer = (r, s')) :
    s.engine statusBuffer = none ∧ r = .error .notSupported ∨
      ∃ x, s.engine statusBuffer = some x ∧
        (x.ready = true → r = .ok (.engineStatus (x.report ω s.mem)) ∨ r = .error .timedOut ∨
          r = .error .badAddress) := by
  unfold engineStatus at h
  cases hx : s.engine statusBuffer with
  | none =>
    rw [hx] at h
    exact .inl ⟨rfl, (Prod.mk.inj h).1.symm⟩
  | some x =>
    refine .inr ⟨x, rfl, fun hr => ?_⟩
    rw [hx] at h
    dsimp only at h
    generalize hs : x.status ω s.mem = res at h
    obtain ⟨q, m⟩ := res
    rcases status_cases hr hs with rfl | rfl
    · exact (reply_cases hω h).imp_right .inr
    · exact .inr (.inl (Prod.mk.inj h).1.symm)

/-- The gate lets the request through. -/
theorem ioctl_engineStatus {header : Header} {statusBuffer : Nat}
    (hread : (s.readRequest ω header 152).1 = .ok ())
    (h : s.ioctl ω header (.engineStatus statusBuffer) = (r, s')) :
    ∃ s₁, Idle s s₁ ∧ s₁.engineStatus ω statusBuffer = (r, s') := by
  unfold ioctl at h
  simp only [passesGate, Bool.not_true, Bool.and_false, Bool.false_eq_true, if_false,
    Request.isNative, Request.sizeof] at h
  generalize hq : s.readRequest ω header 152 = res at h hread
  obtain ⟨q, s₁⟩ := res
  obtain rfl : q = .ok () := hread
  exact ⟨s₁, readRequest_idle hq, h⟩

end Session

namespace Device

/-- The index of an engine, as `kEngineStatus` and `kSubmit` are told it. -/
def engineOf (flags : Nat) : EngineId := if flags % 2 = 1 then .render else .blitter

theorem entered_masters (d : Device) (x : RenderClient) : (d.entered x).masters = d.masters := rfl

/-- Whatever the users of the device have done: a client that was given an engine is told its state,
the registers and the saved image, exactly as long as neither its own context nor the scheduler has
faulted, and after that the engine is not there for it. -/
theorem exec_status (config : Config) (entries : Nat → Nat) (foreign : List Nat)
    (calls : List (Call × Oracle)) {ω : Oracle} {header : Header} {statusBuffer c : Nat}
    {x : RenderClient} {y : RenderEngine} {r : Except Error Reply} {s s' : Session}
    (hx : (Run.exec step (start config entries foreign) calls).clients c = some x)
    (hy : x.engines (engineOf statusBuffer) = some y)
    (hs : s = (Run.exec step (start config entries foreign) calls).entered x)
    (hω : Session.BadAddress ω) (hread : (s.readRequest ω header 152).1 = .ok ())
    (h : s.ioctl ω header (.engineStatus statusBuffer) = (r, s')) :
    ((r = .ok (.engineStatus (y.report ω s.mem)) ∨ r = .error .timedOut ∨ r = .error .badAddress) ↔
      y.faulted = false ∧ ∀ z, s.masters (engineOf statusBuffer) = some z → z.faulted = false) ∧
    ((y.faulted = true ∨ ∃ z, s.masters (engineOf statusBuffer) = some z ∧ z.faulted = true) →
      r = .error .notSupported) := by
  obtain ⟨g, I⟩ := exec_inv config entries foreign calls
  have S := I.entered hx
  have hclient : ((Run.exec step (start config entries foreign) calls).entered x).client = x := rfl
  rw [← hs] at S hclient
  obtain ⟨s₁, hidle, h⟩ := Session.ioctl_engineStatus hread h
  rw [← hclient] at hy
  obtain ⟨-, hengine, -, hready, -⟩ := S.client.equipped.engine hy
  -- the engine is looked up in the state before the request
  have hlookup : s₁.engine statusBuffer = some y ↔ y.isReady s.masters = true := by
    change (s₁.client.engines (engineOf statusBuffer)).filter (·.isReady s₁.masters) = some y ↔ _
    rw [hidle.client, hidle.masters, hy, Option.filter_eq_some_iff]
    exact and_iff_right rfl
  have hnone : s₁.engine statusBuffer = none ↔ y.isReady s.masters = false := by
    change (s₁.client.engines (engineOf statusBuffer)).filter (·.isReady s₁.masters) = none ↔ _
    rw [hidle.client, hidle.masters, hy, Option.filter_eq_none_iff]
    refine ⟨fun hn => Bool.eq_false_iff.mpr (hn y rfl), fun hf z hz => ?_⟩
    obtain rfl := Option.some.inj hz
    exact Bool.eq_false_iff.mp hf
  have hready' : y.isReady s.masters = true ↔
      y.faulted = false ∧ ∀ z, s.masters (engineOf statusBuffer) = some z → z.faulted = false := by
    unfold RenderEngine.isReady schedulerFaulted
    rw [hready, hengine]
    cases hm : s.masters (engineOf statusBuffer) with
    | none => simp
    | some z => simp
  have hcases := Session.engineStatus_cases hω h
  simp only [Session.report_congr hidle.mem.objects] at hcases
  have hmain : (r = .ok (.engineStatus (y.report ω s.mem)) ∨ r = .error .timedOut ∨
      r = .error .badAddress) ↔ y.isReady s.masters = true := by
    rcases hcases with ⟨hn, rfl⟩ | ⟨y', hy', hr⟩
    · exact iff_of_false (by simp) (Bool.eq_false_iff.mp (hnone.mp hn))
    · cases hf : y.isReady s.masters with
      | false => exact nomatch (hnone.mpr hf).symm.trans hy'
      | true =>
        obtain rfl := Option.some.inj ((hlookup.mpr hf).symm.trans hy')
        exact iff_of_true (hr hready) rfl
  refine ⟨hmain.trans hready', fun hf => ?_⟩
  have hnot : ¬ y.isReady s.masters = true := by
    rw [hready']
    rintro ⟨h₁, h₂⟩
    rcases hf with hf | ⟨z, hz, hf⟩
    · exact nomatch h₁.symm.trans hf
    · exact nomatch (h₂ z hz).symm.trans hf
  rcases hcases with ⟨-, hr⟩ | ⟨y', hy', -⟩
  · exact hr
  · exact nomatch (hnone.mpr (Bool.eq_false_iff.mpr hnot)).symm.trans hy'

theorem unfailing_badAddress : Session.BadAddress .unfailing := by
  intro n e h
  change none = some e at h
  exact nomatch h

set_option maxRecDepth 10000 in
theorem exec_status_boundBuffer :
    let d := Run.exec step (start Config.blitter (fun _ => 0) []) boundBuffer
    ∃ x y s r s', d.clients 0 = some x ∧ x.engines .blitter = some y ∧ s = d.entered x ∧
      s.ioctl .unfailing ⟨152, 8, 152⟩ (.engineStatus 0) = (r, s') ∧
      (r = .ok (.engineStatus (y.report .unfailing s.mem)) ∨ r = .error .timedOut ∨
        r = .error .badAddress) := by
  intro d
  have h : (d.clients 0).bind (fun x => (x.engines (engineOf 0)).map (·.faulted)) = some false := by
    decide +kernel
  have hmaster : (d.masters (engineOf 0)).map (·.faulted) = some false := by
    decide +kernel
  obtain ⟨x, hx, h⟩ := Option.bind_eq_some_iff.mp h
  obtain ⟨y, hy, hf⟩ := Option.map_eq_some_iff.mp h
  have hmasters : (d.entered x).masters = d.masters := entered_masters d x
  generalize hs : d.entered x = s at hmasters
  obtain ⟨hiff, -⟩ := exec_status Config.blitter (fun _ => 0) [] boundBuffer hx hy hs.symm
    unfailing_badAddress rfl (Prod.eta (s.ioctl .unfailing ⟨152, 8, 152⟩ (.engineStatus 0))).symm
  have hanswer := hiff.mpr ⟨hf, fun z hz => by
    rw [hmasters] at hz
    rw [hz] at hmaster
    exact Option.some.inj hmaster⟩
  exact ⟨x, y, s, _, _, hx, hy, hs.symm, (Prod.eta _).symm, hanswer⟩

/-- The engine takes a submission and does not answer. -/
def Oracle.hung : Oracle := { Oracle.unfailing with timesOut := fun n => n == 2 }

/-- After the submission the client asks for the state of the engine. -/
theorem not_status_of_hung :
    ¬ ∀ (config : Config) (entries : Nat → Nat) (foreign : List Nat) (calls : List (Call × Oracle))
      (ω : Oracle) (header : Header) (statusBuffer c : Nat) (x : RenderClient) (y : RenderEngine)
      (r : Except Error Reply) (s s' : Session),
      (Run.exec step (start config entries foreign) calls).clients c = some x →
      x.engines (engineOf statusBuffer) = some y →
      s = (Run.exec step (start config entries foreign) calls).entered x →
      Session.BadAddress ω → (s.readRequest ω header 152).1 = .ok () →
      s.ioctl ω header (.engineStatus statusBuffer) = (r, s') →
      r = .ok (.engineStatus (y.report ω s.mem)) ∨ r = .error .timedOut ∨
        r = .error .badAddress := by
  intro hclaim
  let calls := boundBuffer ++ [(.ioctl 0 ⟨40, 8, 40⟩ (.submit 1 0 0 8 0), Oracle.hung)]
  have h : ((Run.exec step (start Config.blitter (fun _ => 0) []) calls).clients 0).bind
      (fun x => (x.engines (engineOf 0)).map fun y => (y.faulted,
        (((Run.exec step (start Config.blitter (fun _ => 0) []) calls).entered x).ioctl .unfailing
          ⟨152, 8, 152⟩ (.engineStatus 0)).1)) = some (true, .error .notSupported) := by
    decide +kernel
  obtain ⟨x, hx, h⟩ := Option.bind_eq_some_iff.mp h
  obtain ⟨y, hy, h⟩ := Option.map_eq_some_iff.mp h
  have hr := hclaim Config.blitter (fun _ => 0) [] calls .unfailing ⟨152, 8, 152⟩ 0 0 x y _ _ _
    hx hy rfl unfailing_badAddress rfl (Prod.eta _).symm
  rw [(Prod.mk.inj h).2] at hr
  exact absurd hr (by simp)

end Device

end IntelGfx
