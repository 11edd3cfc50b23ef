import IntelGfx.Verify.Native

/-!
# The operations of a client

What `kSubmit` and `kSubmitObjects` hand to a context, and that every request keeps what a client
relies on.
-/

namespace IntelGfx
open Memory RenderEngine

namespace Session
variable {ω : Oracle} {g : GlobalGTT} {s s' : Session} {r : Except Error Reply} {n : NativeState}

/-! ## Submissions -/

/-- A submission changes nothing in what the page tables show. Where it faults its context, the
scheduler knows. -/
theorem submit_aged {x x' : RenderEngine} {masters masters' : Masters} {m m' : Memory}
    {address length : Nat} {status : Except Error Nat} (H : m.Inv g)
    (h : x.submit ω masters m address length = (status, x', masters', m')) :
    x' = { x with faulted := x'.faulted, nextSeqno := x'.nextSeqno } ∧
      (x.faulted = true → x'.faulted = true) ∧ Aged masters masters' ∧
      (x'.faulted = true → x.faulted = true ∨ (∃ e, status = .error e) ∧
        ∀ y, masters x.engine = some y → ∃ y', masters' x.engine = some y' ∧ y'.faulted = true) ∧
      Moves g (· = x.addressSpace) m m' ∧ m'.objects = m.objects ∧ m'.gtt = m.gtt ∧
      Retabled (fun _ _ _ _ => False) m m' := by
  obtain ⟨M, hobj, hgtt, -, ht, heq, hfault⟩ := submit_spec H h
  have hT : Retabled (fun _ _ _ _ => False) m m' := by
    rcases ht with ht | ⟨pt, hpt, ht⟩
    · exact .of_eq ht
    · exact .of_update hpt ht rfl fun _ _ => .inl rfl
  rcases hfault with ⟨rfl, hf⟩ | ⟨-, hf, -, hf', herr, rfl⟩
  · exact ⟨heq, fun h => hf.trans h, .rfl, fun h => .inl (hf.symm.trans h), M, hobj, hgtt, hT⟩
  refine ⟨heq, fun _ => hf', fun e => ?_, fun _ => .inr ⟨herr, fun y hy => ⟨y.fault, ?_, rfl⟩⟩, M,
    hobj, hgtt, hT⟩
  · rw [Function.update_apply]
    split
    · next he =>
      subst he
      refine ⟨fun hn => by rw [hn]; rfl, fun y hy => ⟨y.fault, by rw [hy]; rfl, rfl, fun _ => rfl⟩⟩
    · exact ⟨id, fun y hy => ⟨y, hy, rfl, id⟩⟩
  · rw [Function.update_self, hy]
    rfl

/-- What a request to run a bound buffer hands over. -/
theorem handSubmit_ok {handle flags offset length fence : Nat} {k : Handed}
    (h : s.handSubmit handle flags offset length fence = .ok k) :
    ∃ x slot buffer, s.engine flags = some x ∧ s.find handle = some (slot, buffer) ∧
      s.mem.isBound buffer = true ∧ offset % 4 = 0 ∧ length ≠ 0 ∧ length % 4 = 0 ∧
      offset < s.mem.size buffer ∧ length ≤ s.mem.size buffer - offset ∧
      k = ⟨s, x, s.mem.graphicsAddress buffer + offset, length⟩ := by
  unfold handSubmit at h
  split at h
  · exact nomatch h
  next hbad =>
  split at h
  · exact nomatch h
  next x hx =>
  split at h
  · exact nomatch h
  next slot buffer hfind =>
  split at h
  · exact nomatch h
  next hb =>
  dsimp only at h
  split at h
  · exact nomatch h
  next hrange =>
  simp only [not_or, Decidable.not_not] at hbad
  obtain ⟨-, -, -, hoffset, hlength, hlength'⟩ := hbad
  exact ⟨x, slot, buffer, hx, hfind, by simpa using hb, hoffset, hlength, hlength', by omega,
    by omega, (Except.ok.inj h).symm⟩

/-- What can become of a request to run a bound buffer: it is refused, or it is handed to the
engine. -/
theorem submit_cases {handle flags offset length fence : Nat}
    (h : s.submit ω handle flags offset length fence = (r, s')) :
    (∃ e, s.handSubmit handle flags offset length fence = .error e ∧ r = .error e) ∧ s' = s ∨
    ∃ k status x' masters' m', s.handSubmit handle flags offset length fence = .ok k ∧
      k.submit ω = (status, x', masters', m') ∧ (∀ e, status = .error e → r = .error e) ∧
      Idle ⟨{ s.client with engines := Function.update s.client.engines x'.engine (some x') },
        masters', m'⟩ s' := by
  unfold submit at h
  cases hk : s.handSubmit handle flags offset length fence with
  | error e =>
    rw [hk] at h
    cases h
    exact .inl ⟨⟨e, rfl, rfl⟩, rfl⟩
  | ok k =>
    rw [hk] at h
    dsimp only at h
    rcases hs : k.submit ω with ⟨status, x', masters', m'⟩
    rw [hs] at h
    refine .inr ⟨k, status, x', masters', m', rfl, hs, ?_⟩
    cases status with
    | error e =>
      cases h
      exact ⟨fun e' he => congrArg Except.error (Except.error.inj he), .rfl⟩
    | ok fence => exact ⟨by rintro _ ⟨⟩, reply_idle h⟩

theorem engine_some {flags : Nat} {x : RenderEngine} (h : s.engine flags = some x) :
    ∃ e, s.client.engines e = some x ∧ x.isReady s.masters = true :=
  ⟨_, Option.filter_eq_some_iff.mp h⟩

theorem submit_keeps {handle flags offset length fence : Nat} (I : s.Inv g)
    (h : s.submit ω handle flags offset length fence = (r, s')) : Keeps g s s' := by
  rcases submit_cases h with ⟨-, rfl⟩ | ⟨k, status, x', masters', m', hk, hs, -, hidle⟩
  · exact Idle.rfl.keeps I
  obtain ⟨x, slot, buffer, hx, -, -, -, -, -, -, -, rfl⟩ := handSubmit_ok hk
  obtain ⟨e, hx, -⟩ := engine_some hx
  have C := I.client
  obtain ⟨hid, hengine, hspace, hready, hwhole, hpt⟩ := C.equipped.engine hx
  obtain ⟨heq, hf, hmasters, hfault, M, hobj, -, hT⟩ := submit_aged I.mem hs
  have hK {o : Owner} (h : o = x.addressSpace) : o = .ownTables (.legacy s.client.id e) := by
    rw [h, hspace, hid]
  have hengine' : x'.engine = e := by
    rw [heq]
    exact hengine
  rw [hengine'] at hidle
  have haged : Aged s.client.engines (Function.update s.client.engines e (some x')) := by
    intro e'
    rw [Function.update_apply]
    split
    · next he =>
      subst he
      refine ⟨fun hn => by simp [hx] at hn, fun y hy => ?_⟩
      cases hx.symm.trans hy
      exact ⟨x', rfl, heq, hf⟩
    · exact ⟨id, fun y hy => ⟨y, hy, rfl, id⟩⟩
  have hkept : Keeps g s ⟨{ s.client with
      engines := Function.update s.client.engines e (some x') }, masters', m'⟩ := by
    have hC : RenderClient.Inv { s.client with
        engines := Function.update s.client.engines e (some x') } m' := by
      refine ⟨C.holding.congr hobj, ⟨fun {e' y} hy => ?_, fun {e'} he' => ?_⟩,
        C.native.frame I.mem M (fun h => nomatch hK h) (fun k o ho h => ?_) (fun _ _ _ _ => rfl)
          fun _ i o _ _ ho h => ?_⟩
      · obtain ⟨y₀, hy₀, hyeq, -⟩ := haged.back hy
        obtain ⟨h1, h2, h3, h4, h5, h6⟩ := C.equipped.engine hy₀
        rw [hyeq]
        refine ⟨h1, h2, h3, h4, fun p => ?_, ?_⟩
        · obtain ⟨bo, hbo⟩ := h5 p
          exact ⟨bo, (congrFun hobj _).trans hbo⟩
        · exact Option.isSome_iff_exists.mp ((hT.isSome _).trans (Option.isSome_iff_exists.mpr h6))
      · have hnone : s.client.engines e' = none := by
          cases hy : s.client.engines e' with
          | none => rfl
          | some y =>
            obtain ⟨y', hy', -⟩ := (haged e').2 y hy
            exact nomatch he'.symm.trans hy'
        obtain ⟨h1, h2⟩ := C.equipped.absent hnone
        exact ⟨fun p => (congrFun hobj _).trans (h1 p), (hT _).1 h2⟩
      · rw [hK h] at ho
        cases ho
      · rw [hK h] at ho
        obtain ⟨-, -, heq, -⟩ := C.holding.slot ho
        cases heq
    refine ⟨⟨M.inv, hC, ?_, ⟨fun {e' y} hy => ?_, fun h => ?_, fun {n} hn => ?_⟩, ?_⟩, rfl,
      M.mono fun o ho => hK ho ▸ rfl, haged, hmasters, .of_eq rfl rfl rfl⟩
    · exact I.accounts.congr rfl rfl rfl rfl fun _ o _ => congrFun hobj o
    · obtain ⟨y₀, hy₀, hyeq, -⟩ := haged.back hy
      obtain ⟨z, hz, hzf⟩ := I.scheduled.engine hy₀
      obtain ⟨z', hz', -, hzf'⟩ := (hmasters e').2 z hz
      by_cases he : e' = e
      · subst he
        cases hx.symm.trans hy₀
        change Function.update _ _ _ _ = _ at hy
        rw [Function.update_self] at hy
        cases hy
        refine ⟨z', hz', fun h => ?_⟩
        rcases hfault h with h | ⟨-, h⟩
        · exact hzf' (hzf h)
        · obtain ⟨z'', hz'', h⟩ := h z (hengine ▸ hz)
          rw [hengine] at hz''
          cases hz'.symm.trans hz''
          exact h
      · change Function.update _ _ _ _ = _ at hy
        rw [Function.update_of_ne he] at hy
        cases hy.symm.trans hy₀
        exact ⟨z', hz', fun h => hzf' (hzf h)⟩
    · obtain ⟨y, hy⟩ := I.scheduled.render h
      obtain ⟨y', hy', -⟩ := (haged .render).2 y hy
      exact ⟨y', hy'⟩
    · obtain ⟨z, hz, hzf⟩ := I.scheduled.native hn
      obtain ⟨z', hz', -, hzf'⟩ := (hmasters .render).2 z hz
      exact ⟨z', hz', fun h => hzf' (hzf h)⟩
    · refine I.shown.change hT haged hmasters fun {e' y i o} _ _ ho _ => .inr ⟨congrFun hobj o,
        M.pages I.mem fun h => ?_, ⟨i, ho⟩, fun _ _ _ _ => False.elim⟩
      rw [hK h] at ho
      obtain ⟨-, -, heq, -⟩ := C.holding.slot ho
      cases heq
  exact hkept.trans (hidle.keeps hkept.inv)

/-- What a request to run a buffer of the virtual address space hands over. -/
theorem handObjects_ok {context batchHandle offset length fence count flags place : Nat}
    {handles : Nat → Nat} {k : Handed} (h : s.handObjects n context batchHandle offset length fence
      count flags handles = .ok (place, k)) :
    ∃ x slot batch, n.contexts place = some x ∧ s.find batchHandle = some (slot, batch) ∧
      offset % 8 = 0 ∧ length ≠ 0 ∧ length % 4 = 0 ∧ offset < s.mem.size batch ∧
      length ≤ s.mem.size batch - offset ∧
      s.checkObjects n batchHandle ((List.range count).map handles) = true ∧
      k = ⟨s, x, n.addresses slot + offset, length⟩ := by
  unfold handObjects at h
  split at h
  · exact nomatch h
  next hbad =>
  split at h
  · exact nomatch h
  split at h
  · exact nomatch h
  next x hx =>
  split at h
  · exact nomatch h
  next slot batch hfind =>
  dsimp only at h
  split at h
  · exact nomatch h
  next hrange =>
  split at h
  · exact nomatch h
  next hcheck =>
  obtain ⟨rfl, rfl⟩ := Prod.mk.inj (Except.ok.inj h)
  simp only [not_or, Decidable.not_not] at hbad
  obtain ⟨-, -, -, -, -, hlength, hoffset, hlength'⟩ := hbad
  exact ⟨x, slot, batch, hx, hfind, hoffset, hlength, hlength', by omega, by omega,
    by simpa using hcheck, rfl⟩

/-- What can become of a request to run a buffer of the virtual address space: it is refused, or it
is handed to a context. -/
theorem submitObjects_cases {context batchHandle offset length fence count flags : Nat}
    {handles : Nat → Nat} (h : s.submitObjects ω n context batchHandle offset length fence count
      flags handles = (r, s')) :
    (∃ e, s.handObjects n context batchHandle offset length fence count flags handles = .error e ∧
      r = .error e) ∧ s' = s ∨
    ∃ place k status x' masters' m', s.handObjects n context batchHandle offset length fence count
        flags handles = .ok (place, k) ∧ k.submit ω = (status, x', masters', m') ∧
      ((∃ e, status = .error e ∧ r = .error e) ∧ s' = ⟨{ s.client with native := some { n with
          contexts := Function.update n.contexts place (some x')
          faulted := x'.isFaulted } }, masters', m'⟩ ∨
        (∃ f, status = .ok f) ∧ Idle ⟨{ s.client with native := some { n with
          contexts := Function.update n.contexts place (some x')
          completed := (n.completed + 1) % 2 ^ 64 } }, masters', m'⟩ s') := by
  unfold submitObjects at h
  cases hk : s.handObjects n context batchHandle offset length fence count flags handles with
  | error e =>
    rw [hk] at h
    cases h
    exact .inl ⟨⟨e, rfl, rfl⟩, rfl⟩
  | ok entry =>
    obtain ⟨place, k⟩ := entry
    rw [hk] at h
    dsimp only at h
    rcases hs : k.submit ω with ⟨status, x', masters', m'⟩
    rw [hs] at h
    refine .inr ⟨place, k, status, x', masters', m', rfl, hs, ?_⟩
    cases status with
    | error e =>
      cases h
      exact .inl ⟨⟨e, rfl, rfl⟩, rfl⟩
    | ok f => exact .inr ⟨⟨f, rfl⟩, reply_idle h⟩

theorem submitObjects_keeps {context batchHandle offset length fence count flags : Nat}
    {handles : Nat → Nat} (I : s.Inv g) (hnative : s.client.native = some n)
    (hgate : n.faulted = false)
    (h : s.submitObjects ω n context batchHandle offset length fence count
      flags handles = (r, s')) : Keeps g s s' := by
  rcases submitObjects_cases h with ⟨-, rfl⟩ | ⟨place, k, status, x', masters', m', hk, hs, h⟩
  · exact Idle.rfl.keeps I
  obtain ⟨x, slot, batch, hx, -, -, -, -, -, -, -, rfl⟩ := handObjects_ok hk
  have C := I.client
  have N := C.native
  rw [hnative] at N
  obtain ⟨R, hf, pt, hpt, E⟩ := N
  obtain ⟨hlt, hid0, hid, hengine, hspace, hready, hwhole⟩ := R.context hx
  obtain ⟨heq, -, hmasters, hfault, M, hobj, -, hT⟩ := submit_aged I.mem hs
  rw [hspace] at M
  rw [hengine] at hfault
  have hcase {i : Nat} {y : RenderEngine}
      (hy : Function.update n.contexts place (some x') i = some y) :
      i = place ∧ y = x' ∨ n.contexts i = some y := by
    rw [Function.update_apply] at hy
    split at hy
    · next hi => exact .inl ⟨hi, by cases hy; rfl⟩
    · exact .inr hy
  -- no context has faulted before
  have hunfaulted {i : Nat} {y : RenderEngine} (hy : n.contexts i = some y) :
      y.faulted = false := by
    refine Bool.eq_false_iff.mpr fun h => ?_
    rw [hf i y hy h] at hgate
    cases hgate
  have hR : Rendering s.client.id (Function.update n.contexts place (some x')) n.ids
      n.nextContext m' := by
    refine ⟨fun {i y} hy => ?_, fun {i} hi => ?_, R.inj, fun hbo => R.all (hobj ▸ hbo), fun k => ?_,
      R.next, R.small⟩
    · have hwhole' {k : ContextId} (h : Whole s.mem k) : Whole m' k := fun p => by
        obtain ⟨bo, hbo⟩ := h p
        exact ⟨bo, (congrFun hobj _).trans hbo⟩
      rcases hcase hy with ⟨rfl, rfl⟩ | hy
      · rw [heq]
        exact ⟨hlt, hid0, hid, hengine, hspace, hready, hwhole' hwhole⟩
      · obtain ⟨h1, h2, h3, h4, h5, h6, h7⟩ := R.context hy
        exact ⟨h1, h2, h3, h4, h5, h6, hwhole' h7⟩
    · by_cases hi' : i = place
      · exact ⟨x', by rw [hi', Function.update_self]⟩
      · obtain ⟨y, hy⟩ := R.named hi
        exact ⟨y, (Function.update_of_ne hi' _ _).trans hy⟩
    · have hne : Owner.ownTables (.native s.client.id k) ≠ .vm s.client.id := nofun
      exact (M.tables hne).trans (R.own k)
  have hE : ∃ pt, m'.tables (.vm s.client.id) = some pt ∧
      Exact s.client.buffers n.addresses m' pt := by
    obtain ⟨pt', hpt', hs, htr⟩ := (hT _).2 pt hpt
    refine ⟨pt', hpt', E.frame I.mem M (fun _ _ => rfl) (fun i o _ ho h => ?_)
      (fun a ha => (htr a ha).resolve_right id) hs⟩
    obtain ⟨-, -, rfl, -⟩ := C.holding.slot ho
    cases h
  -- the scheduler knows of the fault, if there is one
  have hscheduled {n' : NativeState} (hn' : n'.faulted = true → x'.faulted = true) :
      Scheduled ⟨{ s.client with native := some n' }, masters', m'⟩ := by
    refine ⟨fun {e y} hy => ?_, I.scheduled.render, fun {n''} hn'' => ?_⟩
    · obtain ⟨z, hz, hzf⟩ := I.scheduled.engine hy
      obtain ⟨z', hz', -, hzf'⟩ := (hmasters e).2 z hz
      exact ⟨z', hz', fun h => hzf' (hzf h)⟩
    · cases hn''
      obtain ⟨z, hz, -⟩ := I.scheduled.native hnative
      obtain ⟨z', hz', -⟩ := (hmasters .render).2 z hz
      refine ⟨z', hz', fun h => ?_⟩
      rcases hfault (hn' h) with h | ⟨-, h⟩
      · exact absurd h (Bool.eq_false_iff.mp (hunfaulted hx))
      · obtain ⟨z'', hz'', h⟩ := h z hz
        cases hz'.symm.trans hz''
        exact h
  have hM : Moves g s.OfNative s.mem m' := M.mono fun _ => .inl
  rcases h with ⟨-, rfl⟩ | ⟨⟨f, rfl⟩, hidle⟩
  · refine I.keeps_running hM ⟨hR, fun i y hy hfy => ?_, hE⟩ (.native hnative rfl rfl) hmasters
      (hscheduled id)
    rcases hcase hy with ⟨-, rfl⟩ | hy
    · exact hfy
    · rw [hunfaulted hy] at hfy
      cases hfy
  · have hkept : Keeps g s ⟨{ s.client with native := some { n with
        contexts := Function.update n.contexts place (some x')
        completed := (n.completed + 1) % 2 ^ 64 } }, masters', m'⟩ := by
      refine I.keeps_running hM ⟨hR, fun i y hy hfy => ?_, hE⟩ (.native hnative rfl rfl) hmasters
        (hscheduled fun h => ?_)
      · rcases hcase hy with ⟨-, rfl⟩ | hy
        · rcases hfault hfy with h | ⟨⟨e, he⟩, -⟩
          · exact hf place x hx h
          · cases he
        · exact hf i y hy hfy
      · rw [hgate] at h
        cases h
    exact hkept.trans (hidle.keeps hkept.inv)

/-! ## Requests that report something -/

theorem wait_idle {x : RenderEngine} {m m' : Memory} {fence timeout : Nat} {r : Except Error Unit}
    (h : x.wait ω m fence timeout = (r, m')) : m.Idle m' := by
  unfold wait at h
  split at h
  · cases h
    exact .rfl
  split at h
  · cases h
    exact .rfl
  exact waitFor_idle h

theorem status_idle {x : RenderEngine} {m m' : Memory} {r : Except Error EngineStatus}
    (h : x.status ω m = (r, m')) : m.Idle m' := by
  have h1 := poll_idle ω m
  unfold status at h
  split at h
  · cases h
    exact .rfl
  split at h
  · next m₁ hp =>
    cases h
    rwa [hp] at h1
  · next m₁ hp =>
    cases h
    rw [hp] at h1
    exact h1.trans (poll_idle ω m₁)

theorem waitFence_idle {fence timeout : Nat} (h : s.waitFence ω fence timeout = (r, s')) :
    Idle s s' := by
  unfold waitFence at h
  split at h
  · cases h
    exact .rfl
  split at h
  · cases h
    exact .rfl
  split at h
  · cases h
    exact .rfl
  · exact done_idle (wait_idle rfl) h

theorem engineStatus_idle {statusBuffer : Nat} (h : s.engineStatus ω statusBuffer = (r, s')) :
    Idle s s' := by
  unfold engineStatus at h
  split at h
  · cases h
    exact .rfl
  split at h
  · next hm =>
    cases h
    exact idle_setMem (status_idle hm)
  · next hm => exact (idle_setMem (status_idle hm)).trans (reply_idle h)

theorem readRegister_idle {offset value : Nat} (h : s.readRegister ω offset value = (r, s')) :
    Idle s s' := by
  unfold readRegister at h
  split at h
  · cases h
    exact .rfl
  · exact reply_idle h

theorem gpuActivity_idle (h : s.gpuActivity ω = (r, s')) : Idle s s' := by
  unfold gpuActivity at h
  split at h
  · cases h
    exact .rfl
  · exact reply_idle h

theorem getTopology_idle (h : s.getTopology ω = (r, s')) : Idle s s' := by
  unfold getTopology at h
  split at h
  · cases h
    exact .rfl
  · exact reply_idle h

theorem cacheBuffer_eq {handle reserved offset length : Nat}
    (h : s.cacheBuffer handle reserved offset length = (r, s')) : s' = s := by
  unfold cacheBuffer at h
  split at h
  · cases h
    rfl
  split at h
  · cases h
    rfl
  · split at h <;> cases h <;> rfl

theorem waitRenderFence_eq {fence timeout : Nat} (h : s.waitRenderFence n fence timeout = (r, s')) :
    s' = s := by
  unfold waitRenderFence at h
  split at h <;> cases h <;> rfl

/-! ## Every request -/

theorem legacyRequest_keeps {request : Request} (I : s.Inv g)
    (h : s.legacyRequest ω request = (r, s')) : Keeps g s s' := by
  cases request with
  | getInfo | displayStatus => exact (reply_idle h).keeps I
  | createBuffer => exact createBuffer_keeps I h
  | closeBuffer => exact closeBuffer_keeps I h
  | bindBuffer => exact bindBuffer_keeps I h
  | unbindBuffer => exact unbindBuffer_keeps I h
  | submit => exact submit_keeps I h
  | waitFence => exact (waitFence_idle h).keeps I
  | engineStatus => exact (engineStatus_idle h).keeps I
  | readRegister => exact (readRegister_idle h).keeps I
  | framebuffer => exact framebuffer_keeps I h
  | _ =>
    cases h
    exact Idle.rfl.keeps I

theorem nativeRequest_keeps {request : Request} (I : s.Inv g) (hnative : s.client.native = some n)
    (hgate : n.faulted = false) (h : s.nativeRequest ω n request = (r, s')) : Keeps g s s' := by
  cases request with
  | createContext => exact createContext_keeps I hnative h
  | destroyContext => exact destroyContext_keeps I hnative h
  | bindVirtual => exact bindVirtual_keeps I hnative h
  | unbindVirtual => exact unbindVirtual_keeps I h
  | submitObjects => exact submitObjects_keeps I hnative hgate h
  | waitRenderFence =>
    cases waitRenderFence_eq h
    exact Idle.rfl.keeps I
  | bufferLayout => exact bufferLayout_keeps I hnative h
  | cacheBuffer =>
    cases cacheBuffer_eq h
    exact Idle.rfl.keeps I
  | getTopology => exact (getTopology_idle h).keeps I
  | _ =>
    cases h
    exact Idle.rfl.keeps I

/-- What can become of a request for the native interface: it is refused, or there is a native state
and the request has been read. -/
theorem nativeIoctl_cases {header : Header} {request : Request}
    (h : s.nativeIoctl ω header request = (r, s')) :
    (∃ e, r = .error e) ∧ s' = s ∨
    s.client.nativeRender = true ∧ ∃ r₁ s₁, s.nativeState ω = (r₁, s₁) ∧
      ((∃ e, r₁ = .error e ∧ r = .error e) ∧ s' = s₁ ∨ ∃ n r₂ s₂, r₁ = .ok n ∧
        s₁.readRequest ω header request.sizeof = (r₂, s₂) ∧
        ((∃ e, r₂ = .error e ∧ r = .error e) ∧ s' = s₂ ∨
          r₂ = .ok () ∧ s₂.nativeRequest ω n request = (r, s'))) := by
  unfold nativeIoctl at h
  split at h
  · cases h
    exact .inl ⟨⟨_, rfl⟩, rfl⟩
  next hr =>
  generalize hn : s.nativeState ω = res at h
  obtain ⟨r₁, s₁⟩ := res
  refine .inr ⟨by simpa using hr, r₁, s₁, rfl, ?_⟩
  cases r₁ with
  | error e =>
    cases h
    exact .inl ⟨⟨e, rfl, rfl⟩, rfl⟩
  | ok n =>
    dsimp only at h
    generalize hq : s₁.readRequest ω header request.sizeof = res at h
    obtain ⟨r₂, s₂⟩ := res
    refine .inr ⟨n, r₂, s₂, rfl, rfl, ?_⟩
    cases r₂ with
    | error e =>
      cases h
      exact .inl ⟨⟨e, rfl, rfl⟩, rfl⟩
    | ok u => exact .inr ⟨rfl, h⟩

/-- The native state there is once it has been asked for. -/
theorem nativeState_ok {n : NativeState} (h : s.nativeState ω = (.ok n, s')) :
    s'.client.native = some n ∧ (s.client.native = some n ∨
      s.client.native = none ∧ n = .new) := by
  rcases nativeState_cases h with ⟨n', hn, heq, rfl⟩ | ⟨hn, ⟨⟨e, he⟩, -⟩ | ⟨m₁, r₂, m₂, -, -, h'⟩⟩
  · cases heq
    exact ⟨hn, .inl hn⟩
  · cases he
  · rcases h' with ⟨⟨e, -, he⟩, -⟩ | ⟨-, heq, rfl⟩
    · cases he
    · cases heq
      exact ⟨rfl, .inr ⟨hn, rfl⟩⟩

theorem nativeIoctl_keeps {header : Header} {request : Request} (I : s.Inv g)
    (hgate : s.client.native.any (·.faulted) = false)
    (h : s.nativeIoctl ω header request = (r, s')) : Keeps g s s' := by
  rcases nativeIoctl_cases h with ⟨-, rfl⟩ | ⟨hr, r₁, s₁, hn, h⟩
  · exact Idle.rfl.keeps I
  have K₁ := nativeState_keeps I hr hn
  rcases h with ⟨-, rfl⟩ | ⟨n, r₂, s₂, rfl, hq, h⟩
  · exact K₁
  have I₂ := readRequest_idle hq
  have K₂ := K₁.trans (I₂.keeps K₁.inv)
  rcases h with ⟨-, rfl⟩ | ⟨-, h⟩
  · exact K₂
  obtain ⟨hnative, hold⟩ := nativeState_ok hn
  have hfaulted : n.faulted = false := by
    rcases hold with hold | ⟨-, rfl⟩
    · simpa [hold] using hgate
    · rfl
  exact K₂.trans (nativeRequest_keeps K₂.inv (I₂.client ▸ hnative) hfaulted h)

/-- Whatever a client asks for and whatever fails in it, the client can go on. -/
theorem ioctl_keeps {header : Header} {request : Request} (I : s.Inv g)
    (h : s.ioctl ω header request = (r, s')) : Keeps g s s' := by
  have hread {q : Except Error Unit} {s₁ : Session} {size : Nat}
      (hq : s.readRequest ω header size = (q, s₁)) : Keeps g s s₁ := (readRequest_idle hq).keeps I
  unfold ioctl at h
  split at h
  · split at h
    · next hq =>
      cases h
      exact hread hq
    · next hq => exact (hread hq).trans ((gpuActivity_idle h).keeps (hread hq).inv)
  split at h
  · cases h
    exact Idle.rfl.keeps I
  next hgate =>
  split at h
  · next hisNative =>
    refine nativeIoctl_keeps I (Bool.eq_false_iff.mpr fun hf => hgate ?_) h
    rw [hf, Bool.true_and]
    cases request <;> first | rfl | cases hisNative
  · split at h
    · next hq =>
      cases h
      exact hread hq
    · next hq => exact (hread hq).trans (legacyRequest_keeps (hread hq).inv h)

end Session
end IntelGfx
