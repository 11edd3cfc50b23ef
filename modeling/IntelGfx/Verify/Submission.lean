import IntelGfx.Verify.Device

/-!
# What a submission hands to the hardware

`Session.handed` follows a `kSubmit` or a `kSubmitObjects` up to the call of `RenderEngine::Submit`
and tells what that is called with, as `submit` and `submitObjects` themselves do. A request that
does not get there has changed nothing, and one that does hands over a range of its batch, at an
address where the page tables of the context show the batch.
-/

namespace IntelGfx
open Memory RenderEngine

/-- The batch of a submission, and the offset into it. -/
def Request.batch : Request → Option (Nat × Nat)
  | .submit handle _ offset _ _ => some (handle, offset)
  | .submitObjects _ batchHandle offset _ _ _ _ _ => some (batchHandle, offset)
  | _ => none

namespace Session
variable {ω : Oracle} {g : GlobalGTT} {s s' s'' : Session} {r : Except Error Reply}
  {n : NativeState}

/-- An `Ioctl` up to the call of `Submit`. -/
def handed (ω : Oracle) (s : Session) (header : Header) (request : Request) : Option Handed :=
  if s.client.native.any (·.faulted) then none else
  match request with
  | .submit handle flags offset length fence =>
    match s.readRequest ω header request.sizeof with
    | (.error _, _) => none
    | (.ok (), s) => (s.handSubmit handle flags offset length fence).toOption
  | .submitObjects context batchHandle offset length fence count flags handles =>
    if !s.client.nativeRender then none else
    match s.nativeState ω with
    | (.error _, _) => none
    | (.ok n, s) =>
      match s.readRequest ω header request.sizeof with
      | (.error _, _) => none
      | (.ok (), s) =>
        (s.handObjects n context batchHandle offset length fence count flags
          handles).toOption.map (·.2)
  | _ => none

/-- No binding, no context and no counter has changed; page tables may have come, but none changed.
-/
structure Untouched (s s' : Session) : Prop where
  buffers : s'.client.buffers = s.client.buffers
  handles : s'.client.handles = s.client.handles
  bound : s'.client.bound = s.client.bound
  engines : s'.client.engines = s.client.engines
  native : s'.client.native.getD .new = s.client.native.getD .new
  masters : s'.masters = s.masters
  objects : s'.mem.objects = s.mem.objects
  tables : ∀ {o pt}, s.mem.tables o = some pt → s'.mem.tables o = some pt

namespace Untouched

theorem rfl : Untouched s s :=
  ⟨Eq.refl _, Eq.refl _, Eq.refl _, Eq.refl _, Eq.refl _, Eq.refl _, Eq.refl _, id⟩

theorem trans (h : Untouched s s') (h' : Untouched s' s'') : Untouched s s'' :=
  ⟨h'.buffers.trans h.buffers, h'.handles.trans h.handles, h'.bound.trans h.bound,
    h'.engines.trans h.engines, h'.native.trans h.native, h'.masters.trans h.masters,
    h'.objects.trans h.objects, fun hpt => h'.tables (h.tables hpt)⟩

end Untouched

theorem Idle.untouched (h : Idle s s') : Untouched s s' := by
  obtain ⟨hc, hm, hmem⟩ := h
  refine ⟨by rw [hc], by rw [hc], by rw [hc], by rw [hc], by rw [hc], hm, hmem.objects,
    fun hpt => ?_⟩
  rw [hmem.tables]
  exact hpt

/-- The native state that is made on first use has no contexts and no bindings. -/
theorem nativeState_untouched {q : Except Error NativeState} (I : s.Inv g)
    (h : s.nativeState ω = (q, s')) : Untouched s s' := by
  rcases nativeState_cases h with ⟨n, -, -, rfl⟩ | ⟨hn, ⟨-, hidle⟩ | ⟨m₁, r₂, m₂, hm₁, hm₂, h'⟩⟩
  · exact .rfl
  · exact hidle.untouched
  have N := I.client.native
  rw [hn] at N
  have H₁ : m₁.Inv g := (hm₁.moves (K := fun _ => False) I.mem).inv
  obtain ⟨M, hobj, -, -, -⟩ := newTables_spec H₁ (Owner.isTables_vm _)
    ((congrFun hm₁.tables _).trans N.1) hm₂
  have htables {o : Owner} {pt : PageTables Owner} (hpt : s.mem.tables o = some pt) :
      m₂.tables o = some pt := by
    rw [M.tables fun ho => nomatch (ho ▸ hpt).symm.trans N.1]
    exact (congrFun hm₁.tables o).trans hpt
  rcases h' with ⟨-, rfl⟩ | ⟨-, -, rfl⟩
  · exact ⟨Eq.refl _, Eq.refl _, Eq.refl _, Eq.refl _, Eq.refl _, Eq.refl _,
      hobj.trans hm₁.objects, htables⟩
  · exact ⟨Eq.refl _, Eq.refl _, Eq.refl _, Eq.refl _, by rw [hn]; exact Eq.refl _, Eq.refl _,
      hobj.trans hm₁.objects, htables⟩

/-- `Submit` was called with what was handed over, and what it said is the answer. -/
def Answered (ω : Oracle) (k : Handed) (r : Except Error Reply) (s' : Session) : Prop :=
  ∃ status x masters m, k.submit ω = (status, x, masters, m) ∧
    s'.masters = masters ∧ m.Idle s'.mem ∧ ∀ e, status = .error e → r = .error e

/-- A range of the batch, at an address where the context that runs it is shown the batch. -/
def Contained (k : Handed) (handle offset : Nat) : Prop :=
  ∃ slot batch pt, k.session.find handle = some (slot, batch) ∧
    k.address % 4 = 0 ∧ k.length ≠ 0 ∧ k.length % 2 ^ 32 = k.length ∧
    offset + k.length ≤ k.session.mem.size batch ∧
    k.session.mem.tables k.context.addressSpace = some pt ∧
    ∀ i < k.length,
      (k.session.mem.pages batch)[(offset + i) / 4096]? = some (pt.translate (k.address + i))

/-- The buffers that a `kSubmitObjects` names. -/
def Named (s : Session) : Request → Prop
  | .submitObjects _ batchHandle _ _ _ count _ handles =>
    ((List.range count).map handles).Nodup ∧ batchHandle ∈ (List.range count).map handles ∧
      ∀ h ∈ (List.range count).map handles, ∃ slot buffer n, s.find h = some (slot, buffer) ∧
        s.client.native = some n ∧ n.addresses slot ≠ 0
  | _ => True

theorem submit_handed {handle flags offset length fence : Nat}
    (h : s.submit ω handle flags offset length fence = (r, s')) :
    match (s.handSubmit handle flags offset length fence).toOption with
    | none => (∃ e, r = .error e) ∧ s' = s
    | some k => Answered ω k r s' := by
  rcases submit_cases h with ⟨⟨e, hk, he⟩, rfl⟩ | ⟨k, status, x, masters, m, hk, hs, he, hidle⟩
  · rw [hk]
    exact ⟨⟨e, he⟩, rfl⟩
  · rw [hk]
    exact ⟨status, x, masters, m, hs, hidle.masters, hidle.mem, he⟩

theorem submitObjects_handed {context batchHandle offset length fence count flags : Nat}
    {handles : Nat → Nat} (h : s.submitObjects ω n context batchHandle offset length fence count
      flags handles = (r, s')) :
    match (s.handObjects n context batchHandle offset length fence count flags
        handles).toOption.map (·.2) with
    | none => (∃ e, r = .error e) ∧ s' = s
    | some k => Answered ω k r s' := by
  rcases submitObjects_cases h with ⟨⟨e, hk, he⟩, rfl⟩ |
    ⟨place, k, status, x, masters, m, hk, hs, ⟨⟨e, he, hr⟩, rfl⟩ | ⟨⟨f, hf⟩, hidle⟩⟩
  · rw [hk]
    exact ⟨⟨e, he⟩, rfl⟩
  · rw [hk]
    refine ⟨status, x, masters, m, hs, rfl, .rfl, fun e' he' => ?_⟩
    rw [hr, Except.error.inj (he.symm.trans he')]
  · rw [hk]
    refine ⟨status, x, masters, m, hs, hidle.masters, hidle.mem, fun e he => ?_⟩
    exact nomatch hf.symm.trans he

/-! ## Containment -/

/-- The sizes of the buffers leave no room for a length of more than 32 bits. -/
theorem Inv.length_lt (I : s.Inv g) {slot : Nat} {o : Owner} (ho : s.client.buffers slot = some o)
    {offset length : Nat} (h : offset + length ≤ s.mem.size o) : length % 2 ^ 32 = length := by
  have hle := I.accounts.size_le ho
  unfold kMaxBufferSize at hle
  exact Nat.mod_eq_of_lt (by omega)

theorem handSubmit_spec {handle flags offset length fence : Nat} {k : Handed} (I : s.Inv g)
    (h : s.handSubmit handle flags offset length fence = .ok k) :
    k.session = s ∧ Contained k handle offset := by
  obtain ⟨x, slot, buffer, hx, hf, hb, hoffset, hlength, hlength', hin, hend, rfl⟩ :=
    handSubmit_ok h
  obtain ⟨e, hx, hr⟩ := engine_some hx
  obtain ⟨-, -, ho⟩ := find_some hf
  obtain ⟨pt, hpt, hshows⟩ := I.shown.shows hx hr ho hb
  obtain ⟨bo, hbo, hbound⟩ := (Option.any_eq_true _ _).mp hb
  obtain ⟨first, haddress, -, -⟩ := I.mem.bound_at hbo hbound
  have haddr : s.mem.graphicsAddress buffer = bo.graphicsAddress := by
    rw [Memory.graphicsAddress, hbo]
  have hend : offset + length ≤ s.mem.size buffer := by omega
  refine ⟨rfl, slot, buffer, pt, hf, ?_, hlength, I.length_lt ho hend, hend, hpt, fun i hi => ?_⟩
  · change (s.mem.graphicsAddress buffer + offset) % 4 = 0
    omega
  · change i < length at hi
    have hin : Range (s.mem.graphicsAddress buffer) (s.mem.size buffer)
        (s.mem.graphicsAddress buffer + offset + i) := ⟨by omega, by omega⟩
    obtain ⟨-, hp⟩ := hshows.entered hin
    rw [show (s.mem.graphicsAddress buffer + offset + i - s.mem.graphicsAddress buffer) / 4096 =
      (offset + i) / 4096 by omega] at hp
    exact hp

theorem handObjects_spec {context batchHandle offset length fence count flags place : Nat}
    {handles : Nat → Nat} {k : Handed} (I : s.Inv g) (hn : s.client.native = some n)
    (h : s.handObjects n context batchHandle offset length fence count flags handles =
      .ok (place, k)) :
    k.session = s ∧ Contained k batchHandle offset ∧
      Named s (.submitObjects context batchHandle offset length fence count flags handles) := by
  obtain ⟨x, slot, batch, hx, hf, hoffset, hlength, hlength', hin, hend, hcheck, rfl⟩ :=
    handObjects_ok h
  unfold checkObjects at hcheck
  rw [Bool.and_eq_true, Bool.and_eq_true, List.all_eq_true, decide_eq_true_eq] at hcheck
  obtain ⟨⟨hall, hnodup⟩, hbatch⟩ := hcheck
  have hbatch : batchHandle ∈ (List.range count).map handles := List.contains_iff_mem.mp hbatch
  have hlisted {h : Nat} (hh : h ∈ (List.range count).map handles) :
      ∃ slot buffer, s.find h = some (slot, buffer) ∧ n.addresses slot ≠ 0 := by
    obtain ⟨⟨slot, buffer⟩, hf, ha⟩ := (Option.any_eq_true _ _).mp (hall h hh)
    exact ⟨slot, buffer, hf, of_decide_eq_true ha⟩
  have hslot : n.addresses slot ≠ 0 := by
    obtain ⟨slot', buffer', hf', ha⟩ := hlisted hbatch
    obtain ⟨rfl, -⟩ := Prod.mk.inj (Option.some.inj (hf.symm.trans hf'))
    exact ha
  obtain ⟨-, -, ho⟩ := find_some hf
  have N := I.client.native
  rw [hn] at N
  obtain ⟨R, -, pt, hpt, E⟩ := N
  obtain ⟨-, -, -, -, hspace, -⟩ := R.context hx
  obtain ⟨o, bo, ho', -, -, halign, -⟩ := E.slot hslot
  have hend : offset + length ≤ s.mem.size batch := by omega
  refine ⟨rfl, ⟨slot, batch, pt, hf, ?_, hlength, I.length_lt ho hend, hend, hspace ▸ hpt,
    fun i hi => ?_⟩, hnodup, hbatch, fun h hh => ?_⟩
  · change (n.addresses slot + offset) % 4 = 0
    omega
  · change i < length at hi
    have hshown := E.shown hslot ho (a := n.addresses slot + offset + i) (by omega) (by omega)
    rw [show (n.addresses slot + offset + i - n.addresses slot) / 4096 = (offset + i) / 4096 by
      omega] at hshown
    exact hshown
  · obtain ⟨slot', buffer', hf', ha⟩ := hlisted hh
    exact ⟨slot', buffer', n, hf', hn, ha⟩

/-- What becomes of a submission. -/
theorem ioctl_handed {header : Header} {request : Request} {handle offset : Nat} (I : s.Inv g)
    (hbatch : request.batch = some (handle, offset)) (h : s.ioctl ω header request = (r, s')) :
    match s.handed ω header request with
    | none => (∃ e, r = .error e) ∧ Untouched s s'
    | some k => Untouched s k.session ∧ Contained k handle offset ∧ Named k.session request ∧
        Answered ω k r s' := by
  unfold handed
  cases hgate : s.client.native.any (·.faulted) with
  | true =>
    rw [if_pos rfl]
    cases request with
    | submit | submitObjects =>
      simp only [ioctl, hgate, passesGate, Bool.not_false, Bool.and_true, if_true] at h
      obtain ⟨rfl, rfl⟩ := Prod.mk.inj h
      exact ⟨⟨_, rfl⟩, .rfl⟩
    | _ => exact nomatch hbatch
  | false =>
    rw [if_neg Bool.false_ne_true]
    cases request with
    | submit handle flags offset length fence =>
      obtain ⟨rfl, rfl⟩ := Prod.mk.inj (Option.some.inj hbatch)
      simp only [ioctl, hgate, Bool.false_and, Bool.false_eq_true, if_false, Request.isNative] at h
      dsimp only
      generalize hq : s.readRequest ω header
        (Request.submit handle flags offset length fence).sizeof = res at h ⊢
      obtain ⟨q, s₁⟩ := res
      have U := (readRequest_idle hq).untouched
      have I₁ := ((readRequest_idle hq).keeps I).inv
      cases q with
      | error e =>
        obtain ⟨rfl, rfl⟩ := Prod.mk.inj h
        exact ⟨⟨_, rfl⟩, U⟩
      | ok u =>
        have hs := submit_handed (h : s₁.submit ω handle flags offset length fence = (r, s'))
        dsimp only
        generalize hk : s₁.handSubmit handle flags offset length fence = k at hs ⊢
        cases k with
        | error e =>
          obtain ⟨he, rfl⟩ := hs
          exact ⟨he, U⟩
        | ok k =>
          obtain ⟨rfl, C⟩ := handSubmit_spec I₁ hk
          exact ⟨U, C, trivial, hs⟩
    | submitObjects context batchHandle offset length fence count flags handles =>
      obtain ⟨rfl, rfl⟩ := Prod.mk.inj (Option.some.inj hbatch)
      simp only [ioctl, hgate, Bool.false_and, Bool.false_eq_true, if_false, Request.isNative,
        if_true] at h
      dsimp only
      unfold nativeIoctl at h
      cases hrender : s.client.nativeRender with
      | false =>
        rw [hrender] at h
        obtain ⟨rfl, rfl⟩ := Prod.mk.inj h
        exact ⟨⟨_, rfl⟩, .rfl⟩
      | true =>
        rw [hrender, Bool.not_true, if_neg Bool.false_ne_true] at h
        rw [Bool.not_true, if_neg Bool.false_ne_true]
        generalize hn : s.nativeState ω = res at h ⊢
        obtain ⟨q, s₁⟩ := res
        have U := nativeState_untouched I hn
        have I₁ := (nativeState_keeps I hrender hn).inv
        cases q with
        | error e =>
          obtain ⟨rfl, rfl⟩ := Prod.mk.inj h
          exact ⟨⟨_, rfl⟩, U⟩
        | ok n =>
          dsimp only at h ⊢
          generalize hq : s₁.readRequest ω header (Request.submitObjects context batchHandle offset
            length fence count flags handles).sizeof = res at h ⊢
          obtain ⟨q, s₂⟩ := res
          have U₂ := U.trans (readRequest_idle hq).untouched
          have I₂ := ((readRequest_idle hq).keeps I₁).inv
          cases q with
          | error e =>
            obtain ⟨rfl, rfl⟩ := Prod.mk.inj h
            exact ⟨⟨_, rfl⟩, U₂⟩
          | ok u =>
            have hnative : s₂.client.native = some n :=
              (congrArg RenderClient.native (readRequest_idle hq).client).trans
                (nativeState_ok hn).1
            have hs := submitObjects_handed (h : s₂.submitObjects ω n context batchHandle offset
              length fence count flags handles = (r, s'))
            obtain ⟨⟩ := u
            dsimp only
            generalize hk : s₂.handObjects n context batchHandle offset length fence count flags
              handles = k at hs ⊢
            cases k with
            | error e =>
              obtain ⟨he, rfl⟩ := hs
              exact ⟨he, U₂⟩
            | ok k =>
              obtain ⟨rfl, C, N⟩ := handObjects_spec I₂ hnative hk
              exact ⟨U₂, C, N, hs⟩
    | _ => exact nomatch hbatch

end Session

namespace Device

/-- Whatever a client and the other users of the device have done, a submission of the client that
is refused before it gets to `Submit` changes nothing, and one that gets there hands over a range of
its batch. -/
theorem exec_contained (config : Config) (entries : Nat → Nat) (foreign : List Nat)
    (calls : List (Call × Oracle)) (ω : Oracle) (header : Header) {c : Nat} {x : RenderClient}
    {request : Request} {handle offset : Nat} {r : Except Error Reply} {s s' : Session}
    (hx : (Run.exec step (start config entries foreign) calls).clients c = some x)
    (hs : s = (Run.exec step (start config entries foreign) calls).entered x)
    (hbatch : request.batch = some (handle, offset)) (h : s.ioctl ω header request = (r, s')) :
    match s.handed ω header request with
    | none => (∃ e, r = .error e) ∧ s.Untouched s'
    | some k => s.Untouched k.session ∧ Session.Contained k handle offset ∧
        k.session.Named request ∧ Session.Answered ω k r s' := by
  obtain ⟨g, I⟩ := exec_inv config entries foreign calls
  exact Session.ioctl_handed (hs ▸ I.entered hx) hbatch h

/-- A buffer of two pages is made and bound in the global GTT. -/
def boundBuffer : List (Call × Oracle) :=
  [(.open, .unfailing), (.ioctl 0 ⟨32, 8, 32⟩ (.createBuffer 8192 0 0), .unfailing),
    (.ioctl 0 ⟨24, 8, 24⟩ (.bindBuffer 1 0 0), .unfailing)]

set_option maxRecDepth 10000 in
/-- The blitter runs the second page of the buffer. -/
theorem exec_contained_boundBuffer :
    let d := Run.exec step (start Config.blitter (fun _ => 0) []) boundBuffer
    ∃ x k, d.clients 0 = some x ∧
      (d.entered x).handed .unfailing ⟨40, 8, 40⟩ (.submit 1 0 4096 8 0) = some k ∧
      k.length = 8 ∧ Session.Contained k 1 4096 := by
  intro d
  have h : (d.clients 0).bind (fun x => ((d.entered x).handed .unfailing ⟨40, 8, 40⟩
      (.submit 1 0 4096 8 0)).map (·.length)) = some 8 := by
    decide +kernel
  obtain ⟨x, hx, h⟩ := Option.bind_eq_some_iff.mp h
  obtain ⟨k, hk, hlen⟩ := Option.map_eq_some_iff.mp h
  generalize hs : d.entered x = s at hk
  have C := @exec_contained Config.blitter (fun _ => 0) [] boundBuffer .unfailing ⟨40, 8, 40⟩ 0 x
    (.submit 1 0 4096 8 0) 1 4096 _ s _ hx hs.symm rfl (Prod.eta _).symm
  rw [hk] at C
  exact ⟨x, k, hx, hs ▸ hk, hlen, C.2.1⟩

end Device

end IntelGfx
