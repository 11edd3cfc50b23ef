import IntelGfx.Verify.Coherence

/-!
# What `reclaim` gives back

The winsys counts the bytes it was asked for, and the driver charges whole pages against two
limits. Since a buffer is entered in the map with the size that the driver has given it, what the
cached buffers amount to is what the client gets back for them. A client that makes one buffer after
another reaches its limit (`Filled`).
-/

namespace IntelGfx

/-! ## Where nothing fails -/

namespace Memory

/-- A buffer object of a page, while nothing fails and the pages above are free. -/
theorem newObject_unfailing {m : Memory} {o : Owner} {top : Nat} (h0 : 0 < top)
    (hlive : ∀ p ∈ m.os.live, p < top * 4096) (htop : top < 2 ^ 27) :
    ∃ m', m.newObject .unfailing o 4096 = (.ok (), m') ∧
      ∀ p ∈ m'.os.live, p < (top + 1) * 4096 := by
  obtain ⟨os, hcreate, -, hos⟩ := m.os.createArea_unfailing (BufferObject.new o).owner false h0
    hlive htop
  refine ⟨_, by rw [newObject, BufferObject.init, show 4096 / 4096 = 1 from rfl, hcreate], ?_⟩
  exact hos

end Memory

namespace Session
variable {s : Session} {n : Nat}

/-- A client that has a buffer of a page in each of its first `n` slots and nothing else, and the
pages above are free. -/
structure Filled (s : Session) (n : Nat) : Prop where
  native : s.client.native = none
  nextHandle : s.client.nextHandle = n + 1
  allocated : s.client.allocated = n * 4096
  slots : ∀ i, i < kMaxBuffers → (s.client.buffers i = none ↔ n ≤ i)
  live : ∀ p ∈ s.mem.os.live, p < (n + 64) * 4096

theorem Filled.find (F : s.Filled n) (hn : n < kMaxBuffers) :
    (List.range kMaxBuffers).find? (fun i => (s.client.buffers i).isNone) = some n := by
  refine List.find?_range_eq_some.mpr ⟨?_, List.mem_range.mpr hn, fun j hj => ?_⟩
  · rw [(F.slots n hn).mpr (Nat.le_refl n)]
    rfl
  · cases hb : s.client.buffers j with
    | none => exact absurd ((F.slots j (hj.trans hn)).mp hb) (Nat.not_le_of_lt hj)
    | some o => rfl

theorem Filled.createBuffer (F : s.Filled n) (hn : n < kMaxBuffers) :
    ∃ area s', s.createBuffer .unfailing 4096 0 0 = (.ok (.buffer 4096 (n + 1) area), s') ∧
      s'.Filled (n + 1) := by
  have hn' : n < 256 := hn
  obtain ⟨m', hm, hlive⟩ := Memory.newObject_unfailing
    (o := .buffer s.client.id s.client.nextHandle) (m := s.mem.setOs s.mem.os.called)
    (Nat.zero_lt_succ (n + 63)) F.live (by omega)
  have hroom : ¬ sub64 kClientMemoryLimit s.client.allocated < pageRound 4096 := by
    rw [F.allocated]
    unfold sub64 kClientMemoryLimit pageRound
    omega
  unfold Session.createBuffer
  dsimp only
  rw [if_neg (by rw [F.nextHandle]; simp [kMaxBufferSize]), if_neg hroom, F.find hn]
  dsimp only
  rw [show s.mem.allocate .unfailing = (.ok (), s.mem.setOs s.mem.os.called) from rfl]
  dsimp only
  rw [show pageRound 4096 = 4096 from rfl, hm]
  dsimp only
  rw [show m'.userMemcpy .unfailing = (.ok (), m'.setOs m'.os.called) from rfl]
  dsimp only
  rw [F.nextHandle]
  refine ⟨_, _, rfl, ?_⟩
  refine ⟨F.native, ?_, ?_, fun i hi => ?_, fun p hp => ?_⟩
  · exact Nat.mod_eq_of_lt (by omega)
  · dsimp only
    rw [F.allocated]
    omega
  · dsimp only
    rw [Function.update_apply]
    split
    · next heq => simp [heq]
    · next hne =>
      rw [F.slots i hi]
      omega
  · have := hlive p hp
    omega

theorem Filled.full (F : s.Filled kMaxBuffers) (size : Nat) :
    ∃ e, s.createBuffer .unfailing size 0 0 = (.error e, s) := by
  have hslot : (List.range kMaxBuffers).find? (fun i => (s.client.buffers i).isNone) = none := by
    refine List.find?_eq_none.mpr fun i hi => ?_
    cases hb : s.client.buffers i with
    | none =>
      have hi := List.mem_range.mp hi
      exact absurd ((F.slots i hi).mp hb) (Nat.not_le_of_lt hi)
    | some o => exact Bool.false_ne_true
  unfold Session.createBuffer
  dsimp only
  split
  · exact ⟨_, rfl⟩
  split
  · exact ⟨_, rfl⟩
  rw [hslot]
  exact ⟨_, rfl⟩

/-- A client without a native state has each buffer closed that it names. -/
theorem closeBuffer_plain {g : GlobalGTT} {h : Nat} {v : Held} {ω : Oracle} (S : s.Inv g)
    (hnative : s.client.native = none) (hv : s.held h = some v) :
    ∃ s', s.closeBuffer ω h 0 = (.ok .none, s') := by
  obtain ⟨i, o, hf, hi, ho, -⟩ := held_some hv
  have h0 : h ≠ 0 := hi ▸ (S.client.holding.slot ho).2.1
  unfold closeBuffer
  rw [if_neg (by simp [h0]), hf]
  dsimp only
  rw [unmapVirtual, (leaveEngines_spec ω S.mem S.client o).1, hnative]
  exact ⟨_, rfl⟩

/-- The request is read, and it is one that no gate is in the way of. -/
theorem ioctl_unfailing (hnative : s.client.native = none) {request : Request}
    (hr : request.isNative = false) (hactivity : request ≠ .gpuActivity) :
    s.ioctl .unfailing ⟨request.sizeof, kABIVersion, request.sizeof⟩ request =
      (s.setMem (s.mem.setOs s.mem.os.called)).legacyRequest .unfailing request := by
  unfold ioctl
  split
  · exact absurd rfl hactivity
  · rw [hnative, Option.any_none, Bool.false_and, if_neg Bool.false_ne_true, hr,
      if_neg Bool.false_ne_true, readRequest_unfailing]

theorem Filled.of_eq {s' : Session} (F : s.Filled n) (hc : s'.client = s.client)
    (hl : s'.mem.os.live = s.mem.os.live) : s'.Filled n :=
  ⟨hc ▸ F.native, hc ▸ F.nextHandle, hc ▸ F.allocated, hc ▸ F.slots, hl ▸ F.live⟩

end Session

namespace Winsys
variable {client : Int → Nat} {fd : Int}

open Adapter

/-- The only buffer that is cached is closed, unless it is not asked for. -/
theorem reclaim_only {κ : Type*} {K : Kernel κ} {fd : Int} {key : Key} {a : Adapter κ}
    {bytes count : Nat} (honly : ∀ e ∈ a.buffers, cached fd e = true → e.1 = key)
    (hclose : ∀ bo, (key, bo) ∈ a.buffers → bo.purged = false →
      ∃ r k, K fd (.closeBuffer key.2 0) a.kernel = (.ok r, k)) :
    (a.reclaim K fd bytes count).2.trace = a.trace ∨
      (a.reclaim K fd bytes count).2.trace = .close key true :: a.trace := by
  rw [reclaim, reclaimLoop]
  split
  swap
  · exact .inl rfl
  cases ho : oldest fd a.buffers with
  | none => exact .inl rfl
  | some e =>
    obtain ⟨key', bo⟩ := e
    obtain ⟨he, hce, -⟩ := oldest_some ho
    obtain rfl : key' = key := honly _ he hce
    have hp : bo.purged = false := by simpa [cached] using (Bool.and_eq_true_iff.mp hce).2
    obtain ⟨r, k, hk⟩ := hclose bo he hp
    have hcall : a.call K fd (.closeBuffer key'.2 0) = (.ok r, { a with kernel := k }) := by
      rw [Adapter.call, hk]
    dsimp only
    rw [hcall]
    dsimp only
    have hnone : oldest fd (Adapter.modify { a with
        kernel := k, trace := .close key' true :: a.trace } key' purge).buffers = none := by
      cases hn : oldest fd (Adapter.modify { a with
        kernel := k, trace := .close key' true :: a.trace } key' purge).buffers with
      | none => rfl
      | some e =>
        obtain ⟨hmem, hc, -⟩ := oldest_some hn
        obtain ⟨key, b⟩ := e
        obtain ⟨b, hb, rfl⟩ := mem_modify.mp hmem
        by_cases hkey : key = key'
        · rw [if_pos hkey, cached_purge] at hc
          cases hc
        · rw [if_neg hkey] at hc
          exact absurd (honly _ hb hc) hkey
    right
    cases a.buffers.length with
    | zero => rfl
    | succ fuel =>
      rw [reclaimLoop, hnone]
      split
      · rfl
      · rfl

/-- Nothing fails, the client of the descriptor has a buffer of a page in each of its first `n`
slots, and the first buffer is the only one that is cached. -/
structure Filled (a : Adapter Driver) (n : Nat) : Prop where
  turns : ∀ t, a.kernel.turns t = ⟨[], none, .unfailing⟩
  client : ∃ x, a.kernel.device.clients 0 = some x ∧ (a.kernel.device.session x).Filled n
  only : ∀ e ∈ a.buffers, cached 3 e = true → e.1 = (3, 1)
  first : ∃ bo, ((3, 1), bo) ∈ a.buffers ∧ cached 3 ((3, 1), bo) = true ∧ bo.size = 4096

namespace Filled
variable {a : Adapter Driver} {n : Nat}

/-- A request of the client gets as far as what it asks for. -/
theorem served (C : Coherent (fun _ => 0) 3 a) (F : Filled a n) (request : Request)
    (hr : request.isNative = false) (ha : request ≠ .gpuActivity) :
    ∃ (g : GlobalGTT) (s : Session) (k : Driver), s.Inv g ∧ s.Filled n ∧
      s.held = a.kernel.device.held 0 ∧ Driver.ioctl (fun _ => 0) 3 request a.kernel =
        ((s.legacyRequest .unfailing request).1, k) ∧
      (∀ t, k.turns t = ⟨[], none, .unfailing⟩) ∧
      ∀ n', (s.legacyRequest .unfailing request).2.Filled n' →
        ∃ x, k.device.clients 0 = some x ∧ (k.device.session x).Filled n' := by
  obtain ⟨x, hx, S⟩ := F.client
  have ht : a.kernel.turn = ⟨[], none, .unfailing⟩ := F.turns _
  generalize hcall : Driver.ioctl (fun _ => 0) 3 request a.kernel = c
  obtain ⟨r, k⟩ := c
  obtain ⟨g, x', s', hx', I, hheld, -, hc, -, hturns, h⟩ :=
    Driver.ioctl_session C.driver rfl hcall
  obtain rfl := Option.some.inj (hx.symm.trans hx')
  rcases h with ⟨⟨e, he, -⟩, -⟩ | ⟨-, hm, h⟩
  · rw [ht] at he
    cases he
  have hnative : x.native = none := S.native
  rw [show a.kernel.turn.oracle = .unfailing by rw [ht],
    Session.ioctl_unfailing hnative hr ha] at h
  have hidle := Session.readRequest_idle
    (Session.readRequest_unfailing (s := a.kernel.next.session x) 0)
  refine ⟨g, _, k, (hidle.keeps I).inv, S.of_eq rfl ?_, hidle.held.trans hheld,
    by rw [h], fun t => hturns ▸ F.turns t, fun n' S' => ⟨_, hc, ?_⟩⟩
  · change a.kernel.others.mem.os.live = _
    rw [Driver.others, ht]
    rfl
  · rw [h] at S'
    exact S'.of_eq rfl (congrArg (·.os.live) hm)

theorem gemCreate (D : Driven (fun _ => 0) 3 a) (F : Filled a n) (h0 : 0 < n)
    (hn : n < kMaxBuffers) :
    Filled (a.gemCreate (Driver.ioctl fun _ => 0) 3 4096).2 (n + 1) := by
  obtain ⟨-, s, k, -, S, -, hcall, hturns, hclient⟩ :=
    F.served D.toCoherent (.createBuffer 4096 0 0) rfl fun h => by cases h
  obtain ⟨area, s', hr, S'⟩ := S.createBuffer hn
  rw [Session.legacyRequest, hr] at hcall hclient
  rw [Adapter.gemCreate, Adapter.createBuffer, Adapter.call, hcall]
  refine ⟨hturns, hclient _ S', fun e he hce => ?_, ?_⟩
  · rcases (mem_insert D.sorted).mp he with rfl | ⟨he, -⟩
    · cases hce
    · exact F.only e he hce
  · obtain ⟨bo, hbo, hcb, hsize⟩ := F.first
    refine ⟨bo, (mem_insert D.sorted).mpr (.inr ⟨hbo, fun he => ?_⟩), hcb, hsize⟩
    have hhandle : 1 = n + 1 := congrArg Prod.snd he
    omega

/-- The driver refuses whatever is asked for when all slots are taken. -/
theorem refused (C : Coherent (fun _ => 0) 3 a) (F : Filled a kMaxBuffers) (size : Nat) :
    ∃ a₁, a.createBuffer (Driver.ioctl fun _ => 0) 3 size = (none, a₁) ∧
      Filled a₁ kMaxBuffers := by
  obtain ⟨-, s, k, -, S, -, hcall, hturns, hclient⟩ :=
    F.served C (.createBuffer size 0 0) rfl fun h => by cases h
  obtain ⟨e, hr⟩ := S.full size
  rw [Session.legacyRequest, hr] at hcall hclient
  exact ⟨{ a with kernel := k }, by rw [Adapter.createBuffer, Adapter.call, hcall], hturns,
    hclient _ S, F.only, F.first⟩

theorem reclaimed (C : Coherent (fun _ => 0) 3 a) (F : Filled a n) (bytes count : Nat) :
    (a.reclaim (Driver.ioctl fun _ => 0) 3 bytes count).2.trace = a.trace ∨
      (a.reclaim (Driver.ioctl fun _ => 0) 3 bytes count).2.trace =
        .close (3, 1) true :: a.trace := by
  refine reclaim_only F.only fun bo hbo hp => ?_
  obtain ⟨g, s, k, I, S, hheld, hcall, -⟩ :=
    F.served C (.closeBuffer 1 0) rfl fun h => by cases h
  obtain ⟨v, hv, -⟩ := C.live hbo hp
  obtain ⟨s', hr⟩ := Session.closeBuffer_plain (ω := .unfailing) I S.native
    ((congrFun hheld 1).trans hv)
  rw [Session.legacyRequest, hr] at hcall
  exact ⟨_, k, hcall⟩

/-- One buffer after another, as long as there are slots. -/
theorem exec (D : Driven (fun _ => 0) 3 a) (F : Filled a n) (h0 : 0 < n) {k : Nat}
    (hk : n + k ≤ kMaxBuffers) :
    Filled (Run.exec (fun call a => (ioctl (Driver.ioctl fun _ => 0) 3 call a).2) a
      (List.replicate k (.gemCreate 4096))) (n + k) := by
  induction k generalizing a n with
  | zero => exact F
  | succ k ih =>
    rw [List.replicate_succ, Nat.add_comm k, ← Nat.add_assoc]
    exact ih (D.ioctl _) (F.gemCreate D h0 (by omega)) (Nat.succ_pos n) (by omega)

end Filled

/-! ## The second time -/

theorem gemCreate_again {κ : Type*} {K : Kernel κ} {a a₁ a₂ : Adapter κ} {size freed : Nat}
    (hc : a.createBuffer K fd size = (none, a₁))
    (hr : a₁.reclaim K fd size kReclaimBatch = (freed, a₂)) (h0 : freed ≠ 0) :
    (a.gemCreate K fd size).1 =
      (a₂.createBuffer K fd size).1.elim (.fail .driver) fun b => .created b.2.1 b.1 := by
  rw [gemCreate, hc]
  dsimp only
  rw [hr]
  dsimp only
  rw [if_neg h0]
  generalize a₂.createBuffer K fd size = c
  obtain ⟨_ | b, a₃⟩ := c
  · rfl
  · rfl

theorem pageRound_le {size n : Nat} (h : size ≤ n) (hn : n % 4096 = 0) (hle : n < 2 ^ 64) :
    pageRound size ≤ n := by
  unfold pageRound
  omega

/-- A buffer is refused, whatever for. Where the cached buffers of the descriptor amount to the
bytes asked for, and no close of them fails, there is no limit any more when the driver is asked
again: it refuses only if it has no handle left or a call of the system fails. -/
theorem gemCreate_recovers {a : Adapter Driver} {size : Nat} (C : Coherent client fd a)
    (hpos : 0 < size) (hmax : size ≤ kMaxBufferSize)
    (hrefused : (a.createBuffer (Driver.ioctl client) fd size).1 = none)
    (hbytes : size ≤ cachedBytes fd a.buffers)
    (hclosed : ∀ t, ((a.createBuffer (Driver.ioctl client) fd size).2.reclaim (Driver.ioctl client)
      fd size kReclaimBatch).2.trace = t ++ a.trace → ∀ key, .close key false ∉ t) :
    let a₁ := (a.createBuffer (Driver.ioctl client) fd size).2
    let a₂ := (a₁.reclaim (Driver.ioctl client) fd size kReclaimBatch).2
    let second := a₂.createBuffer (Driver.ioctl client) fd size
    Coherent client fd a₂ ∧
      (a.gemCreate (Driver.ioctl client) fd size).1 =
        second.1.elim (.fail .driver) (fun b => .created b.2.1 b.1) ∧
      ∃ x, a₂.kernel.device.clients (client fd) = some x ∧ ¬ x.Limited size ∧
        (second.1 = none → a₂.kernel.turn.refused ≠ none ∨ x.nextHandle = 0 ∨
          a₂.kernel.next.mem.os.faults < second.2.kernel.device.mem.os.faults) := by
  generalize hc : a.createBuffer (Driver.ioctl client) fd size = c at hrefused hclosed ⊢
  obtain ⟨r, a₁⟩ := c
  obtain rfl : r = none := hrefused
  obtain ⟨C₁, hb₁, ht₁, ha₁, -⟩ := createBuffer_coherent C hc
  have hloop := @reclaimLoop_coherent client fd a₁ size kReclaimBatch (a₁.buffers.length + 1) 0 0 C₁
    (Nat.lt_succ_of_le List.countP_le_length)
  dsimp only at hclosed hloop ⊢
  generalize hr : a₁.reclaim (Driver.ioctl client) fd size kReclaimBatch = res at hclosed ⊢
  rw [show reclaimLoop _ _ _ _ _ _ _ _ = res from hr] at hloop
  obtain ⟨freed, a₂⟩ := res
  obtain ⟨C₂, -, ⟨key, t, htrace⟩ | ⟨f, hf0, -, hlt, ha₂, hslot, henough⟩⟩ := hloop
  · refine absurd List.mem_cons_self (hclosed (.close key false :: t) ?_ key)
    rw [htrace, ht₁]
    rfl
  have hf : size ≤ f := by
    rcases henough with ⟨-, h⟩ | h
    · exact Nat.zero_add f ▸ h
    · rw [h, hb₁]
      exact hbytes
  have hfreed := hlt (Nat.ne_of_gt (Nat.lt_of_lt_of_le hpos hf))
  obtain ⟨x, hx, ⟨i, hi, hfree⟩, hgate⟩ := hslot (.inl hfreed)
  have hle := C₁.driver.allocated_le
  rw [Device.allocated_of_client hx] at ha₂
  have hlimit : ¬ x.Limited size := by
    rintro (h | h)
    · unfold kClientMemoryLimit at hle h
      have hround := pageRound_le hf hf0 (by omega)
      rw [sub64_of_le (by omega) (by omega)] at h
      omega
    · exact h i hi hfree
  refine ⟨C₂, ?_, x, hx, hlimit, fun hnone => ?_⟩
  · exact gemCreate_again hc hr (Nat.ne_of_gt hfreed)
  · generalize hc₂ : a₂.createBuffer (Driver.ioctl client) fd size = c at hnone ⊢
    obtain ⟨r, a₃⟩ := c
    obtain rfl : r = none := hnone
    obtain ⟨-, -, -, -, e, hk⟩ := createBuffer_coherent C₂ hc₂
    exact Driver.ioctl_createBuffer_error C₂.driver rfl hpos hmax hx hlimit hgate hk

/-- The client after its first buffer has been made and marked. -/
def marked : Adapter Driver :=
  Run.exec (fun call a => (ioctl (Driver.ioctl fun _ => 0) 3 call a).2)
    (start ⟨opened, fun _ => ⟨[], none, .unfailing⟩, 0⟩) [.gemCreate 4096, .gemMadvise 1 true]

theorem marked_filled : Filled marked 1 := by
  have hx : (marked.kernel.device.clients 0).any (fun x => x.native.isNone && x.nextHandle == 2 &&
      x.allocated == 4096 &&
      (List.range kMaxBuffers).all fun i => (x.buffers i).isNone == decide (1 ≤ i)) = true := by
    decide +kernel
  have hlive : marked.kernel.device.mem.os.live.all (· < 65 * 4096) = true := by
    decide +kernel
  have hb : marked.buffers = [((3, 1), ⟨some 22, 4096, 0, 0, true, false, 1⟩)] := by
    decide +kernel
  obtain ⟨x, hx, h⟩ := (Option.any_eq_true _ _).mp hx
  simp only [Bool.and_eq_true, Option.isNone_iff_eq_none, beq_iff_eq, List.all_eq_true,
    List.mem_range] at h
  obtain ⟨⟨⟨hnative, hnext⟩, hallocated⟩, hslots⟩ := h
  refine ⟨fun _ => rfl, ⟨x, hx, hnative, hnext, hallocated, fun i hi => ?_, fun p hp => ?_⟩, ?_, ?_⟩
  · change x.buffers i = none ↔ 1 ≤ i
    rw [← Option.isNone_iff_eq_none, hslots i hi, decide_eq_true_iff]
  · exact of_decide_eq_true (List.all_eq_true.mp hlive p hp)
  · rw [hb]
    intro e he _
    rw [List.mem_singleton.mp he]
  · rw [hb]
    exact ⟨_, List.mem_singleton_self _, rfl, rfl⟩

/-- The same client, once it has taken all its slots. -/
def full : Adapter Driver :=
  Run.exec (fun call a => (ioctl (Driver.ioctl fun _ => 0) 3 call a).2) marked
    (List.replicate 255 (.gemCreate 4096))

theorem full_filled : Driven (fun _ => 0) 3 full ∧ Filled full kMaxBuffers := by
  obtain ⟨O, hnew⟩ := @opened_new (fun _ => ⟨[], none, .unfailing⟩) fun _ => rfl
  have D : Driven (fun _ => 0) 3 marked := .exec (.start O hnew) _
  exact ⟨D.exec _, marked_filled.exec D Nat.one_pos (Nat.le_refl 256)⟩

theorem gemCreate_recovers_full :
    let K := Driver.ioctl fun _ => 0
    let a₂ := ((full.createBuffer K 3 4096).2.reclaim K 3 4096 kReclaimBatch).2
    (∃ x, full.kernel.device.clients 0 = some x ∧ x.Limited 4096) ∧
      ∃ x, a₂.kernel.device.clients 0 = some x ∧ ¬ x.Limited 4096 := by
  obtain ⟨D, F⟩ := full_filled
  generalize full = a at D F
  obtain ⟨x, hx, S⟩ := F.client
  obtain ⟨a₁, hc, F₁⟩ := F.refused D.toCoherent 4096
  obtain ⟨C₁, -, ht, -⟩ := createBuffer_coherent D.toCoherent hc
  refine ⟨⟨x, hx, .inr fun i hi hn => Nat.not_le_of_lt hi ((S.slots i hi).mp hn)⟩, ?_⟩
  have hbytes : 4096 ≤ cachedBytes 3 a.buffers := by
    obtain ⟨bo, hbo, hcached, hsize⟩ := F.first
    rw [cachedBytes, ← hsize]
    exact List.le_sum_of_mem (List.mem_map_of_mem (List.mem_filter.mpr ⟨hbo, hcached⟩))
  obtain ⟨-, -, x, hx, hlimit, -⟩ := gemCreate_recovers D.toCoherent (by decide) (by decide)
    (congrArg Prod.fst hc) hbytes fun t h key hin => by
      rw [hc] at h
      rcases F₁.reclaimed C₁ 4096 kReclaimBatch with hr | hr
      · rw [h, ht] at hr
        rw [List.append_left_eq_self.mp hr] at hin
        cases hin
      · rw [h, ht, ← List.singleton_append] at hr
        rw [List.append_cancel_right hr] at hin
        cases List.mem_singleton.mp hin
  exact ⟨x, hx, hlimit⟩

end Winsys
end IntelGfx
