import Mathlib.Data.Nat.ModEq
import IntelGfx.Kernel.Activity
import IntelGfx.Verify.Accounts

/-!
# What the activity report accounts for

The ticks of a client and those of the contexts it has destroyed are what the hardware has run for
it, but for what the counters have wrapped (`Balanced`). The places of `sClients` are open clients,
each once (`Registered`), so a report that every client of the device found a place for adds them up
by team.
-/

namespace IntelGfx

namespace Activity
variable {s s' : State} {c : Nat} {x : Client}

/-! ## The counters of a context -/

/-- The image was read when it was last saved. -/
def Counters.Saved (y : Counters) : Prop := y.lastTimestamp = y.timestamp ∧ y.timestamp < 2 ^ 32

theorem Counters.zero_saved : Counters.zero.Saved := ⟨rfl, by decide⟩

/-- The difference of the timestamps is the duration, also when the timestamp wraps. -/
theorem Counters.submit_eq {y : Counters} (h : y.Saved) {d : Nat} (hd : d < 2 ^ 32) :
    (y.submit d).2 = d ∧ (y.submit d).1.gpuTicks = (y.gpuTicks + d) % 2 ^ 64 ∧
      (y.submit d).1.Saved := by
  obtain ⟨h₁, h₂⟩ := h
  have he : ((y.timestamp + d) % 2 ^ 32 + 2 ^ 32 - y.lastTimestamp) % 2 ^ 32 = d := by
    rw [h₁]
    omega
  exact ⟨he, congrArg (fun n => (y.gpuTicks + n) % 2 ^ 64) he, rfl, Nat.mod_lt _ (by decide)⟩

/-! ## Conservation -/

/-- What the hardware has run for a client. -/
def spent (c : Nat) : List Event → Nat
  | [] => 0
  | .ran c' duration :: events => (if c' = c then duration else 0) + spent c events
  | .destroyed .. :: events => spent c events

/-- The ticks of the contexts that a client has destroyed. -/
def dropped (c : Nat) : List Event → Nat
  | [] => 0
  | .ran .. :: events => dropped c events
  | .destroyed c' ticks :: events => (if c' = c then ticks else 0) + dropped c events

theorem dropped_eq_zero {events : List Event} :
    dropped c events = 0 ↔ ∀ ticks, .destroyed c ticks ∈ events → ticks = 0 := by
  induction events with
  | nil => exact ⟨fun _ => nofun, fun _ => rfl⟩
  | cons e events ih =>
    cases e with
    | ran => simpa [dropped] using ih
    | destroyed c' ticks =>
      rw [dropped, Nat.add_eq_zero_iff, ih]
      constructor
      · rintro ⟨h₁, h₂⟩ t ht
        rcases List.mem_cons.mp ht with e | ht
        · obtain ⟨rfl, rfl⟩ := Event.destroyed.inj e
          exact (if_pos rfl).symm.trans h₁
        · exact h₂ t ht
      · intro h
        refine ⟨?_, fun t ht => h t (List.mem_cons_of_mem _ ht)⟩
        split
        · rename_i hc
          subst hc
          exact h ticks List.mem_cons_self
        · rfl

/-- The counters of a client. -/
def Client.Has (x : Client) (y : Counters) : Prop :=
  (∃ e, x.engines e = some y) ∨ ∃ n i, x.native = some n ∧ n.contexts i = some y

/-- The counters of a client that is open are what the hardware has run for it, less those of the
contexts it has destroyed and what has been lost by wrapping. Nothing has run for a client that is
still to come. -/
structure Balanced (s : State) : Prop where
  fresh : ∀ c, s.nextClient ≤ c → s.clients c = none ∧ spent c s.trace = 0 ∧ dropped c s.trace = 0
  saved : ∀ {c x y}, s.clients c = some x → x.Has y → y.Saved
  ticks : ∀ {c x}, s.clients c = some x →
    ∃ k, spent c s.trace = x.sum + dropped c s.trace + k * 2 ^ 64
  reported : ∀ {c x}, s.clients c = some x → x.reportedTicks ≤ spent c s.trace

theorem start_balanced : Balanced start := ⟨fun _ _ => ⟨rfl, rfl, rfl⟩, nofun, nofun, nofun⟩

theorem Balanced.gpuTicks_le (B : Balanced s) (h : s.clients c = some x) :
    x.gpuTicks ≤ spent c s.trace := by
  obtain ⟨k, hk⟩ := B.ticks h
  have hle : x.gpuTicks ≤ x.sum := Nat.mod_le _ _
  omega

/-- A counter that has not wrapped tells what has run, if nothing has been dropped. -/
theorem Balanced.gpuTicks_eq_iff (B : Balanced s) (h : s.clients c = some x) :
    x.gpuTicks = spent c s.trace ↔ spent c s.trace < 2 ^ 64 ∧ dropped c s.trace = 0 := by
  obtain ⟨k, hk⟩ := B.ticks h
  rw [Client.gpuTicks]
  omega

theorem Balanced.lt (B : Balanced s) (h : s.clients c = some x) : c < s.nextClient := by
  refine Nat.lt_of_not_le fun hle => ?_
  exact nomatch (B.fresh c hle).1.symm.trans h

/-- One client changes. -/
theorem Balanced.change (B : Balanced s) {x' : Client} (h : s.clients c = some x)
    (hc : s'.clients = Function.update s.clients c (some x')) (hn : s'.nextClient = s.nextClient)
    (hother : ∀ c', c' ≠ c → spent c' s'.trace = spent c' s.trace ∧
      dropped c' s'.trace = dropped c' s.trace)
    (hsaved : ∀ y, x'.Has y → y.Saved)
    (hticks : ∃ k, x.sum + dropped c s.trace + spent c s'.trace =
      x'.sum + dropped c s'.trace + spent c s.trace + k * 2 ^ 64)
    (hreported : x'.reportedTicks = x.reportedTicks)
    (hspent : spent c s.trace ≤ spent c s'.trace) : Balanced s' := by
  have hlt := B.lt h
  refine ⟨fun c' hle => ?_, fun {c' z y} hz hy => ?_, fun {c' z} hz => ?_, fun {c' z} hz => ?_⟩
  · have hne : c' ≠ c := by omega
    rw [hc, Function.update_of_ne hne, (hother c' hne).1, (hother c' hne).2]
    exact B.fresh c' (hn ▸ hle)
  · rw [hc] at hz
    by_cases hne : c' = c
    · subst hne
      rw [Function.update_self] at hz
      obtain rfl := Option.some.inj hz
      exact hsaved y hy
    · rw [Function.update_of_ne hne] at hz
      exact B.saved hz hy
  · rw [hc] at hz
    by_cases hne : c' = c
    · subst hne
      rw [Function.update_self] at hz
      obtain rfl := Option.some.inj hz
      obtain ⟨k, hk⟩ := B.ticks h
      obtain ⟨k', hk'⟩ := hticks
      exact ⟨k + k', by omega⟩
    · rw [Function.update_of_ne hne] at hz
      rw [(hother c' hne).1, (hother c' hne).2]
      exact B.ticks hz
  · rw [hc] at hz
    by_cases hne : c' = c
    · subst hne
      rw [Function.update_self] at hz
      obtain rfl := Option.some.inj hz
      rw [hreported]
      exact Nat.le_trans (B.reported h) hspent
    · rw [Function.update_of_ne hne] at hz
      rw [(hother c' hne).1]
      exact B.reported hz

/-- One of the native contexts changes. -/
theorem Client.sum_native {x' : Client} {n n' : Native} {slot : Nat} {v : Option Counters}
    (h : x.native = some n) (h' : x'.native = some n') (he : x'.engines = x.engines)
    (hslot : slot < kMaxContexts) (hn : n'.contexts = Function.update n.contexts slot v) :
    x'.sum + (n.contexts slot).elim 0 (·.gpuTicks) = x.sum + v.elim 0 (·.gpuTicks) := by
  have hsum := @sum_change kMaxContexts slot (fun i => (n.contexts i).elim 0 (·.gpuTicks))
    (fun i => (n'.contexts i).elim 0 (·.gpuTicks)) hslot fun i hi => by
      rw [hn, Function.update_of_ne hi]
  rw [Client.sum, Client.sum, h, h', he]
  simp only [Option.elim_some]
  simp only [hn, Function.update_self] at hsum ⊢
  omega

/-- One is made. -/
theorem Client.sum_new {x' : Client} {n n' : Native} {slot : Nat} (h : x.native = some n)
    (h' : x'.native = some n') (he : x'.engines = x.engines) (hslot : slot < kMaxContexts)
    (hfree : n.contexts slot = none)
    (hn : n'.contexts = Function.update n.contexts slot (some .zero)) :
    x'.sum = x.sum := by
  have hsum := Client.sum_native h h' he hslot hn
  rw [hfree] at hsum
  exact hsum

/-- One has run. -/
theorem Client.sum_run {x' : Client} {n n' : Native} {slot d : Nat} {y y' : Counters}
    (h : x.native = some n) (h' : x'.native = some n') (he : x'.engines = x.engines)
    (hslot : slot < kMaxContexts) (hy : n.contexts slot = some y)
    (hn : n'.contexts = Function.update n.contexts slot (some y'))
    (hd : y'.gpuTicks = (y.gpuTicks + d) % 2 ^ 64) :
    ∃ k, x.sum + d = x'.sum + k * 2 ^ 64 := by
  have hsum := Client.sum_native h h' he hslot hn
  rw [hy, Option.elim_some, Option.elim_some, hd] at hsum
  exact ⟨(y.gpuTicks + d) / 2 ^ 64, by omega⟩

/-! ## The loop of the report -/

/-- What a report takes a client for. -/
def seen (locked : Nat → Bool) (c : Nat) (x : Client) : Client := if locked c then x.update else x

theorem seen_seen (locked : Nat → Bool) (c : Nat) (x : Client) :
    seen locked c (seen locked c x) = seen locked c x := by
  unfold seen
  split
  · rfl
  · rfl

theorem seen_eq (locked : Nat → Bool) (c : Nat) (x : Client) :
    (seen locked c x).native = x.native ∧ (seen locked c x).engines = x.engines ∧
      (seen locked c x).device = x.device ∧ (seen locked c x).team = x.team := by
  unfold seen
  split
  · exact ⟨rfl, rfl, rfl, rfl⟩
  · exact ⟨rfl, rfl, rfl, rfl⟩

theorem seen_ticks (locked : Nat → Bool) (c : Nat) (x : Client) :
    (seen locked c x).reportedTicks = x.reportedTicks ∨
      (seen locked c x).reportedTicks = x.gpuTicks := by
  unfold seen
  split
  · exact .inr rfl
  · exact .inl rfl

/-- The client of a place of `sClients`. -/
def place (locked : Nat → Bool) (s : State) (i : Nat) : Option Client :=
  (s.sClients i).bind fun c => (s.clients c).map (seen locked c)

theorem place_setClient (locked : Nat → Bool) (h : s.clients c = some x) :
    place locked (s.setClient c (seen locked c x)) = place locked s := by
  funext i
  rw [place, place, State.setClient]
  dsimp only
  cases s.sClients i with
  | none => rfl
  | some c' =>
    rw [Option.bind_some, Option.bind_some]
    by_cases hc : c' = c
    · subst hc
      rw [Function.update_self, h, Option.map_some, Option.map_some, seen_seen]
    · rw [Function.update_of_ne hc]

/-- The clients have been updated and nothing else; their contributions are in the entries. -/
theorem reportPlaces_spec {locked : Nat → Bool} {is : List Nat} {entries entries' : List Entry}
    (h : reportPlaces locked is s entries = (entries', s')) :
    (∀ c, s'.clients c = if ∃ i ∈ is, s.sClients i = some c then
      (s.clients c).map (seen locked c) else s.clients c) ∧
      s'.nextClient = s.nextClient ∧ s'.sClients = s.sClients ∧ s'.trace = s.trace ∧
      entries' = (is.filterMap (place locked s)).foldl (fun es x => accumulate x es) entries := by
  induction is generalizing s entries with
  | nil =>
    obtain ⟨rfl, rfl⟩ := Prod.mk.inj h
    exact ⟨fun c => (if_neg (by simp)).symm, rfl, rfl, rfl, rfl⟩
  | cons i is ih =>
    rw [reportPlaces] at h
    cases hi : s.sClients i with
    | none =>
      rw [hi] at h
      obtain ⟨h₁, h₂, h₃, h₄, h₅⟩ := ih h
      refine ⟨fun c => ?_, h₂, h₃, h₄, ?_⟩
      · rw [h₁]
        simp only [List.mem_cons, exists_eq_or_imp, hi, reduceCtorEq, false_or]
      · rw [h₅, List.filterMap_cons_none (by rw [place, hi]; rfl)]
    | some c =>
      rw [hi] at h
      dsimp only at h
      cases hx : s.clients c with
      | none =>
        rw [hx] at h
        obtain ⟨h₁, h₂, h₃, h₄, h₅⟩ := ih h
        refine ⟨fun c' => ?_, h₂, h₃, h₄, ?_⟩
        · rw [h₁]
          simp only [List.mem_cons, exists_eq_or_imp, hi, Option.some.injEq]
          by_cases hc : c = c'
          · subst hc
            simp only [hx, Option.map_none, ite_self]
          · simp only [hc, false_or]
        · rw [h₅, List.filterMap_cons_none (by rw [place, hi, Option.bind_some, hx]; rfl)]
      | some x =>
        rw [hx] at h
        change reportPlaces locked is (s.setClient c (seen locked c x))
          (accumulate (seen locked c x) entries) = _ at h
        obtain ⟨h₁, h₂, h₃, h₄, h₅⟩ := ih h
        have hp : place locked s i = some (seen locked c x) := by
          rw [place, hi, Option.bind_some, hx]
          rfl
        refine ⟨fun c' => ?_, h₂, h₃, h₄, ?_⟩
        · rw [h₁]
          simp only [List.mem_cons, exists_eq_or_imp, hi, Option.some.injEq]
          by_cases hc : c = c'
          · subst hc
            simp only [State.setClient, Function.update_self, hx, Option.map_some, seen_seen,
              ite_self, true_or, if_true]
          · simp only [State.setClient, Function.update_of_ne (Ne.symm hc), hc, false_or]
        · rw [h₅, place_setClient locked hx, List.filterMap_cons_some hp, List.foldl_cons]

/-! ## Every step keeps the balance -/

/-- A client changes, and nothing has run. -/
theorem Balanced.setClient (B : Balanced s) {x' : Client} (h : s.clients c = some x)
    (hsaved : ∀ y, x'.Has y → y.Saved) (hticks : x'.sum = x.sum)
    (hreported : x'.reportedTicks = x.reportedTicks) : Balanced (s.setClient c x') :=
  B.change h rfl rfl (fun _ _ => ⟨rfl, rfl⟩) hsaved
    ⟨0, by rw [hticks, Nat.zero_mul]; rfl⟩ hreported (Nat.le_refl _)

theorem Balanced.openClient (B : Balanced s) (device : Nat) (team : Int)
    (engines : EngineId → Bool) : Balanced (s.openClient device team engines) := by
  obtain ⟨hn, hspent, hdropped⟩ := B.fresh _ (Nat.le_refl _)
  refine ⟨fun c hc => ?_, fun {c x y} hx hy => ?_, fun {c x} hx => ?_, fun {c x} hx => ?_⟩
  · have hc : s.nextClient + 1 ≤ c := hc
    obtain ⟨h₁, h₂⟩ := B.fresh c (by omega)
    refine ⟨?_, h₂⟩
    rw [State.openClient]
    dsimp only
    rw [Function.update_of_ne (by omega), h₁]
  · rw [State.openClient] at hx
    dsimp only at hx
    by_cases hc : c = s.nextClient
    · subst hc
      rw [Function.update_self] at hx
      obtain rfl := Option.some.inj hx
      rcases hy with ⟨e, he⟩ | ⟨n, i, hn, -⟩
      · dsimp only at he
        split at he
        · obtain rfl := Option.some.inj he
          exact Counters.zero_saved
        · exact nomatch he
      · exact nomatch hn
    · rw [Function.update_of_ne hc] at hx
      exact B.saved hx hy
  · rw [State.openClient] at hx ⊢
    dsimp only at hx ⊢
    by_cases hc : c = s.nextClient
    · subst hc
      rw [Function.update_self] at hx
      obtain rfl := Option.some.inj hx
      refine ⟨0, ?_⟩
      rw [hspent, hdropped, Client.sum]
      dsimp only [Option.elim_none]
      have h0 (b : Bool) : (if b then some Counters.zero else none).elim 0 (·.gpuTicks) = 0 := by
        cases b
        · rfl
        · rfl
      rw [h0, h0, Nat.zero_mul]
    · rw [Function.update_of_ne hc] at hx
      exact B.ticks hx
  · rw [State.openClient] at hx ⊢
    dsimp only at hx ⊢
    by_cases hc : c = s.nextClient
    · subst hc
      rw [Function.update_self] at hx
      obtain rfl := Option.some.inj hx
      exact Nat.zero_le _
    · rw [Function.update_of_ne hc] at hx
      exact B.reported hx

theorem Balanced.closeClient (B : Balanced s) (c : Nat) : Balanced (s.closeClient c) := by
  rw [State.closeClient]
  cases hc : s.clients c with
  | none => exact B
  | some x =>
    have hsome {c' : Nat} {z : Client} (hz : Function.update s.clients c none c' = some z) :
        s.clients c' = some z := by
      by_cases hne : c' = c
      · subst hne
        rw [Function.update_self] at hz
        exact nomatch hz
      · rwa [Function.update_of_ne hne] at hz
    have B' : Balanced { s with
        sClients := fun i => if s.sClients i = some c then none else s.sClients i
        clients := Function.update s.clients c none } := by
      refine ⟨fun c' hle => ?_, fun hz hy => B.saved (hsome hz) hy, fun hz => B.ticks (hsome hz),
        fun hz => B.reported (hsome hz)⟩
      obtain ⟨h₁, h₂⟩ := B.fresh c' hle
      refine ⟨?_, h₂⟩
      cases hz : Function.update s.clients c none c' with
      | none => exact hz
      | some z => exact nomatch (hsome hz).symm.trans h₁
    dsimp only
    split
    · exact B'
    · exact ⟨B'.fresh, B'.saved, B'.ticks, B'.reported⟩

theorem Balanced.createContext (B : Balanced s) (c : Nat) (vm made copied : Bool) :
    Balanced (s.createContext c vm made copied) := by
  rw [State.createContext]
  cases hc : s.clients c with
  | none => exact B
  | some x =>
    dsimp only
    split
    · exact B
    have hzero : (∑ i ∈ Finset.range kMaxContexts,
        (Native.new.contexts i).elim 0 (·.gpuTicks)) = 0 :=
      Finset.sum_eq_zero fun _ _ => rfl
    -- a native state that has just been made has no contexts
    have hget : ({ x with native := some (x.native.getD .new) } : Client).sum = x.sum := by
      rw [Client.sum, Client.sum]
      cases x.native with
      | none => exact congrArg (· + _) hzero
      | some n => rfl
    have hhas {y : Counters} {i : Nat} (hi : (x.native.getD .new).contexts i = some y) :
        y.Saved := by
      cases hn : x.native with
      | none =>
        rw [hn] at hi
        exact nomatch hi
      | some n =>
        rw [hn] at hi
        exact B.saved hc (.inr ⟨n, i, hn, hi⟩)
    have hsaved {n : Native} (hn : n.contexts = (x.native.getD .new).contexts) :
        ∀ y, ({ x with native := some n } : Client).Has y → y.Saved := by
      rintro y (⟨e, he⟩ | ⟨n', i, hn', hi⟩)
      · exact B.saved hc (.inl ⟨e, he⟩)
      · obtain rfl := Option.some.inj hn'
        rw [hn] at hi
        exact hhas hi
    have B₁ := B.setClient hc (hsaved rfl) hget rfl
    have hc₁ : (s.setClient c { x with native := some (x.native.getD .new) }).clients c =
        some { x with native := some (x.native.getD .new) } := Function.update_self ..
    split
    · exact B₁
    rename_i slot hslot
    split
    · exact B₁
    split
    · exact B₁.setClient hc₁ (hsaved rfl) rfl rfl
    · have hlt : slot < kMaxContexts := List.mem_range.mp (List.mem_of_find?_eq_some hslot)
      have hfree := List.find?_some hslot
      rw [Option.isNone_iff_eq_none] at hfree
      refine B₁.setClient hc₁ ?_ ?_ rfl
      · rintro y (⟨e, he⟩ | ⟨n', i, hn', hi⟩)
        · exact B.saved hc (.inl ⟨e, he⟩)
        · obtain rfl := Option.some.inj hn'
          dsimp only at hi
          by_cases his : i = slot
          · subst his
            rw [Function.update_self] at hi
            obtain rfl := Option.some.inj hi
            exact Counters.zero_saved
          · rw [Function.update_of_ne his] at hi
            exact hhas hi
      · exact Client.sum_new rfl rfl rfl hlt hfree rfl

theorem Balanced.destroyContext (B : Balanced s) (c context : Nat) :
    Balanced (s.destroyContext c context) := by
  rw [State.destroyContext]
  cases hc : s.clients c with
  | none => exact B
  | some x =>
    cases hn : x.native with
    | none =>
      dsimp only
      rw [hn]
      exact B
    | some n =>
      dsimp only
      rw [hn]
      dsimp only
      split
      · exact B
      split
      · exact B
      rename_i slot hslot
      have hlt : slot < kMaxContexts := List.mem_range.mp (List.mem_of_find?_eq_some hslot)
      refine B.change hc rfl rfl (fun c' hne => ⟨rfl, ?_⟩) ?_ ?_ rfl (Nat.le_refl _)
      · rw [dropped, if_neg (Ne.symm hne), Nat.zero_add]
      · rintro y (⟨e, he⟩ | ⟨n', i, hn', hi⟩)
        · exact B.saved hc (.inl ⟨e, he⟩)
        · obtain rfl := Option.some.inj hn'
          dsimp only at hi
          by_cases his : i = slot
          · subst his
            rw [Function.update_self] at hi
            exact nomatch hi
          · rw [Function.update_of_ne his] at hi
            exact B.saved hc (.inr ⟨n, i, hn, hi⟩)
      · have hsum : ({ x with native := some { n with
            contexts := Function.update n.contexts slot none
            ids := Function.update n.ids slot 0 } } : Client).sum +
            (n.contexts slot).elim 0 (·.gpuTicks) =
            x.sum + (none : Option Counters).elim 0 (·.gpuTicks) :=
          Client.sum_native hn rfl rfl hlt rfl
        rw [Option.elim_none, Nat.add_zero] at hsum
        refine ⟨0, ?_⟩
        rw [dropped, if_pos rfl, spent, ← hsum]
        omega

/-- A submission has succeeded on one of the client's contexts. -/
theorem Balanced.ran (B : Balanced s) {x' : Client} {duration elapsed device : Nat} {e : EngineId}
    (h : s.clients c = some x) (hsaved : ∀ y, x'.Has y → y.Saved)
    (hticks : ∃ k, x.sum + duration = x'.sum + k * 2 ^ 64)
    (hreported : x'.reportedTicks = x.reportedTicks) :
    Balanced ((s.setClient c x').ran c device e duration elapsed) := by
  refine B.change h rfl rfl (fun c' hne => ⟨?_, rfl⟩) hsaved ?_ hreported (Nat.le_add_left _ _)
  · change spent c' (.ran c duration :: s.trace) = _
    rw [spent, if_neg (Ne.symm hne), Nat.zero_add]
  · obtain ⟨k, hk⟩ := hticks
    refine ⟨k, ?_⟩
    change _ + spent c (.ran c duration :: s.trace) =
      x'.sum + dropped c (.ran c duration :: s.trace) + _ + _
    rw [spent, if_pos rfl, dropped]
    omega

theorem Balanced.submit (B : Balanced s) (c : Nat) (e : EngineId) {duration : Nat}
    (hd : duration < 2 ^ 32) : Balanced (s.submit c e duration) := by
  rw [State.submit]
  cases hc : s.clients c with
  | none => exact B
  | some x =>
    cases he : x.engines e with
    | none =>
      dsimp only
      rw [he]
      exact B
    | some y =>
      obtain ⟨-, hticks, hsaved⟩ := Counters.submit_eq (B.saved hc (.inl ⟨e, he⟩)) hd
      dsimp only
      rw [he]
      dsimp only
      generalize y.submit duration = r at hticks hsaved ⊢
      obtain ⟨y', elapsed⟩ := r
      have hticks : y'.gpuTicks = (y.gpuTicks + duration) % 2 ^ 64 := hticks
      refine B.ran hc ?_ ?_ rfl
      · rintro z (⟨e', hz⟩ | hz)
        · dsimp only at hz
          by_cases hee : e' = e
          · subst hee
            rw [Function.update_self] at hz
            obtain rfl := Option.some.inj hz
            exact hsaved
          · rw [Function.update_of_ne hee] at hz
            exact B.saved hc (.inl ⟨e', hz⟩)
        · exact B.saved hc (.inr hz)
      · refine ⟨(y.gpuTicks + duration) / 2 ^ 64, ?_⟩
        rw [Client.sum, Client.sum]
        dsimp only
        cases e with
        | blitter =>
          rw [Function.update_self, Function.update_of_ne (by simp), he]
          simp only [Option.elim_some, hticks]
          omega
        | render =>
          rw [Function.update_self, Function.update_of_ne (by simp), he]
          simp only [Option.elim_some, hticks]
          omega

theorem Balanced.submitObjects (B : Balanced s) (c context : Nat) {duration : Nat}
    (hd : duration < 2 ^ 32) : Balanced (s.submitObjects c context duration) := by
  rw [State.submitObjects]
  cases hc : s.clients c with
  | none => exact B
  | some x =>
    cases hn : x.native with
    | none =>
      dsimp only
      rw [hn]
      exact B
    | some n =>
      dsimp only
      rw [hn]
      dsimp only
      split
      · exact B
      split
      · exact B
      rename_i slot hslot
      have hlt : slot < kMaxContexts :=
        List.mem_range.mp (List.mem_reverse.mp (List.mem_of_find?_eq_some hslot))
      cases hy : n.contexts slot with
      | none => exact B
      | some y =>
        obtain ⟨-, hticks, hsaved⟩ := Counters.submit_eq (B.saved hc (.inr ⟨n, slot, hn, hy⟩)) hd
        dsimp only
        generalize y.submit duration = r at hticks hsaved ⊢
        obtain ⟨y', elapsed⟩ := r
        have hticks : y'.gpuTicks = (y.gpuTicks + duration) % 2 ^ 64 := hticks
        refine B.ran hc ?_ ?_ rfl
        · rintro z (⟨e, he⟩ | ⟨n', i, hn', hi⟩)
          · exact B.saved hc (.inl ⟨e, he⟩)
          · obtain rfl := Option.some.inj hn'
            dsimp only at hi
            by_cases his : i = slot
            · subst his
              rw [Function.update_self] at hi
              obtain rfl := Option.some.inj hi
              exact hsaved
            · rw [Function.update_of_ne his] at hi
              exact B.saved hc (.inr ⟨n, i, hn, hi⟩)
        · exact Client.sum_run hn rfl rfl hlt hy rfl hticks

theorem Balanced.reportPlaces (B : Balanced s) {locked : Nat → Bool} {is : List Nat}
    {entries entries' : List Entry}
    (h : Activity.reportPlaces locked is s entries = (entries', s')) : Balanced s' := by
  obtain ⟨h₁, h₂, -, h₄, -⟩ := reportPlaces_spec h
  have hsome {c : Nat} {z : Client} (hz : s'.clients c = some z) :
      ∃ x, s.clients c = some x ∧ z.native = x.native ∧ z.engines = x.engines ∧
        (z.reportedTicks = x.reportedTicks ∨ z.reportedTicks = x.gpuTicks) := by
    rw [h₁] at hz
    split at hz
    · obtain ⟨x, hx, rfl⟩ := Option.map_eq_some_iff.mp hz
      obtain ⟨hn, he, -, -⟩ := seen_eq locked c x
      exact ⟨x, hx, hn, he, seen_ticks locked c x⟩
    · exact ⟨z, hz, rfl, rfl, .inl rfl⟩
  refine ⟨fun c hc => ?_, fun {c z y} hz hy => ?_, fun {c z} hz => ?_, fun {c z} hz => ?_⟩
  · rw [h₂] at hc
    obtain ⟨hx, hrest⟩ := B.fresh c hc
    rw [h₄]
    refine ⟨?_, hrest⟩
    rw [h₁, hx, Option.map_none, ite_self]
  · obtain ⟨x, hx, hn, he, -⟩ := hsome hz
    refine B.saved hx ?_
    rw [Client.Has, hn, he] at hy
    exact hy
  · obtain ⟨x, hx, hn, he, -⟩ := hsome hz
    rw [Client.sum, hn, he, h₄]
    exact B.ticks hx
  · obtain ⟨x, hx, -, -, ht | ht⟩ := hsome hz
    · rw [ht, h₄]
      exact B.reported hx
    · rw [ht, h₄]
      exact B.gpuTicks_le hx

/-- What a report that is answered comes from. -/
theorem gpuActivity_ok {answers : Answers} {r : Report}
    (h : gpuActivity c answers s = (.ok r, s')) :
    ∃ x, s.clients c = some x ∧
      reportPlaces answers.locked (List.range kMaxActivityClients) s [] = (r.clients, s') := by
  rw [gpuActivity] at h
  split at h
  · exact nomatch h
  rename_i x hx
  split at h
  · exact nomatch h
  dsimp only at h
  split at h
  · exact nomatch h
  generalize hp : reportPlaces answers.locked (List.range kMaxActivityClients) s [] = p at h
  obtain ⟨entries, s₁⟩ := p
  dsimp only at h
  split at h
  · exact nomatch h
  · obtain ⟨e, rfl⟩ := Prod.mk.inj h
    obtain rfl := Except.ok.inj e
    exact ⟨x, hx, rfl⟩

theorem Balanced.gpuActivity (B : Balanced s) (c : Nat) (answers : Answers) :
    Balanced (gpuActivity c answers s).2 := by
  rw [Activity.gpuActivity]
  split
  · exact B
  split
  · exact B
  dsimp only
  split
  · exact B
  generalize hp : Activity.reportPlaces answers.locked (List.range kMaxActivityClients) s [] = p
  obtain ⟨entries, s₁⟩ := p
  have B₁ := B.reportPlaces hp
  dsimp only
  split
  · exact B₁
  · exact B₁

theorem step_balanced (a : Step) (B : Balanced s) : Balanced (step a s) := by
  cases a with
  | «open» device team engines => exact B.openClient device team engines
  | close c => exact B.closeClient c
  | createContext c vm made copied => exact B.createContext c vm made copied
  | destroyContext c context => exact B.destroyContext c context
  | submit c e duration => exact B.submit c e duration.isLt
  | submitObjects c context duration => exact B.submitObjects c context duration.isLt
  | report c answers => exact B.gpuActivity c answers

/-! ## The places of `sClients` -/

/-- The places hold open clients, each of them once. -/
structure Registered (s : State) : Prop where
  fresh : ∀ c, s.nextClient ≤ c → s.clients c = none
  places : ∀ {i c}, s.sClients i = some c → i < kMaxActivityClients ∧ s.clients c ≠ none
  one : ∀ {i j c}, s.sClients i = some c → s.sClients j = some c → i = j

/-- Every open client has a place. -/
def Complete (s : State) : Prop := ∀ c, s.clients c ≠ none → ∃ i, s.sClients i = some c

/-- The same clients are open, in the same places. -/
structure SameOpen (s s' : State) : Prop where
  nextClient : s'.nextClient = s.nextClient
  sClients : s'.sClients = s.sClients
  clients : ∀ c, s'.clients c = none ↔ s.clients c = none

theorem SameOpen.refl (s : State) : SameOpen s s := ⟨rfl, rfl, fun _ => Iff.rfl⟩

theorem SameOpen.setClient {s₁ : State} (S : SameOpen s s₁) (h : s.clients c = some x)
    (x' : Client) : SameOpen s (s₁.setClient c x') := by
  refine ⟨S.nextClient, S.sClients, fun c' => ?_⟩
  rw [State.setClient]
  dsimp only
  by_cases hc : c' = c
  · subst hc
    rw [Function.update_self, h]
    exact ⟨nofun, nofun⟩
  · rw [Function.update_of_ne hc]
    exact S.clients c'

theorem SameOpen.registered (S : SameOpen s s') (R : Registered s) : Registered s' := by
  refine ⟨fun c hc => ?_, fun {i c} h => ?_, fun {i j c} h h' => ?_⟩
  · rw [S.nextClient] at hc
    exact (S.clients c).mpr (R.fresh c hc)
  · rw [S.sClients] at h
    exact ⟨(R.places h).1, fun hn => (R.places h).2 ((S.clients c).mp hn)⟩
  · rw [S.sClients] at h h'
    exact R.one h h'

theorem SameOpen.complete (S : SameOpen s s') (C : Complete s) : Complete s' := by
  intro c hc
  rw [S.sClients]
  exact C c fun hn => hc ((S.clients c).mpr hn)

theorem createContext_same (s : State) (c : Nat) (vm made copied : Bool) :
    SameOpen s (s.createContext c vm made copied) := by
  rw [State.createContext]
  cases hc : s.clients c with
  | none => exact .refl s
  | some x =>
    have S := (SameOpen.refl s).setClient hc { x with native := some (x.native.getD .new) }
    dsimp only
    split
    · exact .refl s
    split
    · exact S
    split
    · exact S
    split
    · exact S.setClient hc _
    · exact S.setClient hc _

theorem destroyContext_same (s : State) (c context : Nat) :
    SameOpen s (s.destroyContext c context) := by
  rw [State.destroyContext]
  cases hc : s.clients c with
  | none => exact .refl s
  | some x =>
    dsimp only
    split
    · exact .refl s
    split
    · exact .refl s
    split
    · exact .refl s
    · exact ⟨rfl, rfl, ((SameOpen.refl s).setClient hc _).clients⟩

theorem submit_same (s : State) (c : Nat) (e : EngineId) (duration : Nat) :
    SameOpen s (s.submit c e duration) := by
  rw [State.submit]
  cases hc : s.clients c with
  | none => exact .refl s
  | some x =>
    dsimp only
    split
    · exact .refl s
    · exact ⟨rfl, rfl, ((SameOpen.refl s).setClient hc _).clients⟩

theorem submitObjects_same (s : State) (c context duration : Nat) :
    SameOpen s (s.submitObjects c context duration) := by
  rw [State.submitObjects]
  cases hc : s.clients c with
  | none => exact .refl s
  | some x =>
    dsimp only
    split
    · exact .refl s
    split
    · exact .refl s
    split
    · exact .refl s
    split
    · exact .refl s
    · exact ⟨rfl, rfl, ((SameOpen.refl s).setClient hc _).clients⟩

theorem reportPlaces_same {locked : Nat → Bool} {is : List Nat} {entries entries' : List Entry}
    (h : reportPlaces locked is s entries = (entries', s')) : SameOpen s s' := by
  obtain ⟨h₁, h₂, h₃, -, -⟩ := reportPlaces_spec h
  refine ⟨h₂, h₃, fun c => ?_⟩
  rw [h₁]
  split
  · exact Option.map_eq_none_iff
  · exact Iff.rfl

theorem gpuActivity_same (s : State) (c : Nat) (answers : Answers) :
    SameOpen s (gpuActivity c answers s).2 := by
  rw [gpuActivity]
  split
  · exact .refl s
  split
  · exact .refl s
  dsimp only
  split
  · exact .refl s
  generalize hp : reportPlaces answers.locked (List.range kMaxActivityClients) s [] = p
  obtain ⟨entries, s₁⟩ := p
  have S := reportPlaces_same hp
  dsimp only
  split
  · exact S
  · exact S

theorem freePlace_some {i : Nat} (h : s.freePlace = some i) :
    i < kMaxActivityClients ∧ s.sClients i = none := by
  have hfree := List.find?_some h
  rw [Option.isNone_iff_eq_none] at hfree
  exact ⟨List.mem_range.mp (List.mem_of_find?_eq_some h), hfree⟩

theorem Registered.openClient (R : Registered s) (device : Nat) (team : Int)
    (engines : EngineId → Bool) : Registered (s.openClient device team engines) := by
  have hopen {c : Nat} (h : s.clients c ≠ none) :
      (s.openClient device team engines).clients c ≠ none := by
    rw [State.openClient]
    dsimp only
    by_cases hc : c = s.nextClient
    · subst hc
      rw [Function.update_self]
      exact nofun
    · rwa [Function.update_of_ne hc]
  have hnew {i : Nat} : s.sClients i ≠ some s.nextClient :=
    fun h => (R.places h).2 (R.fresh _ (Nat.le_refl _))
  have hplace {i c : Nat} (h : (s.openClient device team engines).sClients i = some c) :
      s.sClients i = some c ∨ s.freePlace = some i ∧ c = s.nextClient := by
    rw [State.openClient] at h
    dsimp only at h
    cases hf : s.freePlace with
    | none =>
      rw [hf] at h
      exact .inl h
    | some j =>
      rw [hf] at h
      dsimp only at h
      by_cases hij : i = j
      · subst hij
        rw [Function.update_self] at h
        exact .inr ⟨rfl, (Option.some.inj h).symm⟩
      · rw [Function.update_of_ne hij] at h
        exact .inl h
  refine ⟨fun c hc => ?_, fun {i c} h => ?_, fun {i j c} h h' => ?_⟩
  · have hc : s.nextClient + 1 ≤ c := hc
    rw [State.openClient]
    dsimp only
    rw [Function.update_of_ne (by omega)]
    exact R.fresh c (by omega)
  · rcases hplace h with h | ⟨hf, rfl⟩
    · exact ⟨(R.places h).1, hopen (R.places h).2⟩
    · refine ⟨(freePlace_some hf).1, ?_⟩
      rw [State.openClient]
      dsimp only
      rw [Function.update_self]
      exact nofun
  · rcases hplace h with h | ⟨hf, rfl⟩ <;> rcases hplace h' with h' | ⟨hf', e⟩
    · exact R.one h h'
    · exact absurd (e ▸ h) hnew
    · exact absurd h' hnew
    · exact Option.some.inj (hf.symm.trans hf')

/-- An open that finds a free place takes it. -/
theorem Complete.openClient (C : Complete s) (device : Nat) (team : Int)
    (engines : EngineId → Bool) (h : s.freePlace ≠ none) :
    Complete (s.openClient device team engines) := by
  obtain ⟨j, hj⟩ := Option.ne_none_iff_exists'.mp h
  have hfree := (freePlace_some hj).2
  intro c hc
  rw [State.openClient] at hc ⊢
  dsimp only at hc ⊢
  rw [hj]
  by_cases hcn : c = s.nextClient
  · subst hcn
    exact ⟨j, Function.update_self ..⟩
  · rw [Function.update_of_ne hcn] at hc
    obtain ⟨i, hi⟩ := C c hc
    refine ⟨i, ?_⟩
    have hne : i ≠ j := by
      rintro rfl
      exact nomatch hfree.symm.trans hi
    exact (Function.update_of_ne hne ..).trans hi

theorem closeClient_eq {x : Client} (h : s.clients c = some x) :
    (s.closeClient c).clients = Function.update s.clients c none ∧
      (s.closeClient c).sClients = (fun i => if s.sClients i = some c then none else s.sClients i) ∧
      (s.closeClient c).nextClient = s.nextClient := by
  rw [State.closeClient, h]
  dsimp only
  split
  · exact ⟨rfl, rfl, rfl⟩
  · exact ⟨rfl, rfl, rfl⟩

theorem Registered.closeClient (R : Registered s) (c : Nat) : Registered (s.closeClient c) := by
  cases hx : s.clients c with
  | none =>
    rw [State.closeClient, hx]
    exact R
  | some x =>
    obtain ⟨h₁, h₂, h₃⟩ := closeClient_eq hx
    have hplace {i c' : Nat} (h : (s.closeClient c).sClients i = some c') :
        s.sClients i = some c' ∧ c' ≠ c := by
      rw [h₂] at h
      dsimp only at h
      split at h
      · exact nomatch h
      · rename_i hne
        exact ⟨h, fun e => hne (e ▸ h)⟩
    refine ⟨fun c' hc => ?_, fun {i c'} h => ?_, fun {i j c'} h h' => ?_⟩
    · rw [h₃] at hc
      rw [h₁]
      by_cases hne : c' = c
      · subst hne
        exact Function.update_self ..
      · exact (Function.update_of_ne hne ..).trans (R.fresh c' hc)
    · obtain ⟨h, hne⟩ := hplace h
      rw [h₁, Function.update_of_ne hne]
      exact R.places h
    · exact R.one (hplace h).1 (hplace h').1

theorem Complete.closeClient (C : Complete s) (c : Nat) : Complete (s.closeClient c) := by
  cases hx : s.clients c with
  | none =>
    rw [State.closeClient, hx]
    exact C
  | some x =>
    obtain ⟨h₁, h₂, -⟩ := closeClient_eq hx
    intro c' hc
    rw [h₁] at hc
    have hne : c' ≠ c := by
      rintro rfl
      exact hc (Function.update_self ..)
    rw [Function.update_of_ne hne] at hc
    obtain ⟨i, hi⟩ := C c' hc
    refine ⟨i, ?_⟩
    rw [h₂]
    dsimp only
    rw [if_neg fun e => hne (Option.some.inj (hi.symm.trans e)), hi]

theorem step_registered (a : Step) (R : Registered s) : Registered (step a s) := by
  cases a with
  | «open» device team engines => exact R.openClient device team engines
  | close c => exact R.closeClient c
  | createContext c vm made copied => exact (createContext_same s c vm made copied).registered R
  | destroyContext c context => exact (destroyContext_same s c context).registered R
  | submit c e duration => exact (submit_same s c e duration).registered R
  | submitObjects c context duration => exact (submitObjects_same s c context duration).registered R
  | report c answers => exact (gpuActivity_same s c answers).registered R

/-! ## The entries of a report -/

theorem accumulate_teams (x : Client) (es : List Entry) :
    (accumulate x es).map (·.team) = if x.team ∈ es.map (·.team) then es.map (·.team) else
      es.map (·.team) ++ [x.team] := by
  induction es with
  | nil => rfl
  | cons e es ih =>
    rw [accumulate]
    by_cases h : e.team = x.team
    · rw [if_pos h, if_pos (by rw [List.map_cons, h]; exact List.mem_cons_self)]
      rfl
    · rw [if_neg h, List.map_cons, ih, List.map_cons]
      by_cases hm : x.team ∈ es.map (·.team)
      · rw [if_pos hm, if_pos (List.mem_cons_of_mem _ hm)]
      · rw [if_neg hm, if_neg, List.cons_append]
        rw [List.mem_cons]
        exact not_or.mpr ⟨Ne.symm h, hm⟩

theorem accumulate_length (x : Client) (es : List Entry) :
    (accumulate x es).length ≤ es.length + 1 := by
  induction es with
  | nil => exact Nat.le_refl _
  | cons e es ih =>
    rw [accumulate]
    split
    · exact Nat.le_succ _
    · exact Nat.succ_le_succ ih

theorem accumulate_lt {x : Client} {es : List Entry} (h : ∀ e ∈ es, e.ticks < 2 ^ 64) :
    ∀ e ∈ accumulate x es, e.ticks < 2 ^ 64 := by
  have hadd (e : Entry) : (e.add x).ticks < 2 ^ 64 := Nat.mod_lt _ (Nat.two_pow_pos 64)
  induction es with
  | nil =>
    intro e he
    obtain rfl := List.mem_singleton.mp he
    exact hadd _
  | cons e' es ih =>
    obtain ⟨hhead, htail⟩ := List.forall_mem_cons.mp h
    rw [accumulate]
    split
    · exact List.forall_mem_cons.mpr ⟨hadd e', htail⟩
    · exact List.forall_mem_cons.mpr ⟨hhead, ih htail⟩

/-- What the entries of a team come to. -/
def sumOf (f : Entry → Nat) (t : Int) (es : List Entry) : Nat :=
  (es.map fun e => if e.team = t then f e else 0).sum

theorem sumOf_mem {f : Entry → Nat} {es : List Entry} (hn : (es.map (·.team)).Nodup) {e : Entry}
    (he : e ∈ es) : sumOf f e.team es = f e := by
  induction es with
  | nil => exact nomatch he
  | cons x es ih =>
    rw [List.map_cons, List.nodup_cons] at hn
    rw [sumOf, List.map_cons, List.sum_cons]
    rcases List.mem_cons.mp he with rfl | he
    · rw [if_pos rfl]
      refine Nat.add_eq_left.mpr (List.sum_eq_zero fun n hn' => ?_)
      obtain ⟨y, hy, rfl⟩ := List.mem_map.mp hn'
      refine if_neg fun e => hn.1 ?_
      exact e ▸ List.mem_map_of_mem hy
    · have hne : x.team ≠ e.team := fun h => hn.1 (h ▸ List.mem_map_of_mem he)
      rw [if_neg hne, Nat.zero_add]
      exact ih hn.2 he

/-- A client adds its part to its team and to no other. -/
theorem sumOf_accumulate {f : Entry → Nat} {g : Client → Nat} {m : Nat}
    (hf : ∀ (e : Entry) (x : Client), f (e.add x) ≡ f e + g x [MOD m])
    (h0 : ∀ t, f ⟨t, 0, 0⟩ = 0) (t : Int) (x : Client) (es : List Entry) :
    sumOf f t (accumulate x es) ≡ sumOf f t es + (if x.team = t then g x else 0) [MOD m] := by
  induction es with
  | nil =>
    change (if x.team = t then f (Entry.add ⟨x.team, 0, 0⟩ x) else 0) + 0 ≡ 0 + _ [MOD m]
    rw [Nat.add_zero, Nat.zero_add]
    split
    · have hx := hf ⟨x.team, 0, 0⟩ x
      rwa [h0, Nat.zero_add] at hx
    · rfl
  | cons e es ih =>
    rw [accumulate]
    split
    · rename_i h
      have hteam : (e.add x).team = e.team := rfl
      simp only [sumOf, List.map_cons, List.sum_cons]
      rw [hteam, ← h, Nat.add_right_comm]
      refine Nat.ModEq.add_right _ ?_
      split
      · exact hf e x
      · rfl
    · simp only [sumOf, List.map_cons, List.sum_cons] at ih ⊢
      rw [Nat.add_assoc]
      exact Nat.ModEq.add_left _ ih

/-- The entries that a list of clients comes to. -/
theorem foldl_accumulate (xs : List Client) (es : List Entry) (hn : (es.map (·.team)).Nodup) :
    let es' := xs.foldl (fun es x => accumulate x es) es
    (es'.map (·.team)).Nodup ∧
      (∀ t, t ∈ es'.map (·.team) ↔ t ∈ es.map (·.team) ∨ ∃ x ∈ xs, x.team = t) ∧
      es'.length ≤ es.length + xs.length := by
  induction xs generalizing es with
  | nil => exact ⟨hn, fun t => by simp, Nat.le_refl _⟩
  | cons x xs ih =>
    have hteams := accumulate_teams x es
    have hn' : ((accumulate x es).map (·.team)).Nodup := by
      rw [hteams]
      split
      · exact hn
      · rename_i h
        refine List.nodup_append.mpr ⟨hn, by simp, fun a ha b hb => ?_⟩
        obtain rfl := List.mem_singleton.mp hb
        rintro rfl
        exact h ha
    obtain ⟨h₁, h₂, h₃⟩ := ih (accumulate x es) hn'
    refine ⟨h₁, fun t => (h₂ t).trans ?_, ?_⟩
    · have hmem : t ∈ (accumulate x es).map (·.team) ↔ t ∈ es.map (·.team) ∨ x.team = t := by
        rw [hteams]
        split
        · rename_i h
          refine ⟨.inl, ?_⟩
          rintro (ht | rfl)
          · exact ht
          · exact h
        · rw [List.mem_append, List.mem_singleton, eq_comm (a := t)]
      rw [hmem, or_assoc]
      simp only [List.mem_cons, exists_eq_or_imp]
    · have hl := accumulate_length x es
      refine Nat.le_trans h₃ ?_
      rw [List.length_cons, Nat.add_comm xs.length, ← Nat.add_assoc]
      exact Nat.add_le_add_right hl _

theorem sumOf_foldl {f : Entry → Nat} {g : Client → Nat} {m : Nat}
    (hf : ∀ (e : Entry) (x : Client), f (e.add x) ≡ f e + g x [MOD m])
    (h0 : ∀ t, f ⟨t, 0, 0⟩ = 0) (t : Int) (xs : List Client) (es : List Entry) :
    sumOf f t (xs.foldl (fun es x => accumulate x es) es) ≡
      sumOf f t es + (xs.map fun x => if x.team = t then g x else 0).sum [MOD m] := by
  induction xs generalizing es with
  | nil => rfl
  | cons x xs ih =>
    rw [List.foldl_cons, List.map_cons, List.sum_cons, ← Nat.add_assoc]
    exact (ih _).trans (Nat.ModEq.add_right _ (sumOf_accumulate hf h0 t x es))

theorem foldl_accumulate_lt (xs : List Client) {es : List Entry} (h : ∀ e ∈ es, e.ticks < 2 ^ 64) :
    ∀ e ∈ xs.foldl (fun es x => accumulate x es) es, e.ticks < 2 ^ 64 := by
  induction xs generalizing es with
  | nil => exact h
  | cons x xs ih => exact ih (accumulate_lt h)

theorem sum_filterMap {α β : Type*} (p : α → Option β) (g : β → Nat) (l : List α) :
    ((l.filterMap p).map g).sum = (l.map fun i => (p i).elim 0 g).sum := by
  induction l with
  | nil => rfl
  | cons i l ih =>
    rw [List.map_cons, List.sum_cons, ← ih]
    cases hp : p i with
    | none =>
      rw [List.filterMap_cons_none hp]
      exact (Nat.zero_add _).symm
    | some y =>
      rw [List.filterMap_cons_some hp]
      rfl

/-- The clients with a place, as they are in `s`. -/
def placed (s : State) : List Client :=
  (List.range kMaxActivityClients).filterMap fun i => (s.sClients i).bind s.clients

/-- The entries of a report come from the clients with a place, as the report leaves them. -/
theorem report_entries {locked : Nat → Bool} {entries : List Entry}
    (h : reportPlaces locked (List.range kMaxActivityClients) s [] = (entries, s')) :
    entries = (placed s').foldl (fun es x => accumulate x es) [] := by
  obtain ⟨h₁, -, h₃, -, h₅⟩ := reportPlaces_spec h
  rw [h₅, placed]
  congr 1
  refine List.filterMap_congr fun i hi => ?_
  rw [place, h₃]
  cases hc : s.sClients i with
  | none => rfl
  | some c => rw [Option.bind_some, Option.bind_some, h₁, if_pos ⟨i, hi, hc⟩]

theorem mem_placed {y : Client} :
    y ∈ placed s ↔ ∃ i < kMaxActivityClients, ∃ c, s.sClients i = some c ∧
    s.clients c = some y := by
  simp only [placed, List.mem_filterMap, List.mem_range, Option.bind_eq_some_iff]

/-- Every team with a place has one entry, which is the sum over its clients with a place. -/
theorem placed_entries {entries : List Entry}
    (h : entries = (placed s).foldl (fun es x => accumulate x es) []) :
    (entries.map (·.team)).Nodup ∧ entries.length ≤ kMaxActivityClients ∧
      (∀ t, t ∈ entries.map (·.team) ↔ ∃ y ∈ placed s, y.team = t) ∧
      (∀ e ∈ entries, e.contexts =
        ((placed s).map fun y => if y.team = e.team then y.reportedContexts else 0).sum) ∧
      ∀ e ∈ entries, e.ticks =
        ((placed s).map fun y => if y.team = e.team then y.reportedTicks else 0).sum % 2 ^ 64 := by
  obtain ⟨hn, hteams, hlen⟩ := foldl_accumulate (placed s) [] List.nodup_nil
  rw [← h] at hn hteams hlen
  have hle : (placed s).length ≤ kMaxActivityClients :=
    Nat.le_trans (List.length_filterMap_le ..) (Nat.le_of_eq List.length_range)
  refine ⟨hn, ?_, fun t => ?_, fun e he => ?_, fun e he => ?_⟩
  · rw [List.length_nil, Nat.zero_add] at hlen
    exact Nat.le_trans hlen hle
  · rw [hteams]
    exact or_iff_right (List.not_mem_nil)
  · have hsum := sumOf_foldl (f := (·.contexts)) (g := (·.reportedContexts)) (m := 0)
      (fun _ _ => rfl) (fun _ => rfl) e.team (placed s) []
    rw [← h, sumOf_mem hn he, Nat.modEq_zero_iff] at hsum
    exact hsum.trans (Nat.zero_add _)
  · have hsum := sumOf_foldl (f := (·.ticks)) (g := (·.reportedTicks)) (m := 2 ^ 64)
      (fun _ _ => Nat.mod_modEq _ _) (fun _ => rfl) e.team (placed s) []
    have hlt : e.ticks < 2 ^ 64 := foldl_accumulate_lt (placed s) (List.forall_mem_nil _) e (h ▸ he)
    rw [← h, sumOf_mem hn he, sumOf, List.map_nil, List.sum_nil, Nat.zero_add] at hsum
    exact (Nat.mod_eq_of_lt hlt).symm.trans hsum

/-! ## The ticks of a client -/

theorem exec_balanced (steps : List Step) : Balanced (Run.exec step start steps) :=
  Run.invariant_of_step (fun _ a B => step_balanced a B) steps start_balanced

theorem exec_registered (steps : List Step) : Registered (Run.exec step start steps) :=
  Run.invariant_of_step (fun _ a R => step_registered a R) steps ⟨fun _ _ => rfl, nofun, nofun⟩

/-- Whatever a client has done: a report that has its lock takes its ticks for what the hardware has
run for it exactly if these are fewer than `2 ^ 64` and no context it has destroyed had run, and
then they have not gone down. The entry of its team adds them up with those of the team's other
clients. -/
theorem exec_conserved (steps : List Step) {c i d : Nat} {x : Client} {answers : Answers}
    {r : Report} {s' : State} (hx : (Run.exec step start steps).clients c = some x)
    (hi : (Run.exec step start steps).sClients i = some c) (hl : answers.locked c)
    (h : gpuActivity d answers (Run.exec step start steps) = (.ok r, s')) :
    ∃ x', s'.clients c = some x' ∧ x' ∈ placed s' ∧ x'.team = x.team ∧
      (∃ e ∈ r.clients, e.team = x.team ∧ e.ticks =
        ((placed s').map fun y => if y.team = x.team then y.reportedTicks else 0).sum % 2 ^ 64) ∧
      (x'.reportedTicks = spent c (Run.exec step start steps).trace ↔
        spent c (Run.exec step start steps).trace < 2 ^ 64 ∧
          ∀ ticks, .destroyed c ticks ∈ (Run.exec step start steps).trace → ticks = 0) ∧
      (spent c (Run.exec step start steps).trace < 2 ^ 64 ∧
          (∀ ticks, .destroyed c ticks ∈ (Run.exec step start steps).trace → ticks = 0) →
        x.reportedTicks ≤ x'.reportedTicks) := by
  have B := exec_balanced steps
  have hlt := (exec_registered steps).places hi |>.1
  generalize Run.exec step start steps = s at hx hi h B ⊢
  obtain ⟨-, -, hp⟩ := gpuActivity_ok h
  obtain ⟨hclients, -, hplaces, -, -⟩ := reportPlaces_spec hp
  have hx' : s'.clients c = some x.update := by
    rw [hclients, if_pos ⟨i, List.mem_range.mpr hlt, hi⟩, hx, Option.map_some, seen, if_pos hl]
  have hmem : x.update ∈ placed s' := mem_placed.mpr ⟨i, hlt, c, hplaces ▸ hi, hx'⟩
  obtain ⟨-, -, hteams, -, hticks⟩ := placed_entries (report_entries hp)
  obtain ⟨e, he, hte⟩ := List.mem_map.mp ((hteams x.team).mpr ⟨_, hmem, rfl⟩)
  refine ⟨_, hx', hmem, rfl, ⟨e, he, hte, hte ▸ hticks e he⟩, ?_, fun hz => ?_⟩
  · rw [← dropped_eq_zero]
    exact B.gpuTicks_eq_iff hx
  · rw [← dropped_eq_zero] at hz
    exact (B.reported hx).trans_eq ((B.gpuTicks_eq_iff hx).mpr hz).symm

/-- A client that has made a context and run it for five ticks. -/
def oneContext : List Step :=
  [.open 0 7 fun _ => true, .createContext 0 true true true, .submitObjects 0 1 5]

/-- Every engine is ready, every client can be locked and every copy works. -/
def Answers.all : Answers := ⟨true, fun _ => true, fun _ => true, true⟩

theorem exec_conserved_oneContext :
    ∃ x', (gpuActivity 0 .all (Run.exec step start oneContext)).2.clients 0 = some x' ∧
      x'.reportedTicks = 5 := by
  have h : gpuActivity 0 .all (Run.exec step start oneContext) =
      (.ok ⟨kGpuTimestampHz, 5, [⟨7, 1, 5⟩]⟩,
        (gpuActivity 0 .all (Run.exec step start oneContext)).2) :=
    Prod.ext (by decide +kernel) rfl
  obtain ⟨x', hx', -, -, -, hiff, -⟩ := exec_conserved oneContext (x := _) (i := 0) rfl rfl rfl h
  refine ⟨x', hx', hiff.mpr ⟨by decide, fun ticks hm => ?_⟩⟩
  have hm : Event.destroyed 0 ticks ∈ [Event.ran 0 5] := hm
  exact nomatch List.mem_singleton.mp hm

/-- The context is destroyed between two reports: the five ticks are gone. -/
theorem not_conserved_destroyContext :
    (gpuActivity 0 .all (Run.exec step start oneContext)).1 =
      .ok ⟨kGpuTimestampHz, 5, [⟨7, 1, 5⟩]⟩ ∧
    (gpuActivity 0 .all (Run.exec step start (oneContext ++ [.destroyContext 0 1]))).1 =
      .ok ⟨kGpuTimestampHz, 5, [⟨7, 0, 0⟩]⟩ ∧
    ¬ ∀ (steps : List Step) (c i d : Nat) (x : Client) (answers : Answers) (r : Report)
        (s' : State),
      (Run.exec step start steps).clients c = some x →
      (Run.exec step start steps).sClients i = some c → answers.locked c →
      gpuActivity d answers (Run.exec step start steps) = (.ok r, s') →
      ∃ x', s'.clients c = some x' ∧
        x'.reportedTicks = spent c (Run.exec step start steps).trace := by
  refine ⟨by decide +kernel, by decide +kernel, fun h => ?_⟩
  have hr : gpuActivity 0 .all (Run.exec step start (oneContext ++ [.destroyContext 0 1])) =
      (.ok ⟨kGpuTimestampHz, 5, [⟨7, 0, 0⟩]⟩,
        (gpuActivity 0 .all (Run.exec step start (oneContext ++ [.destroyContext 0 1]))).2) :=
    Prod.ext (by decide +kernel) rfl
  have h0 : ((gpuActivity 0 .all (Run.exec step start
      (oneContext ++ [.destroyContext 0 1]))).2.clients 0).map (·.reportedTicks) = some 0 := by
    decide +kernel
  obtain ⟨x', hx', ht⟩ := h _ 0 0 0 _ .all _ _ rfl rfl rfl hr
  rw [hx', Option.map_some, ht] at h0
  exact absurd (Option.some.inj h0) (by decide +kernel)

/-! ## The clients of a device -/

/-- What the open clients of a team on a device come to. -/
def total (s : State) (device : Nat) (team : Int) (g : Client → Nat) : Nat :=
  ∑ c ∈ Finset.range s.nextClient, (s.clients c).elim 0 fun x =>
    if x.device = device ∧ x.team = team then g x else 0

/-- The report of a device, made in `s`: every team that has it open, once, and no other, with what
its clients of the device come to. A client that could not be locked counts as it last did. -/
structure Exact (s s' : State) (device : Nat) (locked : Nat → Bool) (r : Report) : Prop where
  once : (r.clients.map (·.team)).Nodup
  teams : ∀ t, t ∈ r.clients.map (·.team) ↔
    ∃ c x, s.clients c = some x ∧ x.device = device ∧ x.team = t
  contexts : ∀ e ∈ r.clients, e.contexts = total s' device e.team (·.reportedContexts)
  ticks : ∀ e ∈ r.clients, e.ticks = total s' device e.team (·.reportedTicks) % 2 ^ 64
  clients : ∀ c x, s.clients c = some x → x.device = device →
    s'.clients c = some (if locked c then x.update else x)
  length : r.clients.length ≤ kMaxActivityClients

/-- `sClients` holds the open clients of the device and no others. -/
def Holds (s : State) (device : Nat) : Prop :=
  ∀ c x, s.clients c = some x → ((∃ i, s.sClients i = some c) ↔ x.device = device)

theorem Complete.holds (C : Complete s) {device : Nat}
    (h : ∀ c x, s.clients c = some x → x.device = device) : Holds s device :=
  fun c x hx => iff_of_true (C c fun hn => nomatch hx.symm.trans hn) (h c x hx)

/-- A client with a place is counted there and nowhere else. -/
theorem sum_of_client (R : Registered s) (f : Nat → Nat)
    (hf : ∀ c, (∀ i, s.sClients i ≠ some c) → f c = 0) (c : Nat) :
    (∑ i ∈ Finset.range kMaxActivityClients, if s.sClients i = some c then f c else 0) = f c := by
  by_cases hc : ∃ i, s.sClients i = some c
  · obtain ⟨j, hj⟩ := hc
    have hother (i : Nat) (hi : i ≠ j) : (if s.sClients i = some c then f c else 0) = 0 :=
      if_neg fun h => hi (R.one h hj)
    refine (Finset.sum_eq_single j (fun i _ => hother i) fun h => ?_).trans (if_pos hj)
    exact absurd (Finset.mem_range.mpr (R.places hj).1) h
  · rw [hf c (not_exists.mp hc)]
    simp only [ite_self, Finset.sum_const_zero]

/-- The clients with a place come to what the clients do, if only they count. -/
theorem sum_placed (R : Registered s) (G : Client → Nat) (f : Nat → Nat)
    (hf : ∀ c, (∀ i, s.sClients i ≠ some c) → f c = 0)
    (hG : ∀ i c, s.sClients i = some c → (s.clients c).elim 0 G = f c) :
    ((placed s).map G).sum = ∑ c ∈ Finset.range s.nextClient, f c := by
  have hplace (i : Nat) : ((s.sClients i).bind s.clients).elim 0 G =
      ∑ c ∈ Finset.range s.nextClient, if s.sClients i = some c then f c else 0 := by
    cases hi : s.sClients i with
    | none => exact (Finset.sum_eq_zero fun c _ => if_neg nofun).symm
    | some c =>
      have hlt : c < s.nextClient := Nat.lt_of_not_le fun h => (R.places hi).2 (R.fresh c h)
      rw [Finset.sum_eq_single c, if_pos rfl, Option.bind_some, hG i c hi]
      · exact fun c' _ hne => if_neg fun e => hne (Option.some.inj e).symm
      · exact fun h => absurd (Finset.mem_range.mpr hlt) h
  calc ((placed s).map G).sum
      = ∑ i ∈ Finset.range kMaxActivityClients, ((s.sClients i).bind s.clients).elim 0 G := by
        rw [placed, sum_filterMap, Finset.sum_eq_multiset_sum]
        rfl
    _ = ∑ i ∈ Finset.range kMaxActivityClients,
          ∑ c ∈ Finset.range s.nextClient, if s.sClients i = some c then f c else 0 :=
        Finset.sum_congr rfl fun i _ => hplace i
    _ = ∑ c ∈ Finset.range s.nextClient, f c := by
        rw [Finset.sum_comm]
        exact Finset.sum_congr rfl fun c _ => sum_of_client R f hf c

/-- If the places hold the clients of the device, their sums are those of the device. -/
theorem Holds.sum {device : Nat} (H : Holds s device) (R : Registered s) (t : Int)
    (g : Client → Nat) :
    ((placed s).map fun y => if y.team = t then g y else 0).sum = total s device t g := by
  refine sum_placed R _ _ (fun c hc => ?_) fun i c hi => ?_
  · cases hx : s.clients c with
    | none => rfl
    | some x =>
      refine if_neg fun h => ?_
      obtain ⟨i, hi⟩ := (H c x hx).mpr h.1
      exact hc i hi
  · cases hx : s.clients c with
    | none => rfl
    | some x =>
      simp only [Option.elim_some, (H c x hx).mp ⟨i, hi⟩, true_and]

/-- That is so on a machine with one device, as long as every open finds a free place. -/
theorem exec_holds {steps : List Step} {device : Nat}
    (H : Run.Along step (fun s a => ∀ d t e, a = .open d t e → s.freePlace ≠ none) start steps)
    (h : ∀ c x, (Run.exec step start steps).clients c = some x → x.device = device) :
    Holds (Run.exec step start steps) device := by
  refine Complete.holds (Run.invariant (fun s a C h => ?_) H fun c h => absurd rfl h) h
  cases a with
  | «open» device team engines => exact C.openClient device team engines (h _ _ _ rfl)
  | close c => exact C.closeClient c
  | createContext c vm made copied => exact (createContext_same s c vm made copied).complete C
  | destroyContext c context => exact (destroyContext_same s c context).complete C
  | submit c e duration => exact (submit_same s c e duration).complete C
  | submitObjects c context duration => exact (submitObjects_same s c context duration).complete C
  | report c answers => exact (gpuActivity_same s c answers).complete C

/-- Whatever has been opened and closed: a report has at most as many entries as there are places,
one for each team; it is that of the device if the places hold the clients of the device. -/
theorem exec_accounts (steps : List Step) {c : Nat} {answers : Answers} {r : Report} {s' : State}
    (h : gpuActivity c answers (Run.exec step start steps) = (.ok r, s')) :
    ∃ x, (Run.exec step start steps).clients c = some x ∧
      r.clients.length ≤ kMaxActivityClients ∧ (r.clients.map (·.team)).Nodup ∧
      (Holds (Run.exec step start steps) x.device →
        Exact (Run.exec step start steps) s' x.device answers.locked r) := by
  have R := exec_registered steps
  generalize Run.exec step start steps = s at h R ⊢
  obtain ⟨x, hx, hp⟩ := gpuActivity_ok h
  obtain ⟨hclients, hnext, hplaces, -, -⟩ := reportPlaces_spec hp
  have S := reportPlaces_same hp
  obtain ⟨hn, hlen, hteams, hcontexts, hticks⟩ := placed_entries (report_entries hp)
  have hsome {c' : Nat} {x' : Client} (hx' : s.clients c' = some x')
      (hi : ∃ i, s.sClients i = some c') :
      s'.clients c' = some (seen answers.locked c' x') := by
    obtain ⟨i, hi⟩ := hi
    rw [hclients, if_pos ⟨i, List.mem_range.mpr (R.places hi).1, hi⟩, hx', Option.map_some]
  refine ⟨x, hx, hlen, hn, fun H => ?_⟩
  -- what a report changes in a client are not its device and its team
  have H' : Holds s' x.device := by
    intro c' y hy
    rw [hplaces]
    rw [hclients] at hy
    split at hy
    · obtain ⟨x', hx', rfl⟩ := Option.map_eq_some_iff.mp hy
      rw [(seen_eq answers.locked c' x').2.2.1]
      exact H c' x' hx'
    · exact H c' y hy
  refine ⟨hn, fun t => ?_, fun e he => ?_, fun e he => ?_, fun c' x' hx' hd => ?_, hlen⟩
  · rw [hteams]
    constructor
    · rintro ⟨y, hy, rfl⟩
      obtain ⟨i, -, c', hi, hy⟩ := mem_placed.mp hy
      obtain ⟨x', hx'⟩ := Option.ne_none_iff_exists'.mp
        fun hc => nomatch hy.symm.trans ((S.clients c').mpr hc)
      rw [hplaces] at hi
      obtain rfl := Option.some.inj ((hsome hx' ⟨i, hi⟩).symm.trans hy)
      exact ⟨c', x', hx', (H c' x' hx').mp ⟨i, hi⟩, (seen_eq answers.locked c' x').2.2.2.symm⟩
    · rintro ⟨c', x', hx', hd, rfl⟩
      obtain ⟨i, hi⟩ := (H c' x' hx').mpr hd
      refine ⟨_, mem_placed.mpr ⟨i, (R.places hi).1, c', hplaces ▸ hi, hsome hx' ⟨i, hi⟩⟩, ?_⟩
      exact (seen_eq answers.locked c' x').2.2.2
  · rw [hcontexts e he]
    exact H'.sum (S.registered R) e.team _
  · rw [hticks e he]
    exact congrArg (· % 2 ^ 64) (H'.sum (S.registered R) e.team _)
  · exact hsome hx' ((H c' x' hx').mpr hd)

theorem exec_accounts_oneContext :
    Exact (Run.exec step start oneContext) (gpuActivity 0 .all (Run.exec step start oneContext)).2 0
      (fun _ => true) ⟨kGpuTimestampHz, 5, [⟨7, 1, 5⟩]⟩ := by
  have hr : gpuActivity 0 .all (Run.exec step start oneContext) =
      (.ok ⟨kGpuTimestampHz, 5, [⟨7, 1, 5⟩]⟩,
        (gpuActivity 0 .all (Run.exec step start oneContext)).2) :=
    Prod.ext (by decide +kernel) rfl
  obtain ⟨y, hy, -, -, h⟩ := exec_accounts oneContext hr
  obtain rfl := Option.some.inj hy
  refine h fun c x hx => ?_
  by_cases hc : c = 0
  · subst hc
    exact iff_of_true ⟨0, rfl⟩ (congrArg Client.device (Option.some.inj hx)).symm
  · refine absurd ((exec_registered oneContext).fresh c ?_) fun hn => nomatch hx.symm.trans hn
    exact Nat.one_le_iff_ne_zero.mpr hc

/-- The clients of the other devices are in the same table, and it has no place for a seventeenth
client of a device. -/
theorem not_accounts_of_places :
    (¬ ∀ (steps : List Step) (c : Nat) (x : Client) (answers : Answers) (r : Report) (s' : State),
      (Run.exec step start steps).clients c = some x →
      gpuActivity c answers (Run.exec step start steps) = (.ok r, s') →
      Exact (Run.exec step start steps) s' x.device answers.locked r) ∧
    ¬ ∀ (n : Nat) (r : Report) (s' : State),
      gpuActivity 0 .all (Run.exec step start
        ((List.range n).map fun i => .open 0 i fun _ => true)) = (.ok r, s') →
      ∀ i < n, (i : Int) ∈ r.clients.map (·.team) := by
  constructor
  · intro h
    let steps : List Step := [.open 0 1 fun _ => true, .open 1 2 fun _ => true]
    have hr : gpuActivity 0 .all (Run.exec step start steps) =
        (.ok ⟨kGpuTimestampHz, 0, [⟨1, 0, 0⟩, ⟨2, 0, 0⟩]⟩,
          (gpuActivity 0 .all (Run.exec step start steps)).2) :=
      Prod.ext (by decide +kernel) rfl
    obtain ⟨c, x, hx, hd, ht⟩ := ((h steps 0 _ .all _ _ rfl hr).teams 2).mp (by simp)
    have hc : c < 2 := Nat.lt_of_not_le fun hle =>
      nomatch hx.symm.trans ((exec_registered steps).fresh c hle)
    match c, hc with
    | 0, _ => exact absurd ((congrArg Client.team (Option.some.inj hx)).trans ht) (by decide)
    | 1, _ => exact absurd ((congrArg Client.device (Option.some.inj hx)).trans hd) (by decide)
  · intro h
    refine absurd (h 17 ⟨kGpuTimestampHz, 0, (List.range 16).map fun (i : Nat) => ⟨i, 0, 0⟩⟩ _
      (Prod.ext (by decide +kernel) (Eq.refl _)) 16 (by decide)) (by decide)

end Activity

end IntelGfx
