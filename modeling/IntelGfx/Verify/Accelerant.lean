import IntelGfx.Display.Engine
import IntelGfx.Theory.RingQueue

/-!
# The ring of the accelerant is a queue

As long as `MakeSpace` neither gives up nor hands out all the space that it knows of, the hardware
takes the words of the commands in the order in which they were put, each of them once and none
before it has been written (`run_queued`). A ring that is filled to the last word looks empty.
-/

namespace IntelGfx

namespace Accelerant
open RingQueue

variable {n k : Nat} {s s' : State} {a : Action}

/-- The number of words of a command that are still to be written. -/
def Place.rest : Place → Nat
  | .write data => data.length
  | .outside | .queue | .makeSpace _ => 0

/-- The words of a command that has been put which are still to be written. -/
def Place.pending : Place → List Word
  | .makeSpace data | .write data => data
  | .outside | .queue => []

/-- What is put is as `MakeSpace` asserts. -/
def Action.Even : Action → Prop
  | .put data => data.length % 2 = 0 ∧ data.length < 2 ^ 30
  | _ => True

/-- The commands that are put are those of the calls. -/
def OfCalls (actions : List Action) : Prop := ∀ data, .put data ∈ actions →
  ∃ (shared : SharedInfo) (foreground padding : Word) (call : Call),
    data ∈ call.puts shared foreground padding

namespace State

/-- The words of the command that an action puts, which it does between two commands only. -/
def put (s : State) : Action → List Word
  | .put data => match s.place with
    | .queue => data
    | _ => []
  | _ => []

/-- The words of the commands that are put in a run, in their order. -/
def puts (s : State) : List Action → List Word
  | [] => []
  | a :: actions => s.put a ++ puts (State.step a s) actions

/-- `MakeSpace` does not give up, and it does not hand out all the space that it knows of. -/
def Roomy (s : State) : Action → Prop
  | .makeSpace stalled => ∀ data, s.place = .makeSpace data →
    spaceFor data ≠ s.ring.spaceLeft ∧ (s.ring.spaceLeft < spaceFor data → stalled = true →
      spaceFor data ≤ (s.ring.lookAt s.head).spaceLeft)
  | _ => True

/-- Of the `n` words of the ring `used` wait behind the head, of which the tail tells the hardware
the first `published`. -/
structure Fits (n h used published : Nat) (s : State) : Prop where
  size : s.ring.size = 4 * n
  head : s.head = 4 * h
  head_lt : h < n
  position : s.ring.position = 4 * ((h + used) % n)
  tail : s.tail = 4 * ((h + published) % n)
  published_le : published ≤ used
  outside : s.place = .outside → published = used
  space_pos : 0 < s.ring.spaceLeft
  space : s.ring.spaceLeft + 4 * (s.place.rest + used) ≤ 4 * n
  even : (s.ring.position / 4 + s.place.rest) % 2 = 0
  puts : ∀ data, s.place = .makeSpace data → data.length % 2 = 0 ∧ data.length < 2 ^ 30
  content : s.taken ++ items (fun i => s.ring.base (4 * i)) n h used = s.written

/-- What is written and not taken yet fits into the ring. -/
def Queued (n : Nat) (s : State) : Prop := ∃ h used published, Fits n h used published s

end State

/-! ## The arithmetic of the ring -/

theorem and_headMask {h : Nat} (hh : h < 2 ^ 19) :
    4 * h &&& INTEL_RING_BUFFER_HEAD_MASK = 4 * h := by
  have hmask : INTEL_RING_BUFFER_HEAD_MASK = (2 ^ 19 - 1) <<< 2 := rfl
  rw [hmask, Nat.mul_comm, show h * 4 = h <<< 2 from (Nat.shiftLeft_eq h 2).symm,
    ← Nat.shiftLeft_and_distrib, Nat.and_two_pow_sub_one_eq_mod, Nat.mod_eq_of_lt hh]

/-- The next position. -/
theorem next_position {p : Nat} (hn : n = 2 ^ k) (hk : k ≤ 19) (hp : p < n) :
    (4 * p + 4) % 2 ^ 32 &&& (4 * n - 1) = 4 * ((p + 1) % n) := by
  have hle : n ≤ 2 ^ 19 := hn ▸ Nat.pow_le_pow_right (by decide) hk
  have hsize : 4 * n = 2 ^ (k + 2) := by rw [hn, Nat.pow_add, Nat.mul_comm]
  rw [Nat.mod_eq_of_lt (by omega), hsize, Nat.and_two_pow_sub_one_eq_mod, ← hsize,
    show 4 * p + 4 = 4 * (p + 1) by omega, Nat.mul_mod_mul_left]

theorem even_mod {x : Nat} (hn : n % 2 = 0) : x % n % 2 = x % 2 :=
  Nat.mod_mod_of_dvd x (Nat.dvd_of_mod_eq_zero hn)

/-! ## What the steps change -/

theorem State.append_eq (s : State) (data : Word) : ∃ position base,
    s.append data = { s with
      ring := { s.ring with position := position, base := base }
      written := s.written ++ [data] } ∧
    position = (s.ring.position + 4) % 2 ^ 32 &&& (s.ring.size - 1) ∧
    base = Function.update s.ring.base s.ring.position data := ⟨_, _, rfl, rfl, rfl⟩

theorem RingBuffer.lookAt_eq (r : RingBuffer) (head : Nat) : ∃ space,
    r.lookAt head = { r with spaceLeft := space } := ⟨_, rfl⟩

theorem RingBuffer.take_eq (r : RingBuffer) (size : Nat) : ∃ space,
    r.take size = { r with spaceLeft := space } ∧
    space = (r.spaceLeft + 2 ^ 32 - size) % 2 ^ 32 := ⟨_, rfl, rfl⟩

namespace State.Fits
variable {h used published : Nat}

/-- The one that holds the lock goes on, with as many words still to write. -/
theorem goTo (F : Fits n h used published s) {place : Place} (hrest : place.rest = s.place.rest)
    (hout : place = .outside → published = used)
    (hputs : ∀ data, place = .makeSpace data → data.length % 2 = 0 ∧ data.length < 2 ^ 30) :
    Fits n h used published { s with place := place } :=
  ⟨F.size, F.head, F.head_lt, F.position, F.tail, F.published_le, hout, F.space_pos,
    hrest ▸ F.space, hrest ▸ F.even, hputs, F.content⟩

/-- The tail register is told of all the words. -/
theorem publish (F : Fits n h used published s) :
    Fits n h used used { s with tail := s.ring.position } :=
  ⟨F.size, F.head, F.head_lt, F.position, F.position, Nat.le_refl _, fun _ => rfl, F.space_pos,
    F.space, F.even, F.puts, F.content⟩

/-- The space there is behind the words that wait. -/
theorem lookAt (F : Fits n h used published s) (hn : n ≤ 2 ^ 19) :
    (s.ring.lookAt s.head).spaceLeft = 4 * (n - used) := by
  have hlt := F.head_lt
  have hspace := F.space
  have hpos := F.space_pos
  have hmod : (h + used) % n = if h + used < n then h + used else h + used - n := by
    split
    · next hle => exact Nat.mod_eq_of_lt hle
    · next hle =>
      rw [Nat.mod_eq_sub_mod (by omega), Nat.mod_eq_of_lt (by omega)]
  rw [RingBuffer.lookAt, F.head, and_headMask (by omega), F.position, F.size, hmod]
  dsimp only
  split <;> split <;> omega

theorem next (F : Fits n h used published s) (hn : n = 2 ^ k) (hk : k ≤ 19) :
    (s.ring.position + 4) % 2 ^ 32 &&& (s.ring.size - 1) = 4 * ((h + (used + 1)) % n) := by
  have hpos : 0 < n := Nat.zero_lt_of_lt F.head_lt
  rw [F.position, F.size, next_position hn hk (Nat.mod_lt _ hpos), Nat.mod_add_mod, Nat.add_assoc]

/-- A word of a command is written. -/
theorem append (F : Fits n h used published s) (hn : n = 2 ^ k) (h1 : 1 ≤ k) (hk : k ≤ 19)
    {data : Word} {rest : List Word} (hplace : s.place = .write (data :: rest)) :
    Fits n h (used + 1) published { s.append data with place := .write rest } := by
  have hspace := F.space
  have hpos := F.space_pos
  have heven := F.even
  have hn2 : n % 2 = 0 := by
    rw [hn, ← Nat.sub_add_cancel h1, Nat.pow_succ, Nat.mul_mod_left]
  rw [F.position, hplace] at heven
  rw [hplace] at hspace
  simp only [Place.rest, List.length_cons] at hspace heven
  obtain ⟨position, base, hs, hposition, hbase⟩ := s.append_eq data
  rw [F.next hn hk] at hposition
  rw [hs]
  refine ⟨F.size, F.head, F.head_lt, hposition, F.tail, Nat.le_succ_of_le F.published_le, ?_, hpos,
    ?_, ?_, ?_, ?_⟩
  · intro hout
    cases hout
  · change s.ring.spaceLeft + 4 * (rest.length + (used + 1)) ≤ 4 * n
    omega
  · change (position / 4 + rest.length) % 2 = 0
    rw [hposition, Nat.mul_div_cancel_left _ (by decide), Nat.add_mod, even_mod hn2]
    rw [Nat.mul_div_cancel_left _ (by decide), Nat.add_mod, even_mod hn2] at heven
    omega
  · intro data' hdata
    cases hdata
  · have hupdate : (fun i => base (4 * i)) =
        Function.update (fun i => s.ring.base (4 * i)) ((h + used) % n) data := by
      rw [hbase, F.position]
      exact Function.update_comp_eq_of_injective' s.ring.base
        (fun i j hij => Nat.eq_of_mul_eq_mul_left (by decide : 0 < 4) hij) _ _
    change s.taken ++ items (fun i => base (4 * i)) n h (used + 1) = s.written ++ [data]
    rw [hupdate, items_push (by omega), ← List.append_assoc, F.content]

/-- `MakeSpace` has found enough and leaves some. -/
theorem take (F : Fits n h used published s) {data : List Word} (hplace : s.place = .makeSpace data)
    (hle : spaceFor data ≤ s.ring.spaceLeft) (hne : spaceFor data ≠ s.ring.spaceLeft)
    (hn : n ≤ 2 ^ 19) :
    Fits n h used published
      { s with ring := s.ring.take (spaceFor data), place := .write data } := by
  obtain ⟨heven, hlen⟩ := F.puts data hplace
  have hspace := F.space
  have heven' := F.even
  rw [hplace] at hspace heven'
  simp only [Place.rest, Nat.zero_add, Nat.add_zero] at hspace heven'
  have hfor : spaceFor data = data.length * 4 := Nat.mod_eq_of_lt (by omega)
  obtain ⟨space, hring, heq⟩ := s.ring.take_eq (spaceFor data)
  have htake : space = s.ring.spaceLeft - spaceFor data := by
    rw [heq]
    omega
  rw [hring]
  refine ⟨F.size, F.head, F.head_lt, F.position, F.tail, F.published_le, ?_, ?_, ?_, ?_, ?_,
    F.content⟩
  · intro hout
    cases hout
  · change 0 < space
    omega
  · change space + 4 * (data.length + used) ≤ 4 * n
    omega
  · change (s.ring.position / 4 + data.length) % 2 = 0
    omega
  · intro data' hdata
    cases hdata

/-- What `MakeSpace` sees at the head is the space there is. -/
theorem look (F : Fits n h used published s) {data : List Word} (hplace : s.place = .makeSpace data)
    (hn : n ≤ 2 ^ 19) : Fits n h used published { s with ring := s.ring.lookAt s.head } := by
  have hlook := F.lookAt hn
  have hspace := F.space
  have hpos := F.space_pos
  obtain ⟨space, hring⟩ := s.ring.lookAt_eq s.head
  rw [hring] at hlook ⊢
  change space = 4 * (n - used) at hlook
  refine ⟨F.size, F.head, F.head_lt, F.position, F.tail, F.published_le, F.outside, ?_, ?_, F.even,
    F.puts, F.content⟩
  · change 0 < space
    omega
  · change space + 4 * (s.place.rest + used) ≤ 4 * n
    rw [hplace, Place.rest]
    omega

/-- No command ends between two words that belong together. -/
theorem aligned (F : Fits n h used published s) (hplace : s.place = .queue) :
    ¬ s.ring.position &&& 0x07 ≠ 0 := by
  have heven := F.even
  rw [hplace, Place.rest, Nat.add_zero, F.position] at heven
  rw [not_not, show 0x07 = 2 ^ 3 - 1 from rfl, Nat.and_two_pow_sub_one_eq_mod, F.position]
  omega

/-- The hardware takes a word. -/
theorem fetch (F : Fits n h used published s) (hne : s.head ≠ s.tail) :
    Fits n ((h + 1) % n) (used - 1) (published - 1) { s with
      head := (s.head + 4) % s.ring.size, taken := s.taken ++ [s.ring.base s.head] } := by
  have hlt := F.head_lt
  have hpublished : published ≠ 0 := by
    rintro rfl
    refine hne ?_
    rw [F.head, F.tail, Nat.add_zero, Nat.mod_eq_of_lt hlt]
  have hle := F.published_le
  have hshift (x : Nat) (hx : x ≠ 0) : (h + 1) % n + (x - 1) ≡ h + x [MOD n] := by
    have h₁ : (h + 1) % n + (x - 1) ≡ h + 1 + (x - 1) [MOD n] := (Nat.mod_modEq _ _).add_right _
    rwa [show h + 1 + (x - 1) = h + x by omega] at h₁
  have hspace := F.space
  obtain ⟨used, rfl⟩ : ∃ m, used = m + 1 := ⟨used - 1, by omega⟩
  refine ⟨F.size, ?_, Nat.mod_lt _ (by omega), ?_, ?_, by omega, fun hout => ?_, F.space_pos, ?_,
    F.even, F.puts, ?_⟩
  · change (s.head + 4) % s.ring.size = _
    rw [F.head, F.size, show 4 * h + 4 = 4 * (h + 1) by omega, Nat.mul_mod_mul_left]
  · exact F.position.trans (congrArg (4 * ·) (hshift (used + 1) (by omega)).symm)
  · exact F.tail.trans (congrArg (4 * ·) (hshift published hpublished).symm)
  · rw [F.outside hout]
  · change s.ring.spaceLeft + 4 * (s.place.rest + used) ≤ 4 * n
    omega
  · change s.taken ++ [s.ring.base s.head] ++ items _ n ((h + 1) % n) used = s.written
    rw [← F.content, items_pop, F.head, Nat.mod_eq_of_lt hlt, List.append_assoc,
      List.singleton_append]

/-- What has been written and what is still to be written are the words that have been put. -/
theorem written_step (F : Fits n h used published s) (a : Action) :
    (State.step a s).written ++ (State.step a s).place.pending =
      s.written ++ s.place.pending ++ s.put a := by
  have hsame : s.written ++ s.place.pending = s.written ++ s.place.pending ++ [] :=
    (List.append_nil _).symm
  have hempty (h : s.place.pending = []) :
      s.written ++ [] = s.written ++ s.place.pending ++ [] := by
    rw [h, List.append_nil, List.append_nil]
  cases a with
  | construct =>
    rw [State.step]
    split
    · next hplace => exact hempty (congrArg Place.pending hplace)
    · exact hsame
  | put data =>
    rw [State.step, put]
    cases hplace : s.place with
    | queue => exact (congrArg (· ++ data) (List.append_nil _)).symm
    | outside | makeSpace | write => simpa only [hplace] using hsame
  | makeSpace stalled =>
    rw [State.step]
    split
    · next data hplace =>
      have hwrite : s.written ++ data = s.written ++ s.place.pending ++ [] := by
        rw [hplace, List.append_nil]
        rfl
      obtain ⟨space, hlook⟩ := s.ring.lookAt_eq s.head
      rw [hlook]
      split
      · exact hwrite
      · dsimp only
        split
        · exact hwrite
        · exact hsame
    · exact hsame
  | write =>
    rw [State.step]
    split
    · next hplace => exact hempty (congrArg Place.pending hplace)
    · next data rest hplace =>
      obtain ⟨position, base, hs, -, -⟩ := s.append_eq data
      have hpending : s.place.pending = data :: rest := congrArg Place.pending hplace
      rw [hs, hpending]
      exact (List.append_assoc _ [data] rest).trans (List.append_nil _).symm
    · exact hsame
  | destroy =>
    rw [State.step]
    split
    · next hplace =>
      rw [if_neg (F.aligned hplace)]
      exact hempty (congrArg Place.pending hplace)
    · exact hsame
  | fetch =>
    rw [State.step]
    split
    · exact hsame
    · exact hsame

end State.Fits

namespace State

theorem Queued.step (hn : n = 2 ^ k) (h1 : 1 ≤ k) (hk : k ≤ 19) (Q : Queued n s)
    (hroomy : Roomy s a) (hput : a.Even) : Queued n (State.step a s) := by
  obtain ⟨h, used, published, F⟩ := Q
  have hle : n ≤ 2 ^ 19 := hn ▸ Nat.pow_le_pow_right (by decide) hk
  cases a with
  | construct =>
    rw [State.step]
    split
    · next hplace =>
      have hrest : Place.queue.rest = s.place.rest := by
        rw [hplace]
        rfl
      exact ⟨h, used, published, F.goTo hrest nofun nofun⟩
    · exact ⟨h, used, published, F⟩
  | put data =>
    rw [State.step]
    split
    · next hplace =>
      have hrest : (Place.makeSpace data).rest = s.place.rest := by
        rw [hplace]
        rfl
      refine ⟨h, used, published, F.goTo hrest nofun fun data' hdata => ?_⟩
      cases hdata
      exact hput
    · exact ⟨h, used, published, F⟩
  | makeSpace stalled =>
    rw [State.step]
    split
    · next data hplace =>
      obtain ⟨hne, hstall⟩ := hroomy data hplace
      split
      · next henough => exact ⟨h, used, published, F.take hplace henough hne hle⟩
      · next hless =>
        dsimp only
        rw [if_neg]
        · exact ⟨h, used, published, F.look hplace hle⟩
        · rintro ⟨hlook, hstalled⟩
          have := hstall (Nat.lt_of_not_le hless) hstalled
          omega
    · exact ⟨h, used, published, F⟩
  | write =>
    rw [State.step]
    split
    · next hplace =>
      have hrest : Place.queue.rest = s.place.rest := by
        rw [hplace]
        rfl
      exact ⟨h, used, published, F.goTo hrest nofun nofun⟩
    · next data rest hplace => exact ⟨h, used + 1, published, F.append hn h1 hk hplace⟩
    · exact ⟨h, used, published, F⟩
  | destroy =>
    rw [State.step]
    split
    · next hplace =>
      have hrest : Place.outside.rest = s.place.rest := by
        rw [hplace]
        rfl
      rw [if_neg (F.aligned hplace)]
      exact ⟨h, used, used, F.publish.goTo hrest (fun _ => rfl) nofun⟩
    · exact ⟨h, used, published, F⟩
  | fetch =>
    rw [State.step]
    split
    · exact ⟨h, used, published, F⟩
    · next hne => exact ⟨_, _, _, F.fetch hne⟩

/-- A whole run: what is written are the words that have been put, in their order, but for those of
the last command that are still to be written. -/
theorem Queued.written_exec (hn : n = 2 ^ k) (h1 : 1 ≤ k) (hk : k ≤ 19) (Q : Queued n s)
    {actions : List Action}
    (hsafe : Run.Along State.step (fun s a => Roomy s a ∧ a.Even) s actions) :
    (Run.exec State.step s actions).written ++ (Run.exec State.step s actions).place.pending =
      s.written ++ s.place.pending ++ puts s actions := by
  induction actions generalizing s with
  | nil => simp [puts]
  | cons a actions ih =>
    obtain ⟨⟨hroomy, heven⟩, hrest⟩ := hsafe
    have Q₁ := Q.step hn h1 hk hroomy heven
    obtain ⟨h, used, published, F⟩ := Q
    rw [Run.exec_cons, ih Q₁ hrest, F.written_step, puts, List.append_assoc]

theorem setup_queued (hn : 0 < n) (base : Nat → Word) : Queued n (setup (4 * n) base) := by
  refine ⟨0, 0, 0, rfl, rfl, hn, ?_, ?_, Nat.le_refl _, fun _ => rfl, Nat.mul_pos (by decide) hn,
    Nat.le_refl _, ?_, ?_, rfl⟩
  · simp [setup]
  · simp [setup]
  · simp [setup, Place.rest]
  · intro data hdata
    cases hdata

theorem length_xyCommand {shared : SharedInfo} {opcode : Word} {rop modeBits : BitVec 8}
    {left top right bottom : BitVec 16} :
    (xyCommand shared opcode rop modeBits left top right bottom).length = 5 := rfl

/-- The commands of every call have an even number of words. -/
theorem even_of_mem_puts {shared : SharedInfo} {foreground padding : Word} {call : Call}
    {data : List Word} (h : data ∈ call.puts shared foreground padding) :
    (Action.put data).Even := by
  cases call with
  | screenToScreenBlit params =>
    obtain ⟨p, -, rfl⟩ := List.mem_map.mp h
    simp [Action.Even, sourceBlit, length_xyCommand]
  | fillRectangle color params | invertRectangle params =>
    obtain ⟨p, -, rfl⟩ := List.mem_map.mp h
    simp [Action.Even, colorBlit, length_xyCommand]
  | fillSpan color =>
    obtain rfl := List.mem_singleton.mp h
    simp [Action.Even, setupMonoPattern, length_xyCommand]
  | waitEngineIdle =>
    obtain rfl := List.mem_singleton.mp h
    simp [Action.Even, putFlush]
  | updateOverlay update | showOverlay | hideOverlay =>
    simp only [Call.puts, List.mem_cons, List.not_mem_nil, or_false] at h
    rcases h with rfl | rfl | rfl | rfl | rfl | rfl <;>
      simp [Action.Even, putFlush, putWaitFor, putOverlayFlip]

/-- In a ring of a power of two of words, however the hardware goes on between the steps of those
that put commands: what is written are the words of the commands that have been put, in the order
they were put, but for the end of the last one that is still to be written, and what the hardware
has taken are the first of these. The others that wait are less than the ring holds, and once the
lock is free and the head has reached the tail there are none. -/
theorem run_queued (k : Nat) (h1 : 1 ≤ k) (hk : k ≤ 19) (base : Nat → Word) (actions : List Action)
    (hputs : OfCalls actions)
    (hroomy : Run.Along step Roomy (setup (4 * 2 ^ k) base) actions) :
    (Run.exec step (setup (4 * 2 ^ k) base) actions).written ++
        (Run.exec step (setup (4 * 2 ^ k) base) actions).place.pending =
      puts (setup (4 * 2 ^ k) base) actions ∧
    ∃ waiting, (Run.exec step (setup (4 * 2 ^ k) base) actions).written =
        (Run.exec step (setup (4 * 2 ^ k) base) actions).taken ++ waiting ∧
      waiting.length < 2 ^ k ∧
      ((Run.exec step (setup (4 * 2 ^ k) base) actions).place = .outside →
        (Run.exec step (setup (4 * 2 ^ k) base) actions).head =
          (Run.exec step (setup (4 * 2 ^ k) base) actions).tail → waiting = []) := by
  have hsafe : Run.Along step (fun s a => Roomy s a ∧ a.Even) (setup (4 * 2 ^ k) base) actions := by
    refine hroomy.of_mem fun a ha s hs => ⟨hs, ?_⟩
    cases a with
    | put data =>
      obtain ⟨shared, foreground, padding, call, h⟩ := hputs data ha
      exact even_of_mem_puts h
    | _ => trivial
  have Q : Queued (2 ^ k) (setup (4 * 2 ^ k) base) := setup_queued (Nat.two_pow_pos k) base
  have hwritten := Queued.written_exec rfl h1 hk Q hsafe
  obtain ⟨h, used, published, F⟩ := Run.invariant (I := Queued (2 ^ k))
    (fun _ _ Q hs => Q.step rfl h1 hk hs.1 hs.2) hsafe Q
  refine ⟨hwritten, ?_⟩
  generalize Run.exec step (setup (4 * 2 ^ k) base) actions = s at F
  have hspace := F.space
  have hpos := F.space_pos
  refine ⟨_, F.content.symm, ?_, fun hout heq => ?_⟩
  · rw [length_items]
    omega
  · rw [F.head, F.tail, F.outside hout] at heq
    have hcell : (h + used) % 2 ^ k = (h + 0) % 2 ^ k := by
      rw [Nat.add_zero, Nat.mod_eq_of_lt F.head_lt]
      omega
    rw [cell_inj (by omega) (Nat.two_pow_pos k) hcell, items_zero]

/-- The engine is flushed, and the hardware takes the command. -/
def flushOnce : List Action :=
  [.construct, .put putFlush, .makeSpace false, .write, .write, .write, .destroy, .fetch, .fetch]

theorem run_queued_flushOnce :
    (Run.exec step (setup (4 * 2 ^ 14) fun _ => 0) flushOnce).written ++
        (Run.exec step (setup (4 * 2 ^ 14) fun _ => 0) flushOnce).place.pending =
      puts (setup (4 * 2 ^ 14) fun _ => 0) flushOnce ∧
    ∃ waiting, (Run.exec step (setup (4 * 2 ^ 14) fun _ => 0) flushOnce).written =
        (Run.exec step (setup (4 * 2 ^ 14) fun _ => 0) flushOnce).taken ++ waiting ∧
      waiting.length < 2 ^ 14 ∧
      ((Run.exec step (setup (4 * 2 ^ 14) fun _ => 0) flushOnce).place = .outside →
        (Run.exec step (setup (4 * 2 ^ 14) fun _ => 0) flushOnce).head =
          (Run.exec step (setup (4 * 2 ^ 14) fun _ => 0) flushOnce).tail → waiting = []) := by
  refine run_queued 14 (by decide) (by decide) (fun _ => 0) flushOnce (fun data hdata => ?_)
    ⟨trivial, trivial, ?_, trivial, trivial, trivial, trivial, trivial, trivial, trivial⟩
  · refine ⟨⟨32, 0, 0, 0⟩, 0, 0, .waitEngineIdle, ?_⟩
    simpa [flushOnce, Call.puts] using hdata
  · intro data hdata
    cases hdata
    exact ⟨by decide, fun hless => absurd hless (by decide)⟩

end State

end Accelerant
end IntelGfx
