import IntelGfx.Mesa.SimpleMtx

/-!
# Mutual exclusion of the simple_mtx

The locked bit is set exactly while a thread is inside, and one thread at most is. Every event but
an error of `_kern_mutex_lock` keeps this: the thread that is sent back with an error goes inside
all the same.
-/

namespace IntelGfx

namespace SimpleMtx
variable {τ : Type*} [DecidableEq τ] {s : State τ} {t u : τ}

namespace State

@[simp] theorem move_self : (s.move t p).place t = p := Function.update_self ..

theorem move_of_ne (h : u ≠ t) : (s.move t p).place u = s.place u := Function.update_of_ne h ..

@[simp] theorem move_isLocked : (s.move t p).isLocked ↔ s.isLocked := Iff.rfl

end State

section word
variable (v : BitVec 32)

theorem or_locked : (v ||| B_USER_MUTEX_LOCKED) &&& B_USER_MUTEX_LOCKED = B_USER_MUTEX_LOCKED := by
  ext i hi
  rw [BitVec.getElem_and, BitVec.getElem_or]
  cases v[i] <;> simp

theorem and_not_locked : (v &&& ~~~B_USER_MUTEX_LOCKED) &&& B_USER_MUTEX_LOCKED = 0 := by
  ext i hi
  simp

theorem or_waiting : (v ||| B_USER_MUTEX_WAITING) &&& B_USER_MUTEX_LOCKED =
    v &&& B_USER_MUTEX_LOCKED := by
  rw [BitVec.and_comm, BitVec.and_or_distrib_left]
  have h : B_USER_MUTEX_LOCKED &&& B_USER_MUTEX_WAITING = 0#32 := by decide
  rw [h, BitVec.or_zero, BitVec.and_comm]

theorem and_not_waiting : (v &&& ~~~B_USER_MUTEX_WAITING) &&& B_USER_MUTEX_LOCKED =
    v &&& B_USER_MUTEX_LOCKED := by
  have h : ~~~B_USER_MUTEX_WAITING &&& B_USER_MUTEX_LOCKED = B_USER_MUTEX_LOCKED := by decide
  rw [BitVec.and_assoc, h]

end word

namespace State

omit [DecidableEq τ] in
theorem isLocked_congr {s s' : State τ}
    (h : s'.val &&& B_USER_MUTEX_LOCKED = s.val &&& B_USER_MUTEX_LOCKED) :
    s'.isLocked ↔ s.isLocked := by rw [isLocked, isLocked, h]

omit [DecidableEq τ] in
theorem not_isLocked_of_zero (h : s.val = 0) : ¬ s.isLocked := by
  rw [isLocked, h]
  decide

omit [DecidableEq τ] in
@[simp] theorem mark_isLocked (w : Bool) : (s.mark w).isLocked ↔ s.isLocked := by
  cases w with
  | false => exact isLocked_congr (and_not_waiting s.val)
  | true => exact isLocked_congr (or_waiting s.val)

omit [DecidableEq τ] in
@[simp] theorem mark_place (w : Bool) : (s.mark w).place = s.place := by cases w <;> rfl

end State

/-- The locked bit is set exactly while a thread is inside. -/
structure Inv (s : State τ) : Prop where
  exclusive : Exclusive s
  locked : s.isLocked ↔ ∃ t, s.place t = .inside

namespace Inv

omit [DecidableEq τ] in
theorem start : Inv (start : State τ) where
  exclusive _ _ h := nomatch h
  locked := by
    refine iff_of_false (State.not_isLocked_of_zero rfl) ?_
    rintro ⟨_, h⟩
    cases h

omit [DecidableEq τ] in
/-- A step that moves no thread in or out keeps the invariant. -/
theorem frame (H : Inv s) {s' : State τ} (hl : s'.isLocked ↔ s.isLocked)
    (hp : ∀ t, s'.place t = .inside ↔ s.place t = .inside) : Inv s' where
  exclusive t u ht hu := H.exclusive t u ((hp t).1 ht) ((hp u).1 hu)
  locked := by simp only [hl, hp, H.locked]

theorem move (H : Inv s) (ht : s.place t ≠ .inside) (hp : p ≠ .inside) : Inv (s.move t p) := by
  refine H.frame Iff.rfl fun u => ?_
  rcases eq_or_ne u t with rfl | hu
  · rw [State.move_self]
    exact iff_of_false hp ht
  · rw [State.move_of_ne hu]

/-- A free mutex that becomes locked lets one thread in. -/
theorem enter (H : Inv s) (hs : ¬ s.isLocked) (hv : v &&& B_USER_MUTEX_LOCKED ≠ 0) :
    Inv ({ s with val := v }.move t .inside) := by
  have hout (u) : s.place u ≠ .inside := fun h => hs (H.locked.2 ⟨u, h⟩)
  have only (u) (h : ({ s with val := v }.move t .inside).place u = .inside) : u = t := by
    by_contra hu
    rw [State.move_of_ne hu] at h
    exact hout u h
  exact {
    exclusive := fun u w hu hw => (only u hu).trans (only w hw).symm
    locked := iff_of_true hv ⟨t, State.move_self⟩ }

/-- The thread inside goes out, and leaves the mutex free. -/
theorem leave (H : Inv s) (ht : s.place t = .inside) (hv : v &&& B_USER_MUTEX_LOCKED = 0)
    (hp : p ≠ .inside) : Inv ({ s with val := v }.move t p) := by
  have none (u) : ({ s with val := v }.move t p).place u ≠ .inside := by
    intro h
    rcases eq_or_ne u t with rfl | hu
    · exact hp (State.move_self.symm.trans h)
    · rw [State.move_of_ne hu] at h
      exact hu (H.exclusive u t h ht)
  exact {
    exclusive := fun u _ hu => absurd hu (none u)
    locked := iff_of_false (fun h => h hv) fun ⟨u, hu⟩ => none u hu }

end Inv

/-- `_kern_mutex_lock` returns no error. -/
def Uninterrupted (_ : State τ) (e : Event τ) : Prop := ∀ t, e ≠ .interrupt t

theorem step_inv (s : State τ) (e : Event τ) (H : Inv s) (he : Uninterrupted s e) :
    Inv (step e s) := by
  cases e with
  | lock t =>
    simp only [step]
    split
    case isFalse => exact H
    case isTrue ht =>
      rw [State.lock]
      split
      case isTrue hv => exact H.enter (State.not_isLocked_of_zero hv) (by decide)
      case isFalse => exact H.move (by simp [ht]) (by decide)
  | acquire t =>
    simp only [step]
    split
    case isFalse => exact H
    case isTrue =>
      rw [State.acquire]
      split
      case isTrue => exact H
      case isFalse hl =>
        refine H.enter hl ?_
        rw [or_locked]
        decide
  | interrupt t => exact absurd rfl (he t)
  | mark w => exact H.frame (State.mark_isLocked w) fun t => by simp only [step, State.mark_place]
  | unlock t =>
    simp only [step]
    split
    case isFalse => exact H
    case isTrue ht =>
      refine H.leave ht (and_not_locked s.val) ?_
      split <;> decide
  | unblocked t =>
    simp only [step]
    split
    case isFalse => exact H
    case isTrue ht => exact H.move (by simp [ht]) (by decide)

/-- Mutual exclusion, in every run in which no wait of the kernel is interrupted. -/
theorem run_exclusive {τ : Type*} [DecidableEq τ] (events : List (Event τ))
    (h : Run.Along step Uninterrupted start events) :
    Exclusive (Run.exec step start events) :=
  (Run.invariant (I := Inv) step_inv h .start).exclusive

/-- Two threads contend, the loser is woken by the winner, and the winner comes back. -/
theorem run_exclusive_contended :
    Exclusive (Run.exec step (start : State Bool) [.lock false, .lock true, .mark true,
      .unlock false, .acquire true, .mark false, .unblocked false, .lock false]) :=
  run_exclusive _ (by simp [Run.Along, Uninterrupted])

/-- A signal that ends the loser's wait lets it in next to the winner. -/
theorem not_exclusive_of_interrupt :
    ¬ Exclusive (Run.exec step (start : State Bool)
      [.lock false, .lock true, .mark true, .interrupt true]) := fun h =>
  absurd (h false true (by decide) (by decide)) (by decide)

end SimpleMtx

end IntelGfx
