import Mathlib.Logic.Relation
import Mathlib.Logic.Function.Basic
import Mathlib.Tactic.Common

/-!
# Lock orders exclude wait cycles

`Code` is what a program does with its locks: the regions in which it holds one, in sequence, in
alternatives and in loops. Threads run codes one step at a time, and a thread that comes to a
locked region waits until no thread holds the lock. When the locks have ranks, and every region
is entered with locks of lower ranks only, no threads ever wait for each other in a cycle.
-/

namespace LockOrder
variable {L τ : Type*}

/-- The locking of a program. What decides between alternatives is left out. -/
inductive Code (L : Type*) where
  | skip
  | seq (a b : Code L)
  | either (a b : Code L)
  /-- The body, any number of times. -/
  | loop (a : Code L)
  /-- One of a family of codes. -/
  | choose (f : Nat → Code L)
  /-- The body, with the lock held. -/
  | locked (l : L) (a : Code L)

/-- What a thread has still to do, innermost first. -/
inductive Item (L : Type*) where
  | run (c : Code L)
  | unlock (l : L)

/-- The locks a thread holds are those it has still to give back. -/
def held : List (Item L) → List L
  | [] => []
  | .run _ :: k => held k
  | .unlock l :: k => l :: held k

/-- The lock a thread has come to. -/
def awaited : List (Item L) → Option L
  | .run (.locked l _) :: _ => some l
  | _ => none

/-- One step of one thread: a thread with nothing to do may start any entry. -/
inductive Advance (entry : Code L → Prop) (free : L → Prop) : List (Item L) → List (Item L) → Prop
  | enter : entry c → Advance entry free [] [.run c]
  | skip : Advance entry free (.run .skip :: k) k
  | seq : Advance entry free (.run (.seq a b) :: k) (.run a :: .run b :: k)
  | left : Advance entry free (.run (.either a b) :: k) (.run a :: k)
  | right : Advance entry free (.run (.either a b) :: k) (.run b :: k)
  | leave : Advance entry free (.run (.loop a) :: k) k
  | again : Advance entry free (.run (.loop a) :: k) (.run a :: .run (.loop a) :: k)
  | choose (n : Nat) : Advance entry free (.run (.choose f) :: k) (.run (f n) :: k)
  | lock : free l → Advance entry free (.run (.locked l a) :: k) (.run a :: .unlock l :: k)
  | unlock : Advance entry free (.unlock l :: k) k

/-- Some thread takes a step; a lock is free when no thread holds it. -/
def Step [DecidableEq τ] (entry : Code L → Prop) (s s' : τ → List (Item L)) : Prop :=
  ∃ t k, Advance entry (fun l => ∀ u, l ∉ held (s u)) (s t) k ∧ s' = Function.update s t k

/-- The states of any number of threads that start with nothing to do. -/
def Reachable [DecidableEq τ] (entry : Code L → Prop) : (τ → List (Item L)) → Prop :=
  Relation.ReflTransGen (Step entry) fun _ => []

/-- A thread waits for a lock that a thread holds. -/
def WaitsFor (s : τ → List (Item L)) (t u : τ) : Prop := ∃ l ∈ awaited (s t), l ∈ held (s u)

variable (rank : L → Nat)

/-- Every region of the code is entered with locks of lower ranks, those held before it being
below `b`. -/
def Ordered (b : Nat) : Code L → Prop
  | .skip => True
  | .seq a c => Ordered b a ∧ Ordered b c
  | .either a c => Ordered b a ∧ Ordered b c
  | .loop a => Ordered b a
  | .choose f => ∀ n, Ordered b (f n)
  | .locked l a => b ≤ rank l ∧ Ordered (rank l + 1) a

/-- Above the ranks of the locks held. -/
def bound : List (Item L) → Nat
  | [] => 0
  | .run _ :: k => bound k
  | .unlock l :: _ => rank l + 1

/-- What is left to do takes its locks in the order of their ranks. -/
def Sorted : List (Item L) → Prop
  | [] => True
  | .run c :: k => Ordered rank (bound rank k) c ∧ Sorted k
  | .unlock l :: k => bound rank k ≤ rank l ∧ Sorted k

variable {rank}

theorem rank_lt_bound {k : List (Item L)} (h : Sorted rank k) (hl : l ∈ held k) :
    rank l < bound rank k := by
  induction k with
  | nil => cases hl
  | cons i k ih =>
    cases i with
    | run c => exact ih h.2 hl
    | unlock m =>
      rcases List.mem_cons.1 hl with rfl | hl
      · exact Nat.lt_succ_self _
      · exact Nat.lt_of_lt_of_le (ih h.2 hl) (Nat.le_succ_of_le h.1)

/-- A thread waits for a lock above those that it holds. -/
theorem bound_le_rank {k : List (Item L)} (h : Sorted rank k) (hl : l ∈ awaited k) :
    bound rank k ≤ rank l := by
  match k, hl with
  | .run (.locked _ _) :: _, rfl => exact h.1.1

theorem Advance.sorted {entry : Code L → Prop} (he : ∀ c, entry c → Ordered rank 0 c)
    (h : Advance entry free k k') (hk : Sorted rank k) : Sorted rank k' := by
  cases h with
  | enter hc => exact ⟨he _ hc, trivial⟩
  | skip => exact hk.2
  | seq => exact ⟨hk.1.1, hk.1.2, hk.2⟩
  | left => exact ⟨hk.1.1, hk.2⟩
  | right => exact ⟨hk.1.2, hk.2⟩
  | leave => exact hk.2
  | again => exact ⟨hk.1, hk.1, hk.2⟩
  | choose n => exact ⟨hk.1 n, hk.2⟩
  | lock => exact ⟨hk.1.2, hk.1.1, hk.2⟩
  | unlock => exact hk.2

theorem Reachable.sorted [DecidableEq τ] {entry : Code L → Prop} {s : τ → List (Item L)}
    (he : ∀ c, entry c → Ordered rank 0 c) (h : Reachable entry s) (t : τ) :
    Sorted rank (s t) := by
  induction h generalizing t with
  | refl => trivial
  | tail _ hstep ih =>
    obtain ⟨u, k, hadvance, rfl⟩ := hstep
    rcases eq_or_ne t u with rfl | ht
    · rw [Function.update_self]
      exact hadvance.sorted he (ih t)
    · rw [Function.update_of_ne ht]
      exact ih t

/-- Along a chain of waiting threads the ranks of the awaited locks grow. -/
theorem rank_lt_of_waits {s : τ → List (Item L)} (hs : ∀ t, Sorted rank (s t))
    (h : Relation.TransGen (WaitsFor s) t u) (hl : l ∈ awaited (s t)) :
    rank l < bound rank (s u) := by
  induction h with
  | single h =>
    obtain ⟨m, hm, hheld⟩ := h
    cases Option.mem_unique hl hm
    exact rank_lt_bound (hs _) hheld
  | tail _ h ih =>
    obtain ⟨m, hm, hheld⟩ := h
    have hgrow := Nat.lt_of_le_of_lt (bound_le_rank (hs _) hm) (rank_lt_bound (hs _) hheld)
    exact Nat.lt_trans ih hgrow

theorem TransGen.awaited {s : τ → List (Item L)} (h : Relation.TransGen (WaitsFor s) t u) :
    ∃ l, l ∈ awaited (s t) := by
  induction h using Relation.TransGen.head_induction_on with
  | single h => exact ⟨_, h.choose_spec.1⟩
  | head h _ _ => exact ⟨_, h.choose_spec.1⟩

/-- No thread waits for itself, through any number of others. -/
theorem no_cycle [DecidableEq τ] {entry : Code L → Prop} {s : τ → List (Item L)}
    (he : ∀ c, entry c → Ordered rank 0 c) (h : Reachable entry s) (t : τ) :
    ¬ Relation.TransGen (WaitsFor s) t t := by
  intro hcycle
  have hs := h.sorted he
  obtain ⟨l, hl⟩ := TransGen.awaited hcycle
  exact absurd (rank_lt_of_waits hs hcycle hl) (Nat.not_lt.2 (bound_le_rank (hs t) hl))

end LockOrder
