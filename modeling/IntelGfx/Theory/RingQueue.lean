import Mathlib.Tactic.Common
import Mathlib.Data.List.Basic
import Mathlib.Data.Nat.ModEq
import Mathlib.Logic.Function.Basic

/-!
# Queues in a ring of cells

The cells from `head` on, `count` of them and modulo the number `n` of cells, hold a queue. One is
written behind the last as long as there is a cell left, and one is read at the head.
-/

namespace RingQueue
variable {α : Type*} {mem : Nat → α} {n head count i j : Nat} {a : α}

/-- The cells of a queue in their order. -/
def items (mem : Nat → α) (n head count : Nat) : List α :=
  (List.range count).map fun i => mem ((head + i) % n)

@[simp] theorem length_items : (items mem n head count).length = count := by simp [items]

@[simp] theorem items_zero : items mem n head 0 = [] := rfl

theorem items_succ :
    items mem n head (count + 1) = items mem n head count ++ [mem ((head + count) % n)] := by
  simp [items, List.range_succ]

/-- Two cells of a queue that fits are different. -/
theorem cell_inj (hi : i < n) (hj : j < n) (h : (head + i) % n = (head + j) % n) : i = j := by
  have := Nat.ModEq.add_left_cancel' head h
  rwa [Nat.ModEq, Nat.mod_eq_of_lt hi, Nat.mod_eq_of_lt hj] at this

theorem items_congr {mem' : Nat → α} (h : ∀ i, i < count → mem' ((head + i) % n) =
    mem ((head + i) % n)) : items mem' n head count = items mem n head count :=
  List.map_congr_left fun i hi => h i (List.mem_range.mp hi)

/-- A cell behind the last one is written. -/
theorem items_push (h : count < n) :
    items (Function.update mem ((head + count) % n) a) n head (count + 1) =
      items mem n head count ++ [a] := by
  rw [items_succ, Function.update_self, items_congr fun i hi => ?_]
  refine Function.update_of_ne (fun heq => ?_) ..
  have := cell_inj (Nat.lt_trans hi h) h heq
  omega

/-- The cell at the head is read. -/
theorem items_pop :
    items mem n head (count + 1) = mem (head % n) :: items mem n ((head + 1) % n) count := by
  simp only [items, List.range_succ_eq_map, List.map_cons, List.map_map, Nat.add_zero]
  refine congrArg _ (List.map_congr_left fun i _ => ?_)
  simp only [Function.comp_apply, Nat.succ_eq_add_one, Nat.mod_add_mod]
  rw [Nat.add_assoc, Nat.add_comm 1 i]

end RingQueue
