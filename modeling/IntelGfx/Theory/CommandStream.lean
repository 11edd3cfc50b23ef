import Mathlib.Tactic.Common

/-!
# Streams of commands that carry their length

A command is a nonempty list of words whose first word says how many there are. `split` cuts a
list of words into commands by these lengths alone. A concatenation of commands is cut into the
commands it was made of, whatever the words after the first are.
-/

namespace CommandStream
variable {W : Type*} {size : W → Nat}

/-- Cut words into commands, `fuel` at most. -/
def splitAux (size : W → Nat) : Nat → List W → Option (List (List W))
  | _, [] => some []
  | 0, _ :: _ => none
  | fuel + 1, header :: words =>
    if size header = 0 ∨ words.length + 1 < size header then none
    else ((splitAux size fuel (words.drop (size header - 1))).map
      ((header :: words.take (size header - 1)) :: ·))

/-- Cut words into commands; `none` if the last one is cut off. -/
def split (size : W → Nat) (words : List W) : Option (List (List W)) :=
  splitAux size words.length words

/-- The words are as many as their first says. -/
def IsCommand (size : W → Nat) : List W → Prop
  | [] => False
  | header :: words => size header = words.length + 1

theorem splitAux_append {fuel : Nat} {command rest : List W} (h : IsCommand size command) :
    splitAux size (fuel + 1) (command ++ rest) =
      (splitAux size fuel rest).map (command :: ·) := by
  cases command with
  | nil => cases h
  | cons header words =>
    have hsize : size header = words.length + 1 := h
    rw [List.cons_append, splitAux, if_neg ?_, hsize, Nat.add_sub_cancel, List.drop_left,
      List.take_left]
    rw [hsize, List.length_append]
    omega

theorem splitAux_flatten {commands : List (List W)} (h : ∀ c ∈ commands, IsCommand size c)
    {fuel : Nat} (hf : commands.length ≤ fuel) :
    splitAux size fuel commands.flatten = some commands := by
  induction commands generalizing fuel with
  | nil => cases fuel <;> rfl
  | cons c commands ih =>
    obtain ⟨hc, hrest⟩ := List.forall_mem_cons.1 h
    cases fuel with
    | zero => cases hf
    | succ fuel =>
      rw [List.flatten_cons, splitAux_append hc, ih hrest (Nat.le_of_succ_le_succ hf)]
      rfl

/-- A command has a word at least, so a stream has as many words as commands. -/
theorem length_le_flatten {commands : List (List W)} (h : ∀ c ∈ commands, IsCommand size c) :
    commands.length ≤ commands.flatten.length := by
  induction commands with
  | nil => exact Nat.le_refl _
  | cons c commands ih =>
    obtain ⟨hc, hrest⟩ := List.forall_mem_cons.1 h
    have := ih hrest
    cases c with
    | nil => cases hc
    | cons header words =>
      rw [List.flatten_cons, List.length_append, List.length_cons, List.length_cons]
      omega

theorem split_flatten {commands : List (List W)} (h : ∀ c ∈ commands, IsCommand size c) :
    split size commands.flatten = some commands :=
  splitAux_flatten h (length_le_flatten h)

end CommandStream
