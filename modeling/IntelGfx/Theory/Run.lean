import Mathlib.Tactic.Common

/-!
# Runs of a transition function

A system is a function `step` from a label and a state to the next state; a run is a list of
labels. A guard `P` holds `Along` a run when every label meets it in the state it is taken from.
An invariant is proved once per step, under the guard, and `invariant` carries it over the run.
-/

namespace Run
variable {σ l : Type*} {step : l → σ → σ} {P Q : σ → l → Prop}

/-- The state a list of labels leads to. -/
def exec (step : l → σ → σ) (s : σ) (ls : List l) : σ := ls.foldl (fun s a => step a s) s

/-- Every label of the run meets `P` in the state it is taken from. -/
def Along (step : l → σ → σ) (P : σ → l → Prop) : σ → List l → Prop
  | _, [] => True
  | s, a :: ls => P s a ∧ Along step P (step a s) ls

@[simp] theorem exec_nil (s : σ) : exec step s [] = s := rfl

@[simp] theorem exec_cons (s : σ) (a : l) (ls : List l) :
    exec step s (a :: ls) = exec step (step a s) ls := rfl

theorem exec_append (s : σ) (ls ms : List l) :
    exec step s (ls ++ ms) = exec step (exec step s ls) ms := List.foldl_append

@[simp] theorem Along_nil (s : σ) : Along step P s [] := trivial

@[simp] theorem Along_cons {s : σ} {a : l} {ls : List l} :
    Along step P s (a :: ls) ↔ P s a ∧ Along step P (step a s) ls := Iff.rfl

/-- A guard may make use of what labels there are in the run. -/
theorem Along.of_mem {s : σ} {ls : List l} (h : ∀ a ∈ ls, ∀ s, P s a → Q s a)
    (H : Along step P s ls) : Along step Q s ls := by
  induction ls generalizing s with
  | nil => trivial
  | cons a ls ih =>
    exact ⟨h a List.mem_cons_self _ H.1, ih (fun b hb => h b (List.mem_cons_of_mem _ hb)) H.2⟩

/-- What each guarded step preserves, each guarded run preserves. -/
theorem invariant {I : σ → Prop} (h : ∀ s a, I s → P s a → I (step a s)) {s : σ} {ls : List l}
    (H : Along step P s ls) (hs : I s) : I (exec step s ls) := by
  induction ls generalizing s with
  | nil => exact hs
  | cons a ls ih => exact ih H.2 (h _ _ hs H.1)

/-- Where a step keeps the law `L` just if it meets the guard, a run keeps it just if all its steps
meet the guard. -/
theorem along_iff {I L : σ → Prop} {s : σ} {ls : List l} (hI : ∀ s a, I s → I (step a s))
    (h : ∀ a ∈ ls, ∀ s, I s → L s → (L (step a s) ↔ P s a)) (hs : I s) (hl : L s) :
    Along step (fun s a => L (step a s)) s ls ↔ Along step P s ls := by
  induction ls generalizing s with
  | nil => exact Iff.rfl
  | cons a ls ih =>
    have hstep := h a List.mem_cons_self s hs hl
    have ih := @ih (step a s) (fun b hb => h b (List.mem_cons_of_mem _ hb)) (hI s a hs)
    exact ⟨fun H => ⟨hstep.1 H.1, (ih H.1).1 H.2⟩,
      fun H => ⟨hstep.2 H.1, (ih (hstep.2 H.1)).2 H.2⟩⟩

/-- Two systems that take the same steps from the states of an invariant have the same runs. -/
theorem exec_congr {step' : l → σ → σ} {I : σ → Prop} (h : ∀ s a, I s → I (step a s))
    (e : ∀ s a, I s → step a s = step' a s) {s : σ} (ls : List l) (hs : I s) :
    exec step s ls = exec step' s ls := by
  induction ls generalizing s with
  | nil => rfl
  | cons a ls ih =>
    rw [exec_cons, exec_cons, ← e s a hs]
    exact ih (h s a hs)

/-- What every step preserves, every run preserves. -/
theorem invariant_of_step {I : σ → Prop} (h : ∀ s a, I s → I (step a s)) {s : σ} (ls : List l)
    (hs : I s) : I (exec step s ls) := by
  induction ls generalizing s with
  | nil => exact hs
  | cons a ls ih => exact ih (h _ _ hs)

end Run
