import Mathlib.Tactic.Ring

/-!
# Runs: labelled transition systems and their runs

A transition system is a relation `step s l r s'`: in state `s` the label `l`
is answered with `r` and leads to `s'`. A `Run` is a sequence of steps with
its trace of labels and answers. An invariant of the steps is an invariant of
the runs (`Run.invariant`), and steps may be restricted to those that meet a
condition on the state before them (`Guarded`).
-/

section

variable {S L R : Type}

/-- A run of `step` from one state to another, with what happened on the way. -/
inductive Run (step : S → L → R → S → Prop) : S → List (L × R) → S → Prop
  | nil (s : S) : Run step s [] s
  | cons {s s' s'' : S} {l : L} {r : R} {tr : List (L × R)} :
      step s l r s' → Run step s' tr s'' → Run step s ((l, r) :: tr) s''

/-- Only the steps whose state and label meet a condition. -/
def Guarded (ok : S → L → Prop) (step : S → L → R → S → Prop) : S → L → R → S → Prop :=
  fun s l r s' => ok s l ∧ step s l r s'

namespace Run

variable {step : S → L → R → S → Prop} {s s' : S} {tr : List (L × R)}

/-- **Invariants**: what every step keeps, every run keeps. -/
theorem invariant {I : S → Prop} (hstep : ∀ s l r s', I s → step s l r s' → I s')
    (run : Run step s tr s') (h : I s) : I s' := by
  induction run with
  | nil => exact h
  | cons hs _ ih => exact ih (hstep _ _ _ _ h hs)

/-- A single step. -/
theorem one {l : L} {r : R} (h : step s l r s') : Run step s [(l, r)] s' := .cons h (.nil _)

end Run

end
