import Mathlib.Data.Finset.Card
import Mathlib.Logic.Function.Iterate

/-!
# Orbit: when an iteration leaves a set

A point is moved by `f` again and again, and each place it comes to is looked
at. `Leaves f P x n`: `n` places in a row are inside, and the one behind them
has `P`. An iteration that leaves repeats no place before, so that it stays
inside no longer than there are places (`Leaves.le_card`).
-/

namespace Orbit

variable {α : Type} {f : α → α} {P : α → Prop} {x : α} {n : Nat}

/-- The first place with `P` is the one behind `n` others; `x` itself is not
looked at. -/
structure Leaves (f : α → α) (P : α → Prop) (x : α) (n : Nat) : Prop where
  out : P (f^[n + 1] x)
  inside : ∀ k < n, ¬ P (f^[k + 1] x)

namespace Leaves

theorem zero_iff : Leaves f P x 0 ↔ P (f x) :=
  ⟨fun h => h.out, fun h => ⟨h, fun _ hk => absurd hk (Nat.not_lt_zero _)⟩⟩

/-- One step on, if that is inside. -/
theorem succ_iff : Leaves f P x (n + 1) ↔ ¬ P (f x) ∧ Leaves f P (f x) n := by
  constructor
  · intro h
    refine ⟨h.inside 0 (Nat.succ_pos n), ⟨?_, fun k hk => ?_⟩⟩
    · rw [← Function.iterate_succ_apply]
      exact h.out
    · rw [← Function.iterate_succ_apply]
      exact h.inside (k + 1) (Nat.succ_lt_succ hk)
  · rintro ⟨hfirst, h⟩
    refine ⟨?_, fun k hk => ?_⟩
    · rw [Function.iterate_succ_apply]
      exact h.out
    · cases k with
      | zero => exact hfirst
      | succ k =>
        rw [Function.iterate_succ_apply]
        exact h.inside k (Nat.lt_of_succ_lt_succ hk)

/-- Two places before the end are not the same: from there on the iteration
would go in a circle. -/
theorem ne (h : Leaves f P x n) {i j : Nat} (hij : i < j) (hj : j < n) :
    f^[i + 1] x ≠ f^[j + 1] x := by
  intro heq
  have hshort : f^[n - (j - i) + 1] x = f^[n + 1] x := by
    rw [show n - (j - i) + 1 = (n - j) + (i + 1) by omega,
      show n + 1 = (n - j) + (j + 1) by omega, Function.iterate_add_apply _ _ (i + 1), heq,
      ← Function.iterate_add_apply]
  refine h.inside (n - (j - i)) (by omega) ?_
  rw [hshort]
  exact h.out

/-- **How long it takes** to leave a finite set. -/
theorem le_card (h : Leaves f P x n) {S : Finset α} (hS : ∀ k < n, f^[k + 1] x ∈ S) :
    n ≤ S.card := by
  have hcard : (Finset.range n).card ≤ S.card := by
    apply Finset.card_le_card_of_injOn fun k => f^[k + 1] x
    · intro k hk
      exact hS k (Finset.mem_range.mp hk)
    · intro i hi j hj heq
      have hi' := Finset.mem_range.mp hi
      have hj' := Finset.mem_range.mp hj
      rcases Nat.lt_trichotomy i j with hlt | hsame | hlt
      · exact (h.ne hlt hj' heq).elim
      · exact hsame
      · exact (h.ne hlt hi' heq.symm).elim
  rwa [Finset.card_range] at hcard

end Leaves

end Orbit
