import Mathlib.Logic.Function.Basic

/-!
# Copying in place

A copying loop within one memory is a list of moves, each of which reads one
cell and writes one. If no move reads what an earlier one has written
(`InOrder`), every move reads the memory as it was before the loop
(`InOrder.reads`). Cells that move down are in order from the lowest on
(`shift_inOrder`).
-/

namespace Netclover

structure Move (ι : Type) where
  src : ι
  dst : ι

namespace Move

variable {ι α : Type} [DecidableEq ι] {ms rest : List (Move ι)} {m : Move ι} {mem : ι → α}

def run (mem : ι → α) (m : Move ι) : ι → α := Function.update mem m.dst (mem m.src)

/-- The moves one after the other. -/
def runAll (ms : List (Move ι)) (mem : ι → α) : ι → α := ms.foldl run mem

/-- No move reads a cell that one before it has overwritten. -/
def InOrder (ms : List (Move ι)) : Prop := ms.Pairwise fun m m' => m.dst ≠ m'.src

theorem runAll_append : runAll (ms ++ rest) mem = runAll rest (runAll ms mem) :=
  List.foldl_append

/-- A cell that no move writes stays. -/
theorem runAll_of_not_dst {i : ι} (h : ∀ m ∈ ms, m.dst ≠ i) : runAll ms mem i = mem i := by
  induction ms generalizing mem with
  | nil => rfl
  | cons m ms ih =>
    obtain ⟨hhead, htail⟩ := List.forall_mem_cons.mp h
    show runAll ms (run mem m) i = mem i
    rw [ih htail, run, Function.update_of_ne hhead.symm]

/-- **In order**, each move reads what the memory held at the start. -/
theorem InOrder.reads (h : InOrder (ms ++ m :: rest)) : runAll ms mem m.src = mem m.src := by
  obtain ⟨-, -, hcross⟩ := List.pairwise_append.mp h
  exact runAll_of_not_dst fun m' hm' => hcross m' hm' m List.mem_cons_self

/-! ## Moving cells down -/

/-- The `n` cells from `lo` on get what is `off` cells further up, the lowest
first. -/
def shift (off lo n : Nat) : List (Move Nat) := (List.range' lo n).map fun i => ⟨i + off, i⟩

theorem shift_add (off lo m n : Nat) :
    shift off lo (m + n) = shift off lo m ++ shift off (lo + m) n := by
  rw [shift, shift, shift, ← List.map_append, List.range'_append_1]

theorem shift_succ (off lo n : Nat) :
    shift off lo (n + 1) = shift off lo n ++ [⟨lo + n + off, lo + n⟩] := shift_add off lo n 1

theorem shift_inOrder (off lo n : Nat) : InOrder (shift off lo n) := by
  rw [InOrder, shift, List.pairwise_map]
  refine List.Pairwise.imp ?_ (List.pairwise_lt_range' 1)
  intro i j hij
  dsimp only
  omega

/-- What they hold then. -/
theorem runAll_shift (off lo n : Nat) (mem : Nat → α) (i : Nat) :
    runAll (shift off lo n) mem i = if lo ≤ i ∧ i < lo + n then mem (i + off) else mem i := by
  induction n with
  | zero => rw [if_neg (by omega)]; rfl
  | succ n ih =>
    have hread : runAll (shift off lo n) mem (lo + n + off) = mem (lo + n + off) := by
      have horder := shift_inOrder off lo (n + 1)
      rw [shift_succ] at horder
      exact horder.reads
    rw [shift_succ, runAll_append]
    show Function.update (runAll (shift off lo n) mem) (lo + n)
      (runAll (shift off lo n) mem (lo + n + off)) i = _
    rw [hread]
    by_cases hlast : i = lo + n
    · subst hlast
      rw [Function.update_self, if_pos (by omega)]
    · rw [Function.update_of_ne hlast, ih]
      by_cases hin : lo ≤ i ∧ i < lo + n
      · rw [if_pos hin, if_pos (by omega)]
      · rw [if_neg hin, if_neg (by omega)]

end Move

end Netclover
