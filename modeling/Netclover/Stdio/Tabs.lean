import Netclover.Stdio.Typing

/-!
# Tab stops (`libc/stdio/putc.c`)

A tab is to write spaces up to the next column that is a multiple of four. The
bound of the loop is computed anew in each pass, from the cursor that the pass
before has moved, so the loop ends too early, or in the next four columns: it
never gets to a tab stop (`tab_misses`).
-/

namespace Netclover.Stdio

variable {t : Target} {c : Console} {r : Roll}

/-! ## The loop -/

/-- How many of `n` passes are left at `pos`, in the pass with this `i`. -/
def tabPasses : Nat → Nat → Nat → Nat
  | 0, _, _ => 0
  | n + 1, i, pos => if i < 4 - pos % 4 then tabPasses n (i + 1) (pos + 1) + 1 else 0

/-- The spaces a tab writes, by the column it is written in. -/
def tabSpaces (x : Nat) : Nat :=
  if x % 4 = 2 then 1 else if x % 4 = 3 then 3 else 2

/-- They never reach a multiple of four. -/
theorem tabSpaces_misses (x : Nat) : (x + tabSpaces x) % 4 ≠ 0 := by
  rw [tabSpaces]
  split
  · omega
  · split <;> omega

theorem tabPasses_eq (pos : Nat) : tabPasses 7 0 pos = tabSpaces pos := by
  have hcases : pos % 4 = 0 ∨ pos % 4 = 1 ∨ pos % 4 = 2 ∨ pos % 4 = 3 := by omega
  have hnext : ∀ k, (pos + k) % 4 = (pos % 4 + k) % 4 := fun k => by omega
  rcases hcases with h | h | h | h <;>
    simp [tabPasses, tabSpaces, Nat.add_assoc, hnext, h]

/-- The loop types a space in each pass. -/
theorem Rolled.tabLoop (h : Rolled t r c) (n i : Nat) :
    Rolled t (r.typeAll t (List.replicate (tabPasses n i r.pos) 0x20)) (tabLoop t n i c) := by
  induction n generalizing i r c with
  | zero => exact h
  | succ n ih =>
    have hmod : Int.tmod c.screenX 4 = (r.pos % 4 : Nat) := by
      rw [h.screenX, Int.tmod_eq_emod_of_nonneg (Int.natCast_nonneg _)]
      simp only [screenWidth]
      omega
    rw [Stdio.tabLoop, hmod, tabPasses]
    by_cases hgo : i < 4 - r.pos % 4
    · rw [if_pos hgo, if_pos (by omega), List.replicate_succ]
      exact ih (h.type 0x20) (i + 1)
    · rw [if_neg hgo, if_neg (by omega)]
      exact h

/-- **What a tab does**: it writes one, two or three spaces. -/
theorem Rolled.tab (h : Rolled t r c) :
    Rolled t (r.typeAll t (List.replicate (tabSpaces r.pos) 0x20)) (putc t c 0x09) := by
  have hloop := h.tabLoop 7 0
  rw [tabPasses_eq] at hloop
  exact hloop.toPrinted.settle hloop.screenX hloop.screenY hloop.above hloop.below

/-! ## The stops -/

/-- From `c` with the cursor at `(x, y)` to `c'` spaces have been written up to
the next tab stop, and nothing else. -/
structure TabStop (t : Target) (c c' : Console) (x y : Nat) : Prop where
  rolled : Rolled t ((c.roll t x y).typeAll t (List.replicate (4 - x % 4) 0x20)) c'
  column : c'.screenX = if x / 4 * 4 + 4 = screenWidth then 0 else (x / 4 * 4 + 4 : Nat)

/-- **Tab stops are never met**: wherever the cursor is, a tab leaves it in a
column that is no multiple of four. -/
theorem tab_misses {x y : Nat} (h : CursorAt t c x y) : ¬ TabStop t c (putc t c 0x09) x y := by
  intro hstop
  have htab := h.rolled.tab.screenX
  have hpos : (c.roll t x y).pos = y * screenWidth + x := rfl
  rw [(Roll.typeAll_spec _ _).1, hpos, List.length_replicate] at htab
  have hcolumn := hstop.column
  have hmultiple : (putc t c 0x09).screenX % 4 = 0 := by
    rw [hcolumn]
    split <;> omega
  rw [htab] at hmultiple
  apply tabSpaces_misses (y * screenWidth + x)
  simp only [screenWidth] at hmultiple ⊢
  omega

theorem tab_misses_sample :
    let c : Console := ⟨fun _ => 0, 79, 24, ⟨0, fun _ => 0⟩, []⟩
    ¬ TabStop .x86_64 c (putc .x86_64 c 0x09) 79 24 :=
  tab_misses ⟨rfl, rfl, by decide, by decide⟩

/-- **The defect**: in column 0 a tab writes two spaces. -/
theorem tab_short : ¬ ∀ (t : Target) (c : Console) (x y : Nat), CursorAt t c x y →
    TabStop t c (putc t c 0x09) x y := by
  intro h
  have hcolumn := (h .x86_64 ⟨fun _ => 0, 0, 0, ⟨0, fun _ => 0⟩, []⟩ 0 0
    ⟨rfl, rfl, by decide, by decide⟩).column
  revert hcolumn
  decide

end Netclover.Stdio
