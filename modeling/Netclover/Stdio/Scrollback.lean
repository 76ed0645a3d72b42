import Netclover.Stdio.Screen

/-!
# Scrolling composes

`scrollback` copies within the screen buffer. The rows it copies from are never
above those it copies to, and it goes from the top down, so that no byte is
read after it has been overwritten (`copyMoves_inOrder`). So it scrolls by `a`
and by `b` as it scrolls by `a + b`.
-/

namespace Netclover.Stdio

variable {t : Target} {c c' c'' : Console}

/-! ## In place -/

/-- The moves of the copying loop of `scrollback(lines)`, byte by byte. -/
def copyMoves (t : Target) (lines : Nat) : List (Move Nat) :=
  Move.shift (2 * screenWidth * lines) 0 (2 * screenWidth * (t.screenHeight - lines))

theorem copyMoves_inOrder (t : Target) (lines : Nat) : Move.InOrder (copyMoves t lines) :=
  Move.shift_inOrder _ _ _

theorem scrollback_moves {lines : Nat} (h : lines ≤ t.screenHeight) (c : Console) :
    copyRows lines lines (rowCount t lines) c = (copyMoves t lines).foldl moveByte c := by
  rw [rowCount_natCast, copyMoves]
  exact copyRows_eq_moves (t := t) (by omega) c

/-! ## Twice -/

/-- What has moved up twice has moved up by the sum. -/
theorem Scrolled.trans {a b : Nat} (h : Scrolled t a c c') (h' : Scrolled t b c' c'') :
    Scrolled t (a + b) c c'' where
  screenX := h'.screenX.trans h.screenX
  screenY := by
    rw [h'.screenY, h.screenY]
    push_cast
    omega
  crtc := h'.crtc.trans h.crtc
  accessed := List.Subset.trans h.accessed h'.accessed
  inRange := fun hc => h'.inRange (h.inRange hc)
  cell x y hx hy := by
    rw [h'.cell x y hx hy]
    by_cases hb : y + b < t.screenHeight
    · rw [if_pos hb, h.cell x (y + b) hx hb, show y + b + a = y + (a + b) by omega]
    · rw [if_neg hb, if_neg (by omega)]

/-- **Scrolling composes**, and each of its copies is in order: the byte that a
move reads has not been written by an earlier one. -/
theorem scrollback_add {a b : Nat} (h : a + b ≤ t.screenHeight) (c : Console) :
    (scrollback t b (scrollback t a c)).screenY
      = (scrollback t ((a + b : Nat) : Int) c).screenY ∧
    (∀ x y, x < screenWidth → y < t.screenHeight →
      (scrollback t b (scrollback t a c)).cell x y
          = (scrollback t ((a + b : Nat) : Int) c).cell x y ∧
      (scrollback t b (scrollback t a c)).cell x y
          = if y + a + b < t.screenHeight then c.cell x (y + a + b) else blank) ∧
    ∀ lines ≤ t.screenHeight, ∀ c,
      copyRows lines lines (rowCount t lines) c = (copyMoves t lines).foldl moveByte c ∧
      Move.InOrder (copyMoves t lines) := by
  have htwice := (scrollback_scrolled (t := t) (by omega : a ≤ t.screenHeight) c).trans
    (scrollback_scrolled (by omega : b ≤ t.screenHeight) (scrollback t a c))
  have honce := scrollback_scrolled h c
  refine ⟨htwice.screenY.trans honce.screenY.symm, ?_, ?_⟩
  · intro x y hx hy
    have hcell := htwice.cell x y hx hy
    refine ⟨hcell.trans (honce.cell x y hx hy).symm, ?_⟩
    rw [hcell, Nat.add_assoc]
  · intro lines hlines c
    exact ⟨scrollback_moves hlines c, copyMoves_inOrder t lines⟩

/-- A cleared buffer, the cursor in the last line. -/
def zeroConsole : Console := ⟨fun _ => 0, 0, 24, ⟨0, fun _ => 0⟩, []⟩

/-- By one row, then by the other 24 of the kernel's screen. -/
theorem scrollback_add_sample :
    (scrollback .x86_64 (24 : Nat) (scrollback .x86_64 (1 : Nat) zeroConsole)).screenY
      = (scrollback .x86_64 ((1 + 24 : Nat) : Int) zeroConsole).screenY ∧
    (∀ x y, x < screenWidth → y < Target.x86_64.screenHeight →
      (scrollback .x86_64 (24 : Nat) (scrollback .x86_64 (1 : Nat) zeroConsole)).cell x y
          = (scrollback .x86_64 ((1 + 24 : Nat) : Int) zeroConsole).cell x y ∧
      (scrollback .x86_64 (24 : Nat) (scrollback .x86_64 (1 : Nat) zeroConsole)).cell x y
          = if y + 1 + 24 < Target.x86_64.screenHeight then zeroConsole.cell x (y + 1 + 24)
            else blank) ∧
    ∀ lines ≤ Target.x86_64.screenHeight, ∀ c,
      copyRows lines lines (rowCount .x86_64 lines) c
          = (copyMoves .x86_64 lines).foldl moveByte c ∧
      Move.InOrder (copyMoves .x86_64 lines) :=
  scrollback_add (by decide) zeroConsole

end Netclover.Stdio
