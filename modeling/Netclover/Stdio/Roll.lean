import Netclover.Lib.Blocks
import Netclover.Stdio.Screen

/-!
# The console as a roll of paper

The cells of the screen one after the other, row after row, on a roll that is
blank below the screen. `putc` of a character that is no control character
puts it down and goes on to the next cell, and scrolling is nothing but moving
the screen one row down the roll. A backspace goes one cell back
(`Rolled.type`, `Rolled.back`).
-/

namespace Netclover.Stdio

/-- The cells, the one where typing goes on, and the first row on the
screen. -/
structure Roll where
  cell : Nat → Cell
  pos : Nat
  top : Nat

namespace Roll

variable (t : Target) (r : Roll)

/-- Put a character down, in the color that is there. -/
def mark (chr : UInt8) : Roll :=
  { r with cell := Function.update r.cell r.pos ⟨chr, (r.cell r.pos).color⟩ }

/-- Go on, and move the screen down if that leaves it. -/
def advance : Roll :=
  { r with
    pos := r.pos + 1
    top := if r.top + t.screenHeight ≤ (r.pos + 1) / screenWidth then r.top + 1 else r.top }

def type (chr : UInt8) : Roll := (r.mark chr).advance t

/-- Go back, and put a space down. -/
def back : Roll := { r with pos := r.pos - 1 }.mark 0x20

end Roll

variable {t : Target} {c : Console} {r : Roll}

/-- The screen shows the roll from row `top` on, and nothing is below. -/
structure Printed (t : Target) (r : Roll) (c : Console) : Prop where
  cell : ∀ x y, x < screenWidth → y < t.screenHeight →
    c.cell x y = r.cell ((r.top + y) * screenWidth + x)
  blank : ∀ p, (r.top + t.screenHeight) * screenWidth ≤ p → r.cell p = blank

/-- The cursor is where typing goes on. -/
structure Rolled (t : Target) (r : Roll) (c : Console) : Prop extends Printed t r c where
  screenX : c.screenX = (r.pos % screenWidth : Nat)
  screenY : c.screenY = (r.pos / screenWidth - r.top : Nat)
  above : r.top ≤ r.pos / screenWidth
  below : r.pos / screenWidth < r.top + t.screenHeight

/-- The cursor is on the screen, at `(x, y)`. -/
structure CursorAt (t : Target) (c : Console) (x y : Nat) : Prop where
  screenX : c.screenX = x
  screenY : c.screenY = y
  x_lt : x < screenWidth
  y_lt : y < t.screenHeight

/-- Paper for a screen. -/
def Console.roll (t : Target) (c : Console) (x y : Nat) : Roll where
  cell p :=
    if p < t.screenHeight * screenWidth then c.cell (p % screenWidth) (p / screenWidth) else blank
  pos := y * screenWidth + x
  top := 0

theorem CursorAt.rolled {x y : Nat} (h : CursorAt t c x y) : Rolled t (c.roll t x y) c := by
  obtain ⟨hX, hY, hx, hy⟩ := h
  obtain ⟨hdiv, hmod⟩ := Block.mul_add_div_mod (k := y) hx
  refine ⟨⟨?_, ?_⟩, ?_, ?_, ?_, ?_⟩
  · intro x' y' hx' hy'
    have hin : y' * screenWidth + x' < t.screenHeight * screenWidth := by
      simp only [screenWidth] at *
      omega
    obtain ⟨hdiv', hmod'⟩ := Block.mul_add_div_mod (k := y') hx'
    simp only [Console.roll, Nat.zero_add, if_pos hin, hmod', hdiv']
  · intro p hp
    simp only [Console.roll] at hp ⊢
    rw [Nat.zero_add] at hp
    rw [if_neg (by omega)]
  · simp only [Console.roll, hmod, hX]
  · simp only [Console.roll, hdiv, hY, Nat.sub_zero]
  · exact Nat.zero_le _
  · simp only [Console.roll, hdiv, Nat.zero_add]
    exact hy

/-! ## One cell -/

/-- A character on the screen and on the roll. -/
theorem Printed.mark (h : Printed t r c) (habove : r.top ≤ r.pos / screenWidth)
    (hbelow : r.pos / screenWidth < r.top + t.screenHeight) (chr : UInt8) :
    Printed t (r.mark chr) (putchr (r.pos % screenWidth : Nat)
      (r.pos / screenWidth - r.top : Nat) chr c) := by
  have hx : r.pos % screenWidth < screenWidth := Nat.mod_lt _ (by decide)
  have hy : r.pos / screenWidth - r.top < t.screenHeight := by omega
  have hpos : (r.top + (r.pos / screenWidth - r.top)) * screenWidth + r.pos % screenWidth
      = r.pos := by
    rw [Nat.add_sub_cancel' habove, Nat.mul_comm]
    exact Nat.div_add_mod ..
  constructor
  · intro x y hx' hy'
    rw [cell_putchr hx hy chr c hx' y, h.cell _ _ hx hy, hpos, h.cell x y hx' hy']
    by_cases hhere : x = r.pos % screenWidth ∧ y = r.pos / screenWidth - r.top
    · have hsame : (r.top + y) * screenWidth + x = r.pos := by rw [hhere.1, hhere.2, hpos]
      simp only [Roll.mark, hsame, if_pos hhere, Function.update_self]
    · have hne : (r.top + y) * screenWidth + x ≠ r.pos := by
        intro e
        apply hhere
        simp only [screenWidth] at *
        omega
      simp only [Roll.mark, if_neg hhere, Function.update_of_ne hne]
  · intro p hp
    have hne : p ≠ r.pos := by
      simp only [Roll.mark, screenWidth] at *
      omega
    exact (Function.update_of_ne hne _ _).trans (h.blank p hp)

/-- With the cursor on the screen `settle` does nothing else. -/
theorem Printed.settle {p : Nat} (h : Printed t r c) (hX : c.screenX = (p % screenWidth : Nat))
    (hY : c.screenY = (p / screenWidth - r.top : Nat)) (habove : r.top ≤ p / screenWidth)
    (hbelow : p / screenWidth < r.top + t.screenHeight) :
    Rolled t { r with pos := p } (Stdio.settle t c) := by
  rw [settle_within hX hY (Nat.mod_lt _ (by decide)) (by omega)]
  exact ⟨⟨h.cell, h.blank⟩, hX, hY, habove, hbelow⟩

/-- With the cursor below it, the screen moves one row down the roll. -/
theorem Printed.settle_below {p : Nat} (h : Printed t r c) (hX : c.screenX = 0)
    (hY : c.screenY = t.screenHeight) (hmod : p % screenWidth = 0)
    (hdiv : p / screenWidth = r.top + t.screenHeight) :
    Rolled t { r with pos := p, top := r.top + 1 } (Stdio.settle t c) := by
  have hheight := screenHeight_pos t
  have hscrolled := scrollback_scrolled (t := t) (Nat.succ_le_of_lt hheight) c
  rw [settle_scrolls (x := 0) hX hY (by decide)]
  refine ⟨⟨?_, ?_⟩, ?_, ?_, ?_, ?_⟩
  · intro x y hx hy
    refine (hscrolled.cell x y hx hy).trans ?_
    by_cases hin : y + 1 < t.screenHeight
    · rw [if_pos hin, show r.top + 1 + y = r.top + (y + 1) by omega]
      exact h.cell x (y + 1) hx hin
    · rw [if_neg hin]
      refine (h.blank _ ?_).symm
      rw [show r.top + 1 + y = r.top + t.screenHeight by omega]
      exact Nat.le_add_right ..
  · intro q hq
    have hq' : (r.top + 1 + t.screenHeight) * screenWidth ≤ q := hq
    exact h.blank q (Nat.le_trans (Nat.mul_le_mul_right _ (by omega)) hq')
  · refine hscrolled.screenX.trans ?_
    rw [hX, hmod]
    rfl
  · refine hscrolled.screenY.trans ?_
    show c.screenY - 1 = (p / screenWidth - (r.top + 1) : Nat)
    omega
  · show r.top + 1 ≤ p / screenWidth
    omega
  · show p / screenWidth < r.top + 1 + t.screenHeight
    omega

/-- One cell on: `settle` finds the next line, and scrolls where the roll is
moved. -/
theorem Printed.advance (h : Printed t r c) (habove : r.top ≤ r.pos / screenWidth)
    (hbelow : r.pos / screenWidth < r.top + t.screenHeight)
    (hX : c.screenX = (r.pos % screenWidth : Nat) + 1)
    (hY : c.screenY = (r.pos / screenWidth - r.top : Nat)) :
    Rolled t (r.advance t) (Stdio.settle t c) := by
  have hmodlt : r.pos % screenWidth < screenWidth := Nat.mod_lt _ (by decide)
  by_cases hlast : r.pos % screenWidth + 1 = screenWidth
  · obtain ⟨hdiv, hmod⟩ := Block.succ_div_mod_eq hlast
    have hwrap : Stdio.settle t c
        = Stdio.settle t { c with screenY := c.screenY + 1, screenX := 0 } := by
      refine settle_wraps ?_
      rw [hX]
      exact_mod_cast hlast
    have hprinted : Printed t r { c with screenY := c.screenY + 1, screenX := 0 } :=
      ⟨h.cell, h.blank⟩
    rw [hwrap]
    by_cases hfull : r.top + t.screenHeight ≤ r.pos / screenWidth + 1
    · have hadvance : r.advance t = { r with pos := r.pos + 1, top := r.top + 1 } := by
        rw [Roll.advance, hdiv, if_pos hfull]
      rw [hadvance]
      refine hprinted.settle_below rfl ?_ hmod (by omega)
      show c.screenY + 1 = _
      omega
    · have hadvance : r.advance t = { r with pos := r.pos + 1 } := by
        rw [Roll.advance, hdiv, if_neg hfull]
      rw [hadvance]
      refine hprinted.settle ?_ ?_ (by omega) (by omega)
      · rw [hmod]
        rfl
      · show c.screenY + 1 = _
        omega
  · obtain ⟨hdiv, hmod⟩ := Block.succ_div_mod_lt (j := r.pos) (n := screenWidth) (by omega)
    have hadvance : r.advance t = { r with pos := r.pos + 1 } := by
      rw [Roll.advance, hdiv, if_neg (by omega)]
    rw [hadvance]
    refine h.settle ?_ ?_ (by omega) (by omega)
    · rw [hX, hmod]
      push_cast
      rfl
    · rw [hdiv]
      exact hY

/-! ## Typing and going back -/

/-- **A character that is no control character** is typed on the roll. -/
theorem Rolled.type (h : Rolled t r c) (chr : UInt8) :
    Rolled t (r.type t chr) (putcDefault t chr c) := by
  have hx : r.pos % screenWidth < screenWidth := Nat.mod_lt _ (by decide)
  have hy : r.pos / screenWidth - r.top < t.screenHeight := by
    have habove := h.above
    have hbelow := h.below
    omega
  have hdraws := putchr_draws hx hy chr c
  have hprinted := h.mark h.above h.below chr
  rw [putcDefault, h.screenX, h.screenY]
  refine Printed.advance (r := r.mark chr) ⟨hprinted.cell, hprinted.blank⟩ h.above h.below ?_ ?_
  · show (putchr _ _ chr c).screenX + 1 = _
    rw [hdraws.screenX, h.screenX]
    rfl
  · exact hdraws.screenY.trans h.screenY

/-- **A backspace** goes back on the roll, as long as that is on the screen. -/
theorem Rolled.back (h : Rolled t r c) (hroom : r.top * screenWidth < r.pos) :
    Rolled t r.back (putc t c 0x08) := by
  have hx : (r.pos - 1) % screenWidth < screenWidth := Nat.mod_lt _ (by decide)
  have habove : r.top ≤ (r.pos - 1) / screenWidth := by
    simp only [screenWidth] at *
    omega
  have hbelow : (r.pos - 1) / screenWidth < r.top + t.screenHeight := by
    have hlt := h.below
    simp only [screenWidth] at *
    omega
  have hy : (r.pos - 1) / screenWidth - r.top < t.screenHeight := by omega
  -- the cursor, one cell back
  have hcursor : (if c.screenX = 0
      then { c with screenX := screenWidth - 1, screenY := c.screenY - 1 }
      else { c with screenX := c.screenX - 1 })
      = { c with
          screenX := ((r.pos - 1) % screenWidth : Nat)
          screenY := ((r.pos - 1) / screenWidth - r.top : Nat) } := by
    rw [h.screenX, h.screenY]
    by_cases hzero : r.pos % screenWidth = 0
    · have hX : ((screenWidth : Int) - 1) = ((r.pos - 1) % screenWidth : Nat) := by
        simp only [screenWidth] at *
        omega
      have hY : (((r.pos / screenWidth - r.top : Nat) : Int) - 1)
          = ((r.pos - 1) / screenWidth - r.top : Nat) := by
        simp only [screenWidth] at *
        omega
      rw [if_pos (by rw [hzero]; rfl), hX, hY]
    · have hX : (((r.pos % screenWidth : Nat) : Int) - 1) = ((r.pos - 1) % screenWidth : Nat) := by
        simp only [screenWidth] at *
        omega
      have hY : (r.pos - 1) / screenWidth = r.pos / screenWidth := by
        simp only [screenWidth] at *
        omega
      rw [if_neg (by omega), hX, hY, ← h.screenY]
  have hprinted : Printed t { r with pos := r.pos - 1 } { c with
      screenX := ((r.pos - 1) % screenWidth : Nat)
      screenY := ((r.pos - 1) / screenWidth - r.top : Nat) } := ⟨h.cell, h.blank⟩
  have hmarked := hprinted.mark habove hbelow 0x20
  show Rolled t r.back (settle t (putchr _ _ 0x20 (if c.screenX = 0
    then { c with screenX := screenWidth - 1, screenY := c.screenY - 1 }
    else { c with screenX := c.screenX - 1 })))
  rw [hcursor]
  have hdraws := putchr_draws hx hy 0x20 { c with
    screenX := ((r.pos - 1) % screenWidth : Nat)
    screenY := ((r.pos - 1) / screenWidth - r.top : Nat) }
  exact hmarked.settle hdraws.screenX hdraws.screenY habove hbelow

end Netclover.Stdio
