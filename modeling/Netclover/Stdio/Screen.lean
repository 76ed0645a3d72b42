import Netclover.Lib.Moves
import Netclover.Stdio.Console

/-!
# The cells of the screen

The screen buffer cell by cell: a cell is a character and a color, and the
loops of `scrollback` and `clrscr` are described by the cells they leave. What
they do not do is in `Draws`: the coordinates and the cursor stay, and no
access leaves the screen.
-/

namespace Netclover.Stdio

variable {t : Target} {c c' : Console}

/-! ## Unsigned coordinates -/

theorem toUnsigned_natCast {n : Nat} (h : n < 2 ^ 32) : toUnsigned n = n := by
  rw [toUnsigned]
  omega

theorem screenHeight_pos (t : Target) : 0 < t.screenHeight := by cases t <;> decide

theorem screenHeight_le (t : Target) : t.screenHeight ≤ 25 := by cases t <;> decide

theorem chrOffset_eq {x y : Nat} (hx : x < screenWidth) (hy : y < t.screenHeight) :
    chrOffset x y = 2 * (y * screenWidth + x) := by
  have hh := screenHeight_le t
  simp only [screenWidth] at hx
  have hcast : (2 * ((y : Int) * screenWidth + x)) = ((2 * (y * screenWidth + x) : Nat) : Int) := by
    push_cast
    rfl
  rw [chrOffset, hcast, toUnsigned_natCast (by simp only [screenWidth]; omega)]

theorem colorOffset_eq {x y : Nat} (hx : x < screenWidth) (hy : y < t.screenHeight) :
    colorOffset x y = 2 * (y * screenWidth + x) + 1 := by
  have hh := screenHeight_le t
  simp only [screenWidth] at hx
  have hcast : (2 * ((y : Int) * screenWidth + x) + 1)
      = ((2 * (y * screenWidth + x) + 1 : Nat) : Int) := by
    push_cast
    rfl
  rw [colorOffset, hcast, toUnsigned_natCast (by simp only [screenWidth]; omega)]

/-! ## What drawing leaves alone -/

/-- Every access was to a byte of the screen. -/
def InRange (t : Target) (c : Console) : Prop :=
  ∀ off ∈ c.accessed, off < 2 * screenWidth * t.screenHeight

/-- From `c` to `c'` cells have been read and written, on the screen. -/
structure Draws (t : Target) (c c' : Console) : Prop where
  screenX : c'.screenX = c.screenX
  screenY : c'.screenY = c.screenY
  crtc : c'.crtc = c.crtc
  accessed : c.accessed ⊆ c'.accessed
  inRange : InRange t c → InRange t c'

theorem Draws.refl (t : Target) (c : Console) : Draws t c c :=
  ⟨rfl, rfl, rfl, List.Subset.refl _, id⟩

theorem Draws.trans {c₁ c₂ c₃ : Console} (h : Draws t c₁ c₂) (h' : Draws t c₂ c₃) :
    Draws t c₁ c₃ where
  screenX := h'.screenX.trans h.screenX
  screenY := h'.screenY.trans h.screenY
  crtc := h'.crtc.trans h.crtc
  accessed := List.Subset.trans h.accessed h'.accessed
  inRange := fun hc => h'.inRange (h.inRange hc)

theorem InRange.cons {off : Nat} (h : InRange t c) (hacc : c'.accessed = off :: c.accessed)
    (hoff : off < 2 * screenWidth * t.screenHeight) : InRange t c' := by
  intro o ho
  rw [hacc] at ho
  rcases List.mem_cons.mp ho with rfl | ho
  · exact hoff
  · exact h o ho

section

variable {x y : Nat} (hx : x < screenWidth) (hy : y < t.screenHeight)
include hx hy

theorem chrOffset_lt : chrOffset x y < 2 * screenWidth * t.screenHeight := by
  rw [chrOffset_eq hx hy]
  simp only [screenWidth] at hx ⊢
  omega

theorem colorOffset_lt : colorOffset x y < 2 * screenWidth * t.screenHeight := by
  rw [colorOffset_eq hx hy]
  simp only [screenWidth] at hx ⊢
  omega

theorem putchr_draws (chr : UInt8) (c : Console) : Draws t c (putchr x y chr c) :=
  ⟨rfl, rfl, rfl, List.subset_cons_self _ _, fun h => h.cons rfl (chrOffset_lt hx hy)⟩

theorem putcolor_draws (color : UInt8) (c : Console) : Draws t c (putcolor x y color c) :=
  ⟨rfl, rfl, rfl, List.subset_cons_self _ _, fun h => h.cons rfl (colorOffset_lt hx hy)⟩

theorem getchr_draws (c : Console) : Draws t c (getchr x y c).2 :=
  ⟨rfl, rfl, rfl, List.subset_cons_self _ _, fun h => h.cons rfl (chrOffset_lt hx hy)⟩

theorem getcolor_draws (c : Console) : Draws t c (getcolor x y c).2 :=
  ⟨rfl, rfl, rfl, List.subset_cons_self _ _, fun h => h.cons rfl (colorOffset_lt hx hy)⟩

theorem blankCell_draws (c : Console) : Draws t c (blankCell x y c) :=
  (putchr_draws hx hy 0 c).trans (putcolor_draws hx hy defaultColor _)

theorem copyCell_draws {lines d : Nat} (hd : y = d + lines) (c : Console) :
    Draws t c (copyCell lines x y c) := by
  have hback : (y : Int) - lines = d := by omega
  rw [copyCell, hback]
  have hd' : d < t.screenHeight := by omega
  have h₁ := getchr_draws hx hy c
  have h₂ := putchr_draws hx hd' (getchr x y c).1 (getchr x y c).2
  have h₃ := getcolor_draws hx hy (putchr x d (getchr x y c).1 (getchr x y c).2)
  exact ((h₁.trans h₂).trans h₃).trans (putcolor_draws hx hd' _ _)

end

theorem blankRow_draws {y n : Nat} (hy : y < t.screenHeight) (hn : n ≤ screenWidth)
    (c : Console) : Draws t c (blankRow y n c) := by
  induction n with
  | zero => exact Draws.refl t c
  | succ n ih => exact (ih (by omega)).trans (blankCell_draws (by omega) hy _)

theorem blankRows_draws (lo n : Nat) (hn : lo + n ≤ t.screenHeight) (c : Console) :
    Draws t c (blankRows lo n c) := by
  induction n with
  | zero => exact Draws.refl t c
  | succ n ih =>
    have hrow : (lo : Int) + n = ((lo + n : Nat) : Int) := by push_cast; rfl
    rw [blankRows, hrow]
    exact (ih (by omega)).trans (blankRow_draws (by omega) (Nat.le_refl _) _)

theorem copyRow_draws {lines y d n : Nat} (hd : y = d + lines) (hy : y < t.screenHeight)
    (hn : n ≤ screenWidth) (c : Console) : Draws t c (copyRow lines y n c) := by
  induction n with
  | zero => exact Draws.refl t c
  | succ n ih => exact (ih (by omega)).trans (copyCell_draws (by omega) hy hd _)

theorem copyRows_draws (lines n : Nat) (hn : lines + n ≤ t.screenHeight) (c : Console) :
    Draws t c (copyRows lines lines n c) := by
  induction n with
  | zero => exact Draws.refl t c
  | succ n ih =>
    have hrow : (lines : Int) + n = ((lines + n : Nat) : Int) := by push_cast; rfl
    rw [copyRows, hrow]
    exact (ih (by omega)).trans
      (copyRow_draws (Nat.add_comm lines n) (by omega) (Nat.le_refl _) _)

/-! ## Cells -/

structure Cell where
  chr : UInt8
  color : UInt8
  deriving DecidableEq

/-- The cell in column `x` of row `y`. -/
def Console.cell (c : Console) (x y : Nat) : Cell :=
  ⟨c.screenBuffer (2 * (y * screenWidth + x)), c.screenBuffer (2 * (y * screenWidth + x) + 1)⟩

def blank : Cell := ⟨0, defaultColor⟩

/-- Different cells have different offsets. -/
theorem cell_offset_inj {x x' y y' : Nat} (hx : x < screenWidth) (hx' : x' < screenWidth) :
    2 * (y' * screenWidth + x') = 2 * (y * screenWidth + x) ↔ x' = x ∧ y' = y := by
  simp only [screenWidth] at *
  omega

section

variable {x y : Nat} (hx : x < screenWidth) (hy : y < t.screenHeight)
include hx hy

theorem cell_putchr (chr : UInt8) (c : Console) {x' : Nat} (hx' : x' < screenWidth) (y' : Nat) :
    (putchr x y chr c).cell x' y'
      = if x' = x ∧ y' = y then ⟨chr, (c.cell x y).color⟩ else c.cell x' y' := by
  rw [putchr, chrOffset_eq hx hy, Console.cell, store]
  dsimp only
  have hodd : 2 * (y' * screenWidth + x') + 1 ≠ 2 * (y * screenWidth + x) := by omega
  rw [Function.update_of_ne hodd]
  by_cases h : x' = x ∧ y' = y
  · obtain ⟨rfl, rfl⟩ := h
    rw [if_pos ⟨rfl, rfl⟩, Function.update_self]
    rfl
  · rw [if_neg h, Function.update_of_ne fun e => h ((cell_offset_inj hx hx').mp e)]
    rfl

theorem cell_putcolor (color : UInt8) (c : Console) {x' : Nat} (hx' : x' < screenWidth)
    (y' : Nat) : (putcolor x y color c).cell x' y'
      = if x' = x ∧ y' = y then ⟨(c.cell x y).chr, color⟩ else c.cell x' y' := by
  rw [putcolor, colorOffset_eq hx hy, Console.cell, store]
  dsimp only
  have heven : 2 * (y' * screenWidth + x') ≠ 2 * (y * screenWidth + x) + 1 := by omega
  rw [Function.update_of_ne heven]
  by_cases h : x' = x ∧ y' = y
  · obtain ⟨rfl, rfl⟩ := h
    rw [if_pos ⟨rfl, rfl⟩, Function.update_self]
    rfl
  · have hne : 2 * (y' * screenWidth + x') + 1 ≠ 2 * (y * screenWidth + x) + 1 := by
      intro e
      exact h ((cell_offset_inj hx hx').mp (by omega))
    rw [if_neg h, Function.update_of_ne hne]
    rfl

theorem cell_blankCell (c : Console) {x' : Nat} (hx' : x' < screenWidth) (y' : Nat) :
    (blankCell x y c).cell x' y' = if x' = x ∧ y' = y then blank else c.cell x' y' := by
  rw [blankCell, cell_putcolor hx hy _ _ hx']
  split
  · rw [cell_putchr hx hy _ _ hx, if_pos ⟨rfl, rfl⟩]
    rfl
  · rename_i h
    rw [cell_putchr hx hy _ _ hx', if_neg h]

end

/-! ## What the loops draw -/

section

variable {x' : Nat} (hx' : x' < screenWidth) (y' : Nat)
include hx'

theorem cell_blankRow {y n : Nat} (hy : y < t.screenHeight) (hn : n ≤ screenWidth)
    (c : Console) : (blankRow y n c).cell x' y'
      = if x' < n ∧ y' = y then blank else c.cell x' y' := by
  induction n with
  | zero => simp [blankRow]
  | succ n ih =>
    rw [blankRow, cell_blankCell (by omega) hy _ hx', ih (by omega)]
    by_cases hrow : y' = y
    · rcases Nat.lt_trichotomy x' n with hlt | rfl | hgt
      · rw [if_neg (by omega), if_pos ⟨hlt, hrow⟩, if_pos ⟨by omega, hrow⟩]
      · rw [if_pos ⟨rfl, hrow⟩, if_pos ⟨by omega, hrow⟩]
      · rw [if_neg (by omega), if_neg (by omega), if_neg (by omega)]
    · rw [if_neg fun e => hrow e.2, if_neg fun e => hrow e.2, if_neg fun e => hrow e.2]

theorem cell_blankRows (lo n : Nat) (hn : lo + n ≤ t.screenHeight) (c : Console) :
    (blankRows lo n c).cell x' y'
      = if lo ≤ y' ∧ y' < lo + n then blank else c.cell x' y' := by
  induction n with
  | zero => rw [blankRows, if_neg (by omega)]
  | succ n ih =>
    have hrow : (lo : Int) + n = ((lo + n : Nat) : Int) := by push_cast; rfl
    rw [blankRows, hrow, cell_blankRow hx' y' (t := t) (by omega) (Nat.le_refl _), ih (by omega)]
    by_cases hlast : y' = lo + n
    · rw [if_pos ⟨hx', hlast⟩, if_pos (by omega)]
    · rw [if_neg fun e => hlast e.2]
      by_cases hin : lo ≤ y' ∧ y' < lo + n
      · rw [if_pos hin, if_pos (by omega)]
      · rw [if_neg hin, if_neg (by omega)]

end

/-! ## Copying -/

/-- `screenBuffer[m.dst] = screenBuffer[m.src]`. -/
def moveByte (c : Console) (m : Move Nat) : Console :=
  let (value, c) := load m.src c
  store m.dst value c

theorem foldl_moveByte (ms : List (Move Nat)) (c : Console) :
    (ms.foldl moveByte c).screenBuffer = Move.runAll ms c.screenBuffer := by
  induction ms generalizing c with
  | nil => rfl
  | cons m ms ih =>
    rw [List.foldl_cons, ih]
    rfl

/-- A row is copied byte by byte. -/
theorem copyRow_eq_moves {lines y d n : Nat} (hd : y = d + lines) (hy : y < t.screenHeight)
    (hn : n ≤ screenWidth) (c : Console) : copyRow lines y n c
      = (Move.shift (2 * screenWidth * lines) (2 * screenWidth * d) (2 * n)).foldl moveByte c := by
  have hback : (y : Int) - lines = d := by omega
  have hd' : d < t.screenHeight := by omega
  induction n with
  | zero => rfl
  | succ n ih =>
    have hstep : ∀ c, copyCell lines n y c
        = moveByte (moveByte c ⟨chrOffset n y, chrOffset n d⟩)
            ⟨colorOffset n y, colorOffset n d⟩ := by
      intro c
      rw [copyCell, hback]
      rfl
    have hfrom : 2 * (y * screenWidth + n)
        = 2 * screenWidth * d + 2 * n + 2 * screenWidth * lines := by
      rw [hd, Nat.add_mul]
      ring
    have hto : 2 * (d * screenWidth + n) = 2 * screenWidth * d + 2 * n := by ring
    rw [copyRow, ih (by omega), hstep, chrOffset_eq (by omega) hy,
      chrOffset_eq (t := t) (by omega) hd', colorOffset_eq (by omega) hy,
      colorOffset_eq (t := t) (by omega) hd', hfrom, hto, Nat.mul_succ, Move.shift_add,
      List.foldl_append]
    generalize List.foldl moveByte c _ = c
    rw [show 2 * screenWidth * d + 2 * n + 2 * screenWidth * lines + 1
      = 2 * screenWidth * d + 2 * n + 1 + 2 * screenWidth * lines by omega]
    rfl

/-- **The copying loop** moves bytes of the screen to lower offsets, the lowest
first. -/
theorem copyRows_eq_moves {lines n : Nat} (hn : lines + n ≤ t.screenHeight) (c : Console) :
    copyRows lines lines n c
      = (Move.shift (2 * screenWidth * lines) 0 (2 * screenWidth * n)).foldl moveByte c := by
  induction n with
  | zero => rfl
  | succ n ih =>
    have hrow : (lines : Int) + n = ((lines + n : Nat) : Int) := by push_cast; rfl
    rw [copyRows, hrow, ih (by omega),
      copyRow_eq_moves (t := t) (Nat.add_comm lines n) (by omega) (Nat.le_refl _), Nat.mul_succ,
      Move.shift_add, List.foldl_append, Nat.zero_add]

/-- The rows that have been copied are the old ones further down, the others
are as they were. -/
theorem cell_copyRows {x' : Nat} (hx' : x' < screenWidth) (y' : Nat) {lines n : Nat}
    (hn : lines + n ≤ t.screenHeight) (c : Console) :
    (copyRows lines lines n c).cell x' y'
      = if y' < n then c.cell x' (y' + lines) else c.cell x' y' := by
  have hbyte : ∀ k < 2, (copyRows lines lines n c).screenBuffer (2 * (y' * screenWidth + x') + k)
      = if y' < n then c.screenBuffer (2 * ((y' + lines) * screenWidth + x') + k)
        else c.screenBuffer (2 * (y' * screenWidth + x') + k) := by
    intro k hk
    have hfrom : 2 * (y' * screenWidth + x') + k + 2 * screenWidth * lines
        = 2 * ((y' + lines) * screenWidth + x') + k := by ring
    have hcopied : (0 ≤ 2 * (y' * screenWidth + x') + k ∧
        2 * (y' * screenWidth + x') + k < 0 + 2 * screenWidth * n) ↔ y' < n := by
      simp only [screenWidth] at hx' ⊢
      omega
    rw [copyRows_eq_moves hn, foldl_moveByte, Move.runAll_shift, hfrom]
    by_cases hin : y' < n
    · rw [if_pos (hcopied.mpr hin), if_pos hin]
    · rw [if_neg fun e => hin (hcopied.mp e), if_neg hin]
  have hchr := hbyte 0 (by decide)
  have hcolor := hbyte 1 (by decide)
  rw [Nat.add_zero, Nat.add_zero] at hchr
  rw [Console.cell, hchr, hcolor]
  by_cases hin : y' < n
  · rw [if_pos hin, if_pos hin, if_pos hin]
    rfl
  · rw [if_neg hin, if_neg hin, if_neg hin]
    rfl

/-! ## `scrollback` and `setcursor` -/

theorem rowCount_natCast (t : Target) (lo : Nat) : rowCount t lo = t.screenHeight - lo := by
  rw [rowCount, if_neg (by omega), Int.toNat_natCast]

/-- The two loops of `scrollback`, by natural numbers. -/
theorem scrollback_eq {lines : Nat} (h : lines ≤ t.screenHeight) (c : Console) :
    scrollback t lines c = { blankRows ((t.screenHeight - lines : Nat) : Int) lines
        (copyRows lines lines (t.screenHeight - lines) c) with
      screenY := c.screenY - lines } := by
  have hstart : (t.screenHeight : Int) - lines = ((t.screenHeight - lines : Nat) : Int) := by omega
  have hcopy := copyRows_draws (t := t) lines (t.screenHeight - lines) (by omega) c
  have hblank := blankRows_draws (t := t) (t.screenHeight - lines) lines (by omega)
    (copyRows lines lines (t.screenHeight - lines) c)
  have hleft : t.screenHeight - (t.screenHeight - lines) = lines := by omega
  rw [scrollback, hstart]
  dsimp only
  rw [rowCount_natCast, rowCount_natCast, hleft, hblank.screenY, hcopy.screenY]

/-- **What `scrollback` leaves**: the rows moved up, the rest blank. -/
structure Scrolled (t : Target) (lines : Nat) (c c' : Console) : Prop where
  screenX : c'.screenX = c.screenX
  screenY : c'.screenY = c.screenY - lines
  crtc : c'.crtc = c.crtc
  accessed : c.accessed ⊆ c'.accessed
  inRange : InRange t c → InRange t c'
  cell : ∀ x y, x < screenWidth → y < t.screenHeight →
    c'.cell x y = if y + lines < t.screenHeight then c.cell x (y + lines) else blank

theorem scrollback_scrolled {lines : Nat} (h : lines ≤ t.screenHeight) (c : Console) :
    Scrolled t lines c (scrollback t lines c) := by
  have hdraws := (copyRows_draws (t := t) lines (t.screenHeight - lines) (by omega) c).trans
    (blankRows_draws (t.screenHeight - lines) lines (by omega) _)
  rw [scrollback_eq h]
  constructor
  · exact hdraws.screenX
  · rfl
  · exact hdraws.crtc
  · exact hdraws.accessed
  · exact hdraws.inRange
  · intro x y hx hy
    have hblank := cell_blankRows (t := t) hx y (t.screenHeight - lines) lines (by omega)
      (copyRows lines lines (t.screenHeight - lines) c)
    refine Eq.trans (b := (blankRows ((t.screenHeight - lines : Nat) : Int) lines
      (copyRows lines lines (t.screenHeight - lines) c)).cell x y) rfl ?_
    rw [hblank, cell_copyRows hx y (t := t) (by omega) c]
    by_cases hbottom : y + lines < t.screenHeight
    · rw [if_neg (by omega), if_pos (by omega), if_pos hbottom]
    · rw [if_pos (by omega), if_neg hbottom]

/-- Where the hardware cursor is, once it is set. -/
theorem setcursor_cursor {x y : Nat} (hx : x < screenWidth) (hy : y < t.screenHeight)
    (c : Console) : (setcursor x y c).crtc.cursor = y * screenWidth + x := by
  have hh := screenHeight_le t
  simp only [screenWidth] at hx
  have hpos : toUnsigned ((y : Int) * screenWidth + x) = y * screenWidth + x := by
    have hcast : ((y : Int) * screenWidth + x) = ((y * screenWidth + x : Nat) : Int) := by
      push_cast
      rfl
    rw [hcast, toUnsigned_natCast (by simp only [screenWidth]; omega)]
  have hlow : (setcursor x y c).crtc.regs 0x0F
      = UInt8.ofNat ((y * screenWidth + x) % 256) := by
    rw [← hpos]
    rfl
  have hhigh : (setcursor x y c).crtc.regs 0x0E
      = UInt8.ofNat ((y * screenWidth + x) / 256 % 256) := by
    rw [← hpos]
    rfl
  rw [Crtc.cursor, hlow, hhigh, UInt8.toNat_ofNat', UInt8.toNat_ofNat']
  simp only [screenWidth]
  omega

/-! ## `settle` -/

/-- Inside the screen there is nothing to do but to move the cursor. -/
theorem settle_within {x y : Nat} (hX : c.screenX = x) (hY : c.screenY = y)
    (hx : x < screenWidth) (hy : y < t.screenHeight) : settle t c = setcursor x y c := by
  have hh := screenHeight_le t
  have hcol : ¬ toUnsigned c.screenX ≥ screenWidth := by
    simp only [screenWidth] at hx ⊢
    rw [hX, toUnsigned_natCast (by omega)]
    omega
  have hrow : ¬ toUnsigned c.screenY ≥ t.screenHeight := by
    rw [hY, toUnsigned_natCast (by omega)]
    omega
  rw [settle, if_neg hcol, if_neg hrow, hX, hY]

/-- A cursor behind the last column goes to the next line. -/
theorem settle_wraps (hX : c.screenX = screenWidth) :
    settle t c = settle t { c with screenY := c.screenY + 1, screenX := 0 } := by
  have hcol : toUnsigned c.screenX ≥ screenWidth := by
    rw [hX]
    exact Nat.le_of_eq (toUnsigned_natCast (by decide)).symm
  have hzero : ¬ toUnsigned 0 ≥ screenWidth := by decide
  rw [settle, settle, if_pos hcol, if_neg hzero]

/-- A cursor below the last row scrolls the screen. -/
theorem settle_scrolls {x : Nat} (hX : c.screenX = x) (hY : c.screenY = t.screenHeight)
    (hx : x < screenWidth) : settle t c
      = setcursor x ((t.screenHeight - 1 : Nat) : Int) (scrollback t 1 c) := by
  have hh := screenHeight_le t
  have hpos := screenHeight_pos t
  have hcol : ¬ toUnsigned c.screenX ≥ screenWidth := by
    simp only [screenWidth] at hx ⊢
    rw [hX, toUnsigned_natCast (by omega)]
    omega
  have hrow : toUnsigned c.screenY ≥ t.screenHeight := by
    rw [hY]
    exact Nat.le_of_eq (toUnsigned_natCast (by omega)).symm
  have hscrolled := scrollback_scrolled (t := t) (Nat.succ_le_of_lt hpos) c
  have hx' : (scrollback t 1 c).screenX = x := by rw [← hX]; exact hscrolled.screenX
  have hy' : (scrollback t 1 c).screenY = ((t.screenHeight - 1 : Nat) : Int) := by
    have h : (scrollback t 1 c).screenY = c.screenY - 1 := hscrolled.screenY
    rw [h, hY]
    omega
  rw [settle, if_neg hcol, if_pos hrow, hx', hy']

/-- No access is forgotten. -/
theorem settle_accessed (t : Target) (c : Console) : c.accessed ⊆ (settle t c).accessed := by
  have hpos := screenHeight_pos t
  have hscroll : ∀ c : Console, c.accessed ⊆ (scrollback t 1 c).accessed := fun c =>
    (scrollback_scrolled (t := t) (Nat.succ_le_of_lt hpos) c).accessed
  simp only [settle, setcursor]
  split
  · split
    · exact hscroll { c with screenY := c.screenY + 1, screenX := 0 }
    · exact List.Subset.refl _
  · split
    · exact hscroll c
    · exact List.Subset.refl _

end Netclover.Stdio
