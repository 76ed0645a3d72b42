import Mathlib.Tactic.Ring

/-!
# The text console (`libc/stdio`)

The text screen as `putc` and its helpers see it: the bytes of `screenBuffer`,
the coordinates, and the CRT controller behind ports 0x3D4 and 0x3D5. The
screen sizes of `vars.c` are `unsigned` and the coordinates are `int`, so
comparisons and offsets are unsigned (`toUnsigned`).

`accessed` is no variable of the source: it lists the offsets into
`screenBuffer` that have been read or written.
-/

namespace Netclover.Stdio

/-! ## `vars.c` -/

/-- What the library is built for: the bootloader or the kernel. -/
inductive Target where
  | i686
  | x86_64
  deriving DecidableEq, Repr

def screenWidth : Nat := 80

def Target.screenHeight : Target → Nat
  | .i686 => 24
  | .x86_64 => 25

def defaultColor : UInt8 := 0x7

/-- The CRT controller: the register that is selected, and the registers. -/
structure Crtc where
  index : UInt8
  regs : UInt8 → UInt8

structure Console where
  screenBuffer : Nat → UInt8
  screenX : Int
  screenY : Int
  crtc : Crtc
  accessed : List Nat

/-- The conversion from `int` to `unsigned`. -/
def toUnsigned (i : Int) : Nat := (i % 2 ^ 32).toNat

/-! ## `setcursor.c` -/

/-- `outb`, as far as the CRT controller is concerned. -/
def outb (port : UInt16) (value : UInt8) (crtc : Crtc) : Crtc :=
  if port = 0x3D4 then { crtc with index := value }
  else if port = 0x3D5 then { crtc with regs := Function.update crtc.regs crtc.index value }
  else crtc

/-- The cursor location registers: high byte in 0x0E, low byte in 0x0F. -/
def Crtc.cursor (crtc : Crtc) : Nat := (crtc.regs 0x0E).toNat * 256 + (crtc.regs 0x0F).toNat

def setcursor (x y : Int) (c : Console) : Console :=
  let pos := toUnsigned (y * screenWidth + x)
  let crtc := outb 0x3D4 0x0F c.crtc
  let crtc := outb 0x3D5 (UInt8.ofNat (pos % 256)) crtc
  let crtc := outb 0x3D4 0x0E crtc
  let crtc := outb 0x3D5 (UInt8.ofNat (pos / 256 % 256)) crtc
  { c with crtc }

/-! ## `putchr.c`, `putcolor.c`, `getchr.c`, `getcolor.c` -/

def chrOffset (x y : Int) : Nat := toUnsigned (2 * (y * screenWidth + x))

def colorOffset (x y : Int) : Nat := toUnsigned (2 * (y * screenWidth + x) + 1)

/-- `screenBuffer[off] = value`. -/
def store (off : Nat) (value : UInt8) (c : Console) : Console :=
  { c with
    screenBuffer := Function.update c.screenBuffer off value
    accessed := off :: c.accessed }

/-- `screenBuffer[off]`. -/
def load (off : Nat) (c : Console) : UInt8 × Console :=
  (c.screenBuffer off, { c with accessed := off :: c.accessed })

def putchr (x y : Int) (chr : UInt8) : Console → Console := store (chrOffset x y) chr

def putcolor (x y : Int) (color : UInt8) : Console → Console := store (colorOffset x y) color

def getchr (x y : Int) : Console → UInt8 × Console := load (chrOffset x y)

def getcolor (x y : Int) : Console → UInt8 × Console := load (colorOffset x y)

/-! ## Loops over the screen -/

/-- How often `for (int y = lo; y < SCREEN_HEIGHT; y++)` runs. A negative `y`
compares as a large number. -/
def rowCount (t : Target) (lo : Int) : Nat := if lo < 0 then 0 else t.screenHeight - lo.toNat

/-- The body of the copying loop. -/
def copyCell (lines x y : Int) (c : Console) : Console :=
  let (chr, c) := getchr x y c
  let c := putchr x (y - lines) chr c
  let (color, c) := getcolor x y c
  putcolor x (y - lines) color c

/-- The first `n` columns of row `y`. -/
def copyRow (lines y : Int) : Nat → Console → Console
  | 0, c => c
  | n + 1, c => copyCell lines n y (copyRow lines y n c)

/-- The first `n` rows from `lo` on. -/
def copyRows (lines lo : Int) : Nat → Console → Console
  | 0, c => c
  | n + 1, c => copyRow lines (lo + n) screenWidth (copyRows lines lo n c)

/-- The body of the clearing loops. -/
def blankCell (x y : Int) (c : Console) : Console :=
  putcolor x y defaultColor (putchr x y 0 c)

def blankRow (y : Int) : Nat → Console → Console
  | 0, c => c
  | n + 1, c => blankCell n y (blankRow y n c)

def blankRows (lo : Int) : Nat → Console → Console
  | 0, c => c
  | n + 1, c => blankRow (lo + n) screenWidth (blankRows lo n c)

/-! ## `clrscr.c` and `putc.c` -/

def clrscr (t : Target) (c : Console) : Console :=
  let c := blankRows 0 (rowCount t 0) c
  let c := { c with screenX := 0, screenY := 0 }
  setcursor c.screenX c.screenY c

def scrollback (t : Target) (lines : Int) (c : Console) : Console :=
  let c := copyRows lines lines (rowCount t lines) c
  let start := t.screenHeight - lines
  let c := blankRows start (rowCount t start) c
  { c with screenY := c.screenY - lines }

/-- What follows the `switch`. -/
def settle (t : Target) (c : Console) : Console :=
  let c := if toUnsigned c.screenX ≥ screenWidth
    then { c with screenY := c.screenY + 1, screenX := 0 } else c
  let c := if toUnsigned c.screenY ≥ t.screenHeight then scrollback t 1 c else c
  setcursor c.screenX c.screenY c

/-- The `default` case. -/
def putcDefault (t : Target) (chr : UInt8) (c : Console) : Console :=
  let c := putchr c.screenX c.screenY chr c
  settle t { c with screenX := c.screenX + 1 }

/-- `for (int i = 0; i < 4 - (screenX % 4); i++) putc(' ')`, from `i` on. The
bound is at most 7, so seven passes are enough. -/
def tabLoop (t : Target) : Nat → Int → Console → Console
  | 0, _, c => c
  | n + 1, i, c =>
    if i < 4 - Int.tmod c.screenX 4 then tabLoop t n (i + 1) (putcDefault t 0x20 c) else c

def putc (t : Target) (c : Console) (chr : UInt8) : Console :=
  if chr = 0x0A then settle t { c with screenX := 0, screenY := c.screenY + 1 }
  else if chr = 0x0D then settle t { c with screenX := 0 }
  else if chr = 0x09 then settle t (tabLoop t 7 0 c)
  else if chr = 0x08 then
    let c := if c.screenX = 0
      then { c with screenX := screenWidth - 1, screenY := c.screenY - 1 }
      else { c with screenX := c.screenX - 1 }
    settle t (putchr c.screenX c.screenY 0x20 c)
  else putcDefault t chr c

/-- The calls of `putc` in the tab loop are `default` calls. -/
theorem putc_space (t : Target) (c : Console) : putc t c 0x20 = putcDefault t 0x20 c := rfl

/-- Seven passes are enough: the eighth would find the loop over. -/
theorem tabLoop_succ (t : Target) : ∀ (n : Nat) (i : Int) (c : Console), 7 ≤ n + i →
    tabLoop t (n + 1) i c = tabLoop t n i c := by
  intro n
  induction n with
  | zero =>
    intro i c hi
    have hmod := Int.lt_tmod_of_pos c.screenX (b := 4) (by decide)
    have hover : ¬ i < 4 - Int.tmod c.screenX 4 := by omega
    rw [tabLoop, tabLoop, if_neg hover]
  | succ n ih =>
    intro i c hi
    by_cases hgo : i < 4 - Int.tmod c.screenX 4
    · rw [tabLoop, if_pos hgo, ih (i + 1) _ (by omega), tabLoop, if_pos hgo]
    · rw [tabLoop, if_neg hgo, tabLoop, if_neg hgo]

/-! ## `puts.c` -/

/-- `puts` of the characters from `str` on. -/
def puts (t : Target) : List UInt8 → Console → Console
  | [], c => c
  | chr :: str, c => if chr = 0 then c else puts t str (putc t c chr)

end Netclover.Stdio
