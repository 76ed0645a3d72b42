import Netclover.Stdio.Screen

/-!
# The console as a page

What the console is for, without a bottom: a page of unbounded length that is
written from left to right and from top to bottom (`Canvas`). The screen is a
window on the last rows of the page that have been reached (`Shows`), and
`putc` is writing on the page, seen through the window.
-/

namespace Netclover.Stdio

/-! ## Pages -/

/-- A page and the place where writing goes on. -/
structure Canvas where
  chr : Nat → Nat → UInt8
  row : Nat
  col : Nat

namespace Canvas

def empty : Canvas := ⟨fun _ _ => 0, 0, 0⟩

def newline (p : Canvas) : Canvas := { p with row := p.row + 1, col := 0 }

/-- Put a character down and move on, to the next line if this one is full. -/
def put (p : Canvas) (chr : UInt8) : Canvas :=
  let p := { p with
    chr := Function.update p.chr p.row (Function.update (p.chr p.row) p.col chr)
    col := p.col + 1 }
  if p.col = screenWidth then p.newline else p

def write (p : Canvas) (chr : UInt8) : Canvas :=
  if chr = 0x0A then p.newline
  else if chr = 0x0D then { p with col := 0 }
  else p.put chr

/-- The first row of the window. -/
def top (t : Target) (p : Canvas) : Nat := max (t.screenHeight - 1) p.row - (t.screenHeight - 1)

end Canvas

variable {t : Target} {c : Console} {p : Canvas}

/-! ## The window -/

/-- The screen shows the page from row `top` on. The cursor may be one row
too far down, and the hardware cursor anywhere. -/
structure Window (t : Target) (top : Nat) (p : Canvas) (c : Console) : Prop where
  screenX : c.screenX = p.col
  screenY : c.screenY + top = p.row
  reached : top ≤ p.row
  blank : ∀ row x, p.row < row → p.chr row x = 0
  cell : ∀ x y, x < screenWidth → y < t.screenHeight →
    c.cell x y = ⟨p.chr (top + y) x, defaultColor⟩

/-- The screen is the window on the page, with the cursor where writing goes
on. -/
structure Shows (t : Target) (p : Canvas) (c : Console) : Prop extends
    Window t (p.top t) p c where
  col : p.col < screenWidth
  cursor : (c.crtc.cursor : Int) = c.screenY * screenWidth + c.screenX

theorem Canvas.top_le (t : Target) (p : Canvas) : p.row < p.top t + t.screenHeight := by
  have hpos := screenHeight_pos t
  rw [Canvas.top]
  omega

/-- One row down: the window stays, or the row is the one below it. -/
theorem Canvas.top_succ {q : Canvas} (h : q.row = p.row + 1) :
    p.top t = q.top t ∨ q.row = p.top t + t.screenHeight := by
  have hpos := screenHeight_pos t
  rw [Canvas.top, Canvas.top, h]
  omega

/-- A cursor inside the window stays where it is. -/
theorem Window.settle_inside (h : Window t (p.top t) p c) (hcol : p.col < screenWidth) :
    Shows t p (Stdio.settle t c) := by
  have hreached := h.reached
  have hin : p.row - p.top t < t.screenHeight := by
    have hle := p.top_le t
    omega
  have hY : c.screenY = ((p.row - p.top t : Nat) : Int) := by
    have hscreenY := h.screenY
    omega
  have hcursor := setcursor_cursor hcol hin c
  rw [settle_within h.screenX hY hcol hin]
  refine ⟨⟨h.screenX, h.screenY, hreached, h.blank, h.cell⟩, hcol, ?_⟩
  rw [hcursor]
  show _ = c.screenY * screenWidth + c.screenX
  rw [hY, h.screenX]
  push_cast
  rfl

/-- A cursor below the window scrolls it up to its row, which has not been
written to. -/
theorem Window.settle_below {top : Nat} (h : Window t top p c) (hcol : p.col < screenWidth)
    (hbehind : p.row = top + t.screenHeight) (hrow : ∀ x, p.chr p.row x = 0) :
    Shows t p (Stdio.settle t c) := by
  have hpos := screenHeight_pos t
  have hscreenY := h.screenY
  have hY : c.screenY = t.screenHeight := by omega
  have hnext : p.top t = top + 1 := by
    rw [Canvas.top]
    omega
  have hscrolled := scrollback_scrolled (t := t) (Nat.succ_le_of_lt hpos) c
  have hX₁ : (scrollback t 1 c).screenX = p.col := hscrolled.screenX.trans h.screenX
  have hY₁ : (scrollback t 1 c).screenY = ((t.screenHeight - 1 : Nat) : Int) := by
    have hup : (scrollback t 1 c).screenY = c.screenY - 1 := hscrolled.screenY
    rw [hup, hY]
    omega
  have hcursor := setcursor_cursor (t := t) hcol (by omega : t.screenHeight - 1 < t.screenHeight)
    (scrollback t 1 c)
  rw [settle_scrolls h.screenX hY hcol]
  refine ⟨⟨hX₁, ?_, ?_, h.blank, ?_⟩, hcol, ?_⟩
  · show (scrollback t 1 c).screenY + _ = _
    rw [hY₁, hnext]
    omega
  · rw [hnext]
    omega
  · intro x y hx hy
    have hcell : (scrollback t 1 c).cell x y = _ := hscrolled.cell x y hx hy
    rw [hnext]
    refine Eq.trans (b := (scrollback t 1 c).cell x y) rfl ?_
    rw [hcell]
    by_cases hbottom : y + 1 < t.screenHeight
    · rw [if_pos hbottom, h.cell x (y + 1) hx hbottom, Nat.add_assoc top 1 y, Nat.add_comm 1 y]
    · -- the row that comes into view is the one of the cursor
      have hnew : top + 1 + y = p.row := by omega
      rw [if_neg hbottom, hnew, hrow x]
      rfl
  · rw [hcursor]
    show _ = (scrollback t 1 c).screenY * screenWidth + (scrollback t 1 c).screenX
    rw [hX₁, hY₁]
    push_cast
    rfl

/-! ## Writing -/

/-- A cursor at the start of the next line. -/
theorem Window.newline {top : Nat} (h : Window t top p c) :
    Window t top p.newline { c with screenX := 0, screenY := c.screenY + 1 } where
  screenX := rfl
  screenY := by
    have hY := h.screenY
    show c.screenY + 1 + (top : Int) = ((p.row + 1 : Nat) : Int)
    omega
  reached := Nat.le_succ_of_le h.reached
  blank row x hrow := h.blank row x (Nat.lt_of_succ_lt hrow)
  cell := h.cell

/-- The next line comes into view. -/
theorem Window.settle_newline (h : Window t (p.top t) p c) :
    Shows t p.newline (Stdio.settle t { c with screenX := 0, screenY := c.screenY + 1 }) := by
  have hcol : p.newline.col < screenWidth := by
    show 0 < screenWidth
    decide
  rcases Canvas.top_succ (t := t) (p := p) (q := p.newline) rfl with hsame | hbehind
  · have hwindow := h.newline
    rw [hsame] at hwindow
    exact hwindow.settle_inside hcol
  · exact h.newline.settle_below hcol hbehind fun x =>
      h.blank (p.row + 1) x (Nat.lt_succ_self p.row)

/-- The character on the page and on the screen, and the cursor behind it. -/
theorem Shows.window_put (h : Shows t p c) (hrow : p.row - p.top t < t.screenHeight) (chr : UInt8) :
    Window t (p.top t) { p with
        chr := Function.update p.chr p.row (Function.update (p.chr p.row) p.col chr)
        col := p.col + 1 }
      { putchr p.col ((p.row - p.top t : Nat) : Int) chr c with screenX := c.screenX + 1 } := by
  have hdraws := putchr_draws h.col hrow chr c
  have hreached := h.reached
  constructor
  · show c.screenX + 1 = _
    rw [h.screenX]
    rfl
  · exact (congrArg (· + (p.top t : Int)) hdraws.screenY).trans h.screenY
  · exact hreached
  · intro row x hbelow
    have hne : row ≠ p.row := by
      intro e
      rw [e] at hbelow
      exact Nat.lt_irrefl _ hbelow
    dsimp only
    rw [Function.update_of_ne hne]
    exact h.blank row x hbelow
  · intro x y hx hy
    have hcell := cell_putchr h.col hrow chr c hx y
    refine Eq.trans (b := (putchr p.col ((p.row - p.top t : Nat) : Int) chr c).cell x y) rfl ?_
    rw [hcell]
    by_cases hhere : x = p.col ∧ y = p.row - p.top t
    · obtain ⟨rfl, rfl⟩ := hhere
      have hat : p.top t + (p.row - p.top t) = p.row := by omega
      dsimp only
      rw [if_pos ⟨rfl, rfl⟩, hat, Function.update_self, Function.update_self,
        h.cell _ _ hx hy]
    · rw [if_neg hhere, h.cell x y hx hy]
      by_cases hsame : p.top t + y = p.row
      · have hcol : x ≠ p.col := fun e => hhere ⟨e, by omega⟩
        dsimp only
        rw [hsame, Function.update_self, Function.update_of_ne hcol]
      · dsimp only
        rw [Function.update_of_ne hsame]

/-- A character is put down on the page and on the screen. -/
theorem Shows.put (h : Shows t p c) (chr : UInt8) : Shows t (p.put chr) (putcDefault t chr c) := by
  have hreached := h.reached
  have hrow : p.row - p.top t < t.screenHeight := by
    have hle := p.top_le t
    omega
  have hY : c.screenY = ((p.row - p.top t : Nat) : Int) := by
    have hscreenY := h.screenY
    omega
  have hwindow := h.window_put hrow chr
  rw [putcDefault, h.screenX, hY, (putchr_draws h.col hrow chr c).screenX]
  by_cases hfull : p.col + 1 = screenWidth
  · -- the line is full, and the cursor goes to the next one
    have hX : c.screenX + 1 = screenWidth := by
      rw [h.screenX]
      omega
    rw [Canvas.put, if_pos hfull, settle_wraps hX]
    exact hwindow.settle_newline
  · rw [Canvas.put, if_neg hfull]
    have hlt := h.col
    exact hwindow.settle_inside (Nat.lt_of_le_of_ne hlt hfull)

/-- **`putc` writes on the page**, for every character but the tab and the
backspace. -/
theorem Shows.putc (h : Shows t p c) {chr : UInt8} (htab : chr ≠ 0x09) (hback : chr ≠ 0x08) :
    Shows t (p.write chr) (putc t c chr) := by
  by_cases hnewline : chr = 0x0A
  · subst hnewline
    exact h.settle_newline
  by_cases hreturn : chr = 0x0D
  · subst hreturn
    have hwindow : Window t (p.top t) { p with col := 0 } { c with screenX := 0 } :=
      ⟨rfl, h.screenY, h.reached, h.blank, h.cell⟩
    have hzero : 0 < screenWidth := by decide
    exact hwindow.settle_inside hzero
  · rw [Stdio.putc, if_neg hnewline, if_neg hreturn, if_neg htab, if_neg hback, Canvas.write,
      if_neg hnewline, if_neg hreturn]
    exact h.put chr

/-- The cleared screen is the window on the empty page. -/
theorem clrscr_shows (t : Target) (c : Console) : Shows t Canvas.empty (clrscr t c) := by
  have hpos := screenHeight_pos t
  have hrows : rowCount t 0 = t.screenHeight := rowCount_natCast t 0
  have htop : Canvas.empty.top t = 0 := by
    show max (t.screenHeight - 1) 0 - (t.screenHeight - 1) = 0
    omega
  have hcursor := setcursor_cursor (t := t) (by decide : 0 < screenWidth) hpos
    { blankRows 0 t.screenHeight c with screenX := 0, screenY := 0 }
  rw [clrscr, hrows]
  refine ⟨⟨rfl, ?_, ?_, fun _ _ _ => rfl, ?_⟩, by decide, ?_⟩
  · rw [htop]
    rfl
  · rw [htop]
    exact Nat.le_refl 0
  · intro x y hx hy
    refine Eq.trans (b := (blankRows 0 t.screenHeight c).cell x y) rfl ?_
    have hcell := cell_blankRows (t := t) hx y 0 t.screenHeight (by omega) c
    rw [if_pos (by omega)] at hcell
    exact hcell
  · exact congrArg Nat.cast hcursor

/-! ## Strings -/

/-- A call of `putc` or of `puts`. -/
inductive Output where
  | putc (chr : UInt8)
  | puts (str : List UInt8)

namespace Output

/-- What is printed: a string up to its NUL. -/
def text : Output → List UInt8
  | .putc chr => [chr]
  | .puts str => str.takeWhile (· ≠ 0)

def run (t : Target) (c : Console) : Output → Console
  | .putc chr => Stdio.putc t c chr
  | .puts str => Stdio.puts t str c

end Output

/-- `puts` calls `putc` for each character up to the NUL. -/
theorem puts_eq (t : Target) (str : List UInt8) (c : Console) :
    puts t str c = (str.takeWhile (· ≠ 0)).foldl (putc t) c := by
  induction str generalizing c with
  | nil => rfl
  | cons chr str ih =>
    rw [puts]
    by_cases hzero : chr = 0
    · subst hzero
      rfl
    · rw [if_neg hzero, ih, List.takeWhile_cons_of_pos (by simpa using hzero)]
      rfl

theorem Output.run_eq (t : Target) (c : Console) (o : Output) :
    o.run t c = o.text.foldl (Stdio.putc t) c := by
  cases o with
  | putc chr => rfl
  | puts str => exact puts_eq t str c

/-- The window is kept by any text without tabs and backspaces. -/
theorem Shows.foldl (h : Shows t p c) (chars : List UInt8)
    (hchars : ∀ chr ∈ chars, chr ≠ 0x09 ∧ chr ≠ 0x08) :
    Shows t (chars.foldl Canvas.write p) (chars.foldl (Stdio.putc t) c) := by
  induction chars generalizing p c with
  | nil => exact h
  | cons chr chars ih =>
    obtain ⟨htab, hback⟩ := hchars chr List.mem_cons_self
    exact ih (h.putc htab hback) fun chr' hchr' => hchars chr' (List.mem_cons_of_mem chr hchr')

/-- **The console is a window on a page**: after `clrscr` and any calls of
`putc` and `puts` without tabs and backspaces, the screen shows the page with
the same text on it. -/
theorem console_shows_canvas (t : Target) (c₀ : Console) (outputs : List Output)
    (h : ∀ chr ∈ outputs.flatMap Output.text, chr ≠ 0x09 ∧ chr ≠ 0x08) :
    Shows t ((outputs.flatMap Output.text).foldl Canvas.write Canvas.empty)
      (outputs.foldl (Output.run t) (clrscr t c₀)) := by
  have hruns : ∀ (outputs : List Output) (c : Console), outputs.foldl (Output.run t) c
      = (outputs.flatMap Output.text).foldl (putc t) c := by
    intro outputs
    induction outputs with
    | nil => intro c; rfl
    | cons o outputs ih =>
      intro c
      rw [List.foldl_cons, List.flatMap_cons, List.foldl_append, ih, Output.run_eq]
  rw [hruns]
  exact (clrscr_shows t c₀).foldl _ h

/-- Two lines on the kernel's console. -/
theorem console_shows_sample : Shows .x86_64
    ([0x41, 0x0A, 0x42].foldl Canvas.write Canvas.empty)
    ([.puts [0x41, 0x0A, 0x00], .putc 0x42].foldl (Output.run .x86_64)
      (clrscr .x86_64 ⟨fun _ => 0, 5, 7, ⟨0, fun _ => 0⟩, []⟩)) := by
  have htext : [Output.puts [0x41, 0x0A, 0x00], .putc 0x42].flatMap Output.text
      = [0x41, 0x0A, 0x42] := by decide +kernel
  have hchars : ∀ chr ∈ [Output.puts [0x41, 0x0A, 0x00], .putc 0x42].flatMap Output.text,
      chr ≠ 0x09 ∧ chr ≠ 0x08 := by
    rw [htext]
    decide +kernel
  have h := console_shows_canvas .x86_64 ⟨fun _ => 0, 5, 7, ⟨0, fun _ => 0⟩, []⟩ _ hchars
  rw [htext] at h
  exact h

end Netclover.Stdio
