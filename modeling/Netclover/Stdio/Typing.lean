import Netclover.Stdio.Roll

/-!
# Typing and taking back

A line that is typed and taken back with backspaces, as at the keyboard. On the
roll this is `n` steps forward and `n` steps back; on the screen the text may
have wrapped and scrolled in between, and the rows stay where the scrolling has
put them (`backspaces_undo_typing`).
-/

namespace Netclover.Stdio

variable {t : Target} {c : Console} {r : Roll}

/-! ## How often the screen scrolls -/

/-- The characters that have a case in the `switch` of `putc`. -/
def isControl (chr : UInt8) : Bool := chr ∈ ([0x0A, 0x0D, 0x09, 0x08] : List UInt8)

/-- The calls of `scrollback` in what follows the `switch`. -/
def settleScrolls (t : Target) (c : Console) : Nat :=
  let c := if toUnsigned c.screenX ≥ screenWidth
    then { c with screenY := c.screenY + 1, screenX := 0 } else c
  if toUnsigned c.screenY ≥ t.screenHeight then 1 else 0

/-- The calls of `scrollback` in a call of `putc` that comes to the `default`
case. -/
def defaultScrolls (t : Target) (c : Console) (chr : UInt8) : Nat :=
  let c := putchr c.screenX c.screenY chr c
  settleScrolls t { c with screenX := c.screenX + 1 }

/-- How often writing `w` scrolls the screen. -/
def scrolls (t : Target) : Console → List UInt8 → Nat
  | _, [] => 0
  | c, chr :: w => defaultScrolls t c chr + scrolls t (putc t c chr) w

theorem putc_of_not_control {chr : UInt8} (h : isControl chr = false) :
    putc t c chr = putcDefault t chr c := by
  simp only [isControl, List.mem_cons, List.not_mem_nil, or_false, decide_eq_false_iff_not,
    not_or] at h
  obtain ⟨hnewline, hreturn, htab, hback⟩ := h
  rw [putc, if_neg hnewline, if_neg hreturn, if_neg htab, if_neg hback]

/-- The roll is moved when the screen scrolls. -/
theorem Rolled.top_type (h : Rolled t r c) (chr : UInt8) :
    (r.type t chr).top = r.top + defaultScrolls t c chr := by
  have hh := screenHeight_le t
  have hx : r.pos % screenWidth < screenWidth := Nat.mod_lt _ (by decide)
  have habove := h.above
  have hbelow := h.below
  have hdraws := putchr_draws (t := t) hx (y := r.pos / screenWidth - r.top) (by omega) chr c
  have htype : (r.type t chr).top = if r.top + t.screenHeight ≤ (r.pos + 1) / screenWidth
      then r.top + 1 else r.top := rfl
  rw [htype, defaultScrolls, h.screenX, h.screenY]
  rw [settleScrolls, hdraws.screenX, h.screenX]
  by_cases hlast : r.pos % screenWidth + 1 = screenWidth
  · have hdiv := (Block.succ_div_mod_eq hlast).1
    have hcol : toUnsigned ((r.pos % screenWidth : Nat) + 1) ≥ screenWidth := by
      have hcast : ((r.pos % screenWidth : Nat) + 1 : Int) = (screenWidth : Nat) := by
        exact_mod_cast hlast
      rw [hcast, toUnsigned_natCast (by decide)]
    have hrow : toUnsigned (c.screenY + 1) = r.pos / screenWidth + 1 - r.top := by
      have hcast : c.screenY + 1 = ((r.pos / screenWidth + 1 - r.top : Nat) : Int) := by
        rw [h.screenY]
        omega
      rw [hcast, toUnsigned_natCast (by omega)]
    rw [if_pos hcol]
    dsimp only
    rw [hdraws.screenY, hrow, hdiv]
    by_cases hfull : r.top + t.screenHeight ≤ r.pos / screenWidth + 1
    · rw [if_pos hfull, if_pos (by omega)]
    · rw [if_neg hfull, if_neg (by omega), Nat.add_zero]
  · have hdiv := (Block.succ_div_mod_lt (j := r.pos) (n := screenWidth) (by omega)).1
    have hcol : ¬ toUnsigned ((r.pos % screenWidth : Nat) + 1) ≥ screenWidth := by
      have hcast : ((r.pos % screenWidth : Nat) + 1 : Int) = (r.pos % screenWidth + 1 : Nat) := by
        push_cast
        rfl
      rw [hcast, toUnsigned_natCast (by simp only [screenWidth] at *; omega)]
      omega
    have hrow : ¬ toUnsigned c.screenY ≥ t.screenHeight := by
      rw [h.screenY, toUnsigned_natCast (by omega)]
      omega
    rw [if_neg hcol]
    dsimp only
    rw [hdraws.screenY, if_neg hrow, hdiv, if_neg (by omega), Nat.add_zero]

/-! ## Forward -/

def Roll.typeAll (t : Target) (r : Roll) (w : List UInt8) : Roll := w.foldl (Roll.type t) r

/-- **Typing**, character by character. -/
theorem Rolled.typeAll (h : Rolled t r c) {w : List UInt8}
    (hw : ∀ chr ∈ w, isControl chr = false) :
    Rolled t (r.typeAll t w) (w.foldl (putc t) c) ∧
      (r.typeAll t w).top = r.top + scrolls t c w := by
  induction w generalizing r c with
  | nil => exact ⟨h, rfl⟩
  | cons chr w ih =>
    have hstep := h.type chr
    rw [← putc_of_not_control (hw chr List.mem_cons_self)] at hstep
    obtain ⟨hrun, htop⟩ := ih hstep fun chr' hchr' => hw chr' (List.mem_cons_of_mem chr hchr')
    refine ⟨hrun, ?_⟩
    show ((r.type t chr).typeAll t w).top = _
    rw [htop, h.top_type chr, scrolls, Nat.add_assoc]

/-- Typing goes on by the length of the text, touches no other cell and
changes no color. -/
theorem Roll.typeAll_spec (w : List UInt8) (r : Roll) :
    (r.typeAll t w).pos = r.pos + w.length ∧
    (∀ p, p < r.pos ∨ r.pos + w.length ≤ p → (r.typeAll t w).cell p = r.cell p) ∧
    ∀ p, ((r.typeAll t w).cell p).color = (r.cell p).color := by
  induction w generalizing r with
  | nil => exact ⟨rfl, fun _ _ => rfl, fun _ => rfl⟩
  | cons chr w ih =>
    obtain ⟨hpos, hcell, hcolor⟩ := ih (r.type t chr)
    have hpos' : (r.type t chr).pos = r.pos + 1 := rfl
    have hcell' : (r.type t chr).cell
        = Function.update r.cell r.pos ⟨chr, (r.cell r.pos).color⟩ := rfl
    rw [hpos'] at hpos hcell
    rw [hcell'] at hcell hcolor
    rw [List.length_cons, show r.typeAll t (chr :: w) = (r.type t chr).typeAll t w from rfl]
    refine ⟨by omega, fun p hp => ?_, fun p => ?_⟩
    · rw [hcell p (by omega), Function.update_of_ne (by omega)]
    · rw [hcolor p]
      by_cases hhere : p = r.pos
      · rw [hhere, Function.update_self]
      · rw [Function.update_of_ne hhere]

/-! ## Back -/

def Roll.backs : Nat → Roll → Roll
  | 0, r => r
  | n + 1, r => backs n r.back

/-- **Going back**, as long as there is room on the screen. -/
theorem Rolled.backs (h : Rolled t r c) {n : Nat} (hroom : r.top * screenWidth + n ≤ r.pos) :
    Rolled t (Roll.backs n r) ((List.replicate n 0x08).foldl (putc t) c) := by
  induction n generalizing r c with
  | zero => exact h
  | succ n ih =>
    have hback : r.back.pos = r.pos - 1 ∧ r.back.top = r.top := ⟨rfl, rfl⟩
    exact ih (h.back (by omega)) (by rw [hback.1, hback.2]; omega)

/-- The cells that have been gone over hold a space. -/
theorem Roll.backs_spec (n : Nat) (r : Roll) (hn : n ≤ r.pos) :
    (backs n r).pos = r.pos - n ∧ (backs n r).top = r.top ∧
    ∀ p, (backs n r).cell p
      = if r.pos - n ≤ p ∧ p < r.pos then ⟨0x20, (r.cell p).color⟩ else r.cell p := by
  induction n generalizing r with
  | zero => exact ⟨rfl, rfl, fun p => by rw [if_neg (by omega)]; rfl⟩
  | succ n ih =>
    have hback : r.back.pos = r.pos - 1 ∧ r.back.top = r.top := ⟨rfl, rfl⟩
    have hcell : r.back.cell
        = Function.update r.cell (r.pos - 1) ⟨0x20, (r.cell (r.pos - 1)).color⟩ := rfl
    obtain ⟨hpos, htop, hcells⟩ := ih r.back (by rw [hback.1]; omega)
    rw [backs]
    refine ⟨by rw [hpos, hback.1]; omega, htop, fun p => ?_⟩
    rw [hcells p, hback.1, hcell]
    by_cases hhere : p = r.pos - 1
    · rw [if_neg (by omega), if_pos (by omega), hhere, Function.update_self]
    · rw [Function.update_of_ne hhere]
      by_cases hin : r.pos - 1 - n ≤ p ∧ p < r.pos - 1
      · rw [if_pos hin, if_pos (by omega)]
      · rw [if_neg hin, if_neg (by omega)]

/-! ## Forward and back -/

/-- The cell of the screen moved up by `s` rows. -/
def Console.movedUp (t : Target) (c : Console) (s x y : Nat) : Cell :=
  if y + s < t.screenHeight then c.cell x (y + s) else blank

/-- It is on the paper already, `s` rows down. -/
theorem Console.roll_movedUp (t : Target) (c : Console) (x₀ y₀ s y : Nat) {x : Nat}
    (hx : x < screenWidth) :
    (c.roll t x₀ y₀).cell ((s + y) * screenWidth + x) = c.movedUp t s x y := by
  obtain ⟨hdiv, hmod⟩ := Block.mul_add_div_mod (k := s + y) hx
  have hiff : (s + y) * screenWidth + x < t.screenHeight * screenWidth ↔
      s + y < t.screenHeight := by
    simp only [screenWidth] at *
    omega
  simp only [Console.roll, hmod, hdiv, hiff]
  rw [Console.movedUp, Nat.add_comm y s]

/-- From `c` to `c'` the screen has moved up by `s` rows, the cursor with it,
and the `n` cells from there on hold spaces. -/
structure Erased (t : Target) (c c' : Console) (x₀ y₀ s n : Nat) : Prop where
  screenX : c'.screenX = x₀
  screenY : c'.screenY = (y₀ - s : Nat)
  fits : (y₀ - s) * screenWidth + x₀ + n ≤ t.screenHeight * screenWidth
  cell : ∀ x y, x < screenWidth → y < t.screenHeight → c'.cell x y =
    if (y₀ - s) * screenWidth + x₀ ≤ y * screenWidth + x ∧
        y * screenWidth + x < (y₀ - s) * screenWidth + x₀ + n
      then ⟨0x20, (c.movedUp t s x y).color⟩ else c.movedUp t s x y

/-- **Backspaces undo typing**: a text without control characters, followed by
as many backspaces, leaves spaces and what the scrolling has done. -/
theorem backspaces_undo_typing {x₀ y₀ : Nat} (h : CursorAt t c x₀ y₀) (w : List UInt8)
    (hw : ∀ chr ∈ w, isControl chr = false) (hs : scrolls t c w ≤ y₀) :
    Erased t c ((List.replicate w.length 0x08).foldl (putc t) (w.foldl (putc t) c)) x₀ y₀
      (scrolls t c w) w.length := by
  obtain ⟨hrolled, htop⟩ := h.rolled.typeAll hw
  obtain ⟨hpos, hkept, hcolor⟩ := Roll.typeAll_spec (t := t) w (c.roll t x₀ y₀)
  have hx := h.x_lt
  have hpos₀ : (c.roll t x₀ y₀).pos = y₀ * screenWidth + x₀ := rfl
  have htop₀ : (c.roll t x₀ y₀).top = 0 := rfl
  rw [htop₀, Nat.zero_add] at htop
  rw [hpos₀] at hpos hkept
  -- there is room for the backspaces: the row of the first character is on the screen
  have hrows := Nat.mul_le_mul_right screenWidth hs
  have hback := hrolled.backs (n := w.length) (by rw [htop, hpos]; omega)
  obtain ⟨hpos', htop', hcell'⟩ := Roll.backs_spec w.length
    ((c.roll t x₀ y₀).typeAll t w) (by rw [hpos]; omega)
  rw [hpos, Nat.add_sub_cancel] at hpos' hcell'
  rw [htop] at htop'
  have hsub : (y₀ - scrolls t c w) * screenWidth = y₀ * screenWidth - scrolls t c w * screenWidth :=
    Nat.sub_mul ..
  refine ⟨?_, ?_, ?_, ?_⟩
  · rw [hback.screenX, hpos']
    simp only [screenWidth] at *
    omega
  · rw [hback.screenY, hpos', htop']
    simp only [screenWidth] at *
    omega
  · have hbelow := hrolled.below
    rw [htop, hpos] at hbelow
    simp only [screenWidth] at *
    omega
  · intro x y hx' hy'
    have hroll := c.roll_movedUp t x₀ y₀ (scrolls t c w) y hx'
    have hmul : (scrolls t c w + y) * screenWidth
        = scrolls t c w * screenWidth + y * screenWidth := Nat.add_mul ..
    rw [hback.cell x y hx' hy', htop', hcell', hcolor, hroll]
    by_cases hin : (y₀ - scrolls t c w) * screenWidth + x₀ ≤ y * screenWidth + x ∧
        y * screenWidth + x < (y₀ - scrolls t c w) * screenWidth + x₀ + w.length
    · rw [if_pos hin, if_pos (by omega)]
    · rw [if_neg hin, if_neg (by omega), hkept _ (by omega), hroll]

/-- A character in the lower right corner of the kernel's console, which
scrolls, and a backspace. -/
theorem backspaces_undo_typing_sample :
    let c : Console := ⟨fun _ => 0x41, 79, 24, ⟨0, fun _ => 0⟩, []⟩
    Erased .x86_64 c (putc .x86_64 (putc .x86_64 c 0x42) 0x08) 79 24 1 1 := by
  intro c
  have hscrolls : scrolls .x86_64 c [0x42] = 1 := by decide
  have hcursor : CursorAt .x86_64 c 79 24 := ⟨rfl, rfl, by decide, by decide⟩
  have h := backspaces_undo_typing hcursor [0x42] (List.forall_mem_singleton.mpr rfl)
    (by rw [hscrolls]; decide)
  rw [hscrolls] at h
  exact h

end Netclover.Stdio
