import Mathlib.Data.List.Induction
import Netclover.Stdio.Safety
import Netclover.Stdio.Tabs

/-!
# Writing on the roll (`libc/stdio/putc.c`)

All of `putc` on the roll of paper: newlines, carriage returns, tabs and
backspaces besides the characters that are typed. The screen is the window on
the end of the roll, and the hardware cursor is where writing goes on, after
every character of any text, exactly if no backspace comes at the first cell of
the window (`console_displays_iff`).
-/

namespace Netclover.Stdio

variable {t : Target} {c : Console} {r : Roll}

/-! ## The roll -/

namespace Roll

/-- The paper behind `clrscr`. -/
def empty : Roll := ⟨fun _ => blank, 0, 0⟩

/-- Go to the start of the next line, and move the screen down if that leaves
it. -/
def newline (t : Target) (r : Roll) : Roll :=
  { r with
    pos := (r.pos / screenWidth + 1) * screenWidth
    top := if r.top + t.screenHeight ≤ r.pos / screenWidth + 1 then r.top + 1 else r.top }

/-- Go to the start of the line. -/
def carriageReturn (r : Roll) : Roll := { r with pos := r.pos / screenWidth * screenWidth }

def write (t : Target) (r : Roll) (chr : UInt8) : Roll :=
  if chr = 0x0A then r.newline t
  else if chr = 0x0D then r.carriageReturn
  else if chr = 0x09 then r.typeAll t (List.replicate (tabSpaces r.pos) 0x20)
  else if chr = 0x08 then r.back
  else r.type t chr

def writeAll (t : Target) (r : Roll) (chars : List UInt8) : Roll := chars.foldl (write t) r

/-- Writing goes on at the first cell of the screen. -/
def AtTop (r : Roll) : Prop := r.pos = r.top * screenWidth

instance (r : Roll) : Decidable r.AtTop := inferInstanceAs (Decidable (_ = _))

/-- No backspace of the text comes at the first cell of the screen. -/
def Fits (t : Target) (r : Roll) (chars : List UInt8) : Prop :=
  ∀ past, past ++ [0x08] <+: chars → ¬ (r.writeAll t past).AtTop

theorem writeAll_append (t : Target) (r : Roll) (past chars : List UInt8) :
    r.writeAll t (past ++ chars) = (r.writeAll t past).writeAll t chars := by
  simp only [writeAll, List.foldl_append]

theorem Fits.append {past chars : List UInt8} (h : r.Fits t past)
    (h' : (r.writeAll t past).Fits t chars) : r.Fits t (past ++ chars) := by
  intro before hbefore
  rcases List.prefix_or_prefix_of_prefix hbefore (List.prefix_append past chars) with hin | hin
  · exact h before hin
  · obtain ⟨rest, hrest⟩ := hin
    rcases List.eq_nil_or_concat rest with rfl | ⟨rest', chr, rfl⟩
    · rw [List.append_nil] at hrest
      exact h before (hrest ▸ List.prefix_refl past)
    · rw [List.concat_eq_append, ← List.append_assoc] at hrest
      obtain ⟨rfl, -⟩ := List.append_inj' hrest rfl
      rw [List.append_assoc, List.prefix_append_right_inj] at hbefore
      rw [writeAll_append]
      exact h' rest' hbefore

end Roll

/-- The screen shows the roll, and the hardware cursor where writing goes
on. -/
structure Displays (t : Target) (r : Roll) (c : Console) : Prop extends Rolled t r c where
  cursor : c.crtc.cursor = r.pos - r.top * screenWidth

/-! ## One character -/

/-- **A newline** is the start of the next line. -/
theorem Rolled.newline (h : Rolled t r c) : Rolled t (r.newline t) (putc t c 0x0A) := by
  have hprinted : Printed t r { c with screenX := 0, screenY := c.screenY + 1 } :=
    ⟨h.cell, h.blank⟩
  have hdiv : (r.pos / screenWidth + 1) * screenWidth / screenWidth = r.pos / screenWidth + 1 :=
    Nat.mul_div_cancel _ (by decide)
  have hmod : (r.pos / screenWidth + 1) * screenWidth % screenWidth = 0 := Nat.mul_mod_left ..
  have hY := h.screenY
  have habove := h.above
  have hbelow := h.below
  show Rolled t (r.newline t) (settle t { c with screenX := 0, screenY := c.screenY + 1 })
  rw [Roll.newline]
  by_cases hfull : r.top + t.screenHeight ≤ r.pos / screenWidth + 1
  · rw [if_pos hfull]
    refine hprinted.settle_below rfl ?_ hmod (by rw [hdiv]; omega)
    show c.screenY + 1 = _
    omega
  · rw [if_neg hfull]
    refine hprinted.settle ?_ ?_ (by rw [hdiv]; omega) (by rw [hdiv]; omega)
    · rw [hmod]
      rfl
    · rw [hdiv]
      show c.screenY + 1 = _
      omega

/-- **A carriage return** is the start of the line. -/
theorem Rolled.carriageReturn (h : Rolled t r c) :
    Rolled t r.carriageReturn (putc t c 0x0D) := by
  have hprinted : Printed t r { c with screenX := 0 } := ⟨h.cell, h.blank⟩
  have hdiv : r.pos / screenWidth * screenWidth / screenWidth = r.pos / screenWidth :=
    Nat.mul_div_cancel _ (by decide)
  have hmod : r.pos / screenWidth * screenWidth % screenWidth = 0 := Nat.mul_mod_left ..
  refine hprinted.settle ?_ ?_ (by rw [hdiv]; exact h.above) (by rw [hdiv]; exact h.below)
  · rw [hmod]
    rfl
  · rw [hdiv]
    exact h.screenY

/-- **Every character** is written on the roll, but a backspace at the first
cell of the screen. -/
theorem Rolled.write (h : Rolled t r c) {chr : UInt8} (hchr : chr = 0x08 → ¬ r.AtTop) :
    Rolled t (r.write t chr) (putc t c chr) := by
  rw [Roll.write]
  by_cases hnewline : chr = 0x0A
  · rw [if_pos hnewline, hnewline]
    exact h.newline
  by_cases hreturn : chr = 0x0D
  · rw [if_neg hnewline, if_pos hreturn, hreturn]
    exact h.carriageReturn
  by_cases htab : chr = 0x09
  · rw [if_neg hnewline, if_neg hreturn, if_pos htab, htab]
    exact h.tab
  by_cases hback : chr = 0x08
  · rw [if_neg hnewline, if_neg hreturn, if_neg htab, if_pos hback]
    have hne := hchr hback
    have hroom : r.top * screenWidth ≤ r.pos :=
      (Nat.mul_le_mul_right _ h.above).trans (Nat.div_mul_le_self ..)
    rw [hback]
    exact h.back (Nat.lt_of_le_of_ne hroom fun e => hne e.symm)
  · rw [if_neg hnewline, if_neg hreturn, if_neg htab, if_neg hback, putc, if_neg hnewline,
      if_neg hreturn, if_neg htab, if_neg hback]
    exact h.type chr

/-- `putc` ends with `settle`, and `settle` with `setcursor`. -/
theorem putc_setcursor (t : Target) (c : Console) (chr : UInt8) :
    ∃ c', putc t c chr = setcursor c'.screenX c'.screenY c' := by
  have hsettle : ∀ c, ∃ c', settle t c = setcursor c'.screenX c'.screenY c' := fun c => ⟨_, rfl⟩
  simp only [putc, putcDefault]
  split
  · exact hsettle _
  · split
    · exact hsettle _
    · split
      · exact hsettle _
      · split
        · exact hsettle _
        · exact hsettle _

/-- Behind `setcursor` the hardware knows where the cursor is. -/
theorem Rolled.displays (h : Rolled t r c) (hset : ∃ c', c = setcursor c'.screenX c'.screenY c') :
    Displays t r c := by
  refine ⟨h, ?_⟩
  obtain ⟨c', rfl⟩ := hset
  have hX : c'.screenX = (r.pos % screenWidth : Nat) := h.screenX
  have hY : c'.screenY = (r.pos / screenWidth - r.top : Nat) := h.screenY
  have habove := h.above
  have hbelow := h.below
  rw [hX, hY, setcursor_cursor (t := t) (Nat.mod_lt _ (by decide)) (by omega)]
  simp only [screenWidth] at *
  omega

/-! ## Texts -/

theorem clrscr_displays (t : Target) (c : Console) : Displays t Roll.empty (clrscr t c) := by
  have hpos := screenHeight_pos t
  have hrows : rowCount t 0 = t.screenHeight := rowCount_natCast t 0
  have hrolled : Rolled t Roll.empty (clrscr t c) := by
    rw [clrscr, hrows]
    refine ⟨⟨?_, fun _ _ => rfl⟩, rfl, rfl, Nat.le_refl 0, ?_⟩
    · intro x y hx hy
      have hcell := cell_blankRows (t := t) hx y 0 t.screenHeight (by omega) c
      rw [if_pos (by omega)] at hcell
      exact hcell
    · show 0 < 0 + t.screenHeight
      omega
  exact hrolled.displays ⟨_, rfl⟩

theorem Displays.write (h : Displays t r c) {chr : UInt8} (hchr : chr = 0x08 → ¬ r.AtTop) :
    Displays t (r.write t chr) (putc t c chr) :=
  (h.toRolled.write hchr).displays (putc_setcursor t c chr)

/-- **A text** is written on the roll, character by character. -/
theorem Displays.writeAll (h : Displays t r c) {chars : List UInt8} (hfits : r.Fits t chars) :
    Displays t (r.writeAll t chars) (chars.foldl (putc t) c) := by
  induction chars using List.reverseRecOn with
  | nil => exact h
  | append_singleton past chr ih =>
    have ih := ih fun before hbefore => hfits before (hbefore.trans (List.prefix_append past [chr]))
    rw [Roll.writeAll_append, List.foldl_append]
    refine ih.write ?_
    rintro rfl
    exact hfits past (List.prefix_refl _)

/-- At the first cell of the screen the cursor is in the corner. -/
theorem Rolled.atOrigin (h : Rolled t r c) (htop : r.AtTop) : AtOrigin c := by
  rw [Roll.AtTop] at htop
  rw [AtOrigin, h.screenX, h.screenY, htop, Nat.mul_mod_left, Nat.mul_div_cancel _ (by decide),
    Nat.sub_self]
  exact ⟨rfl, rfl⟩

/-- There a backspace takes the cursor off the screen. -/
theorem backspace_lost (h : AtOrigin c) : (putc t c 0x08).screenY < 0 := by
  obtain ⟨hX, hY⟩ := h
  have hh := screenHeight_le t
  have hpos := screenHeight_pos t
  have hcol : ¬ toUnsigned (79 : Int) ≥ screenWidth := by decide
  have hrow : toUnsigned (-1 : Int) ≥ t.screenHeight := Nat.le_trans hh (by decide)
  show (settle t (putchr _ _ 0x20 (if c.screenX = 0
    then { c with screenX := screenWidth - 1, screenY := c.screenY - 1 }
    else { c with screenX := c.screenX - 1 }))).screenY < 0
  rw [if_pos hX, hY]
  generalize hd : putchr _ _ 0x20 _ = d
  have hX' : d.screenX = 79 := hd ▸ rfl
  have hY' : d.screenY = -1 := hd ▸ rfl
  have hscrolled := (scrollback_scrolled (t := t) (Nat.succ_le_of_lt hpos) d).screenY
  have hup : (scrollback t 1 d).screenY = d.screenY - 1 := hscrolled
  rw [← hX'] at hcol
  rw [← hY'] at hrow
  rw [settle, if_neg hcol, if_pos hrow]
  show (scrollback t 1 d).screenY < 0
  rw [hup, hY']
  decide

/-- **The console is a window on a roll of paper**: after `clrscr` and every
beginning of a text the screen shows the end of the roll that the text is
written on, with the hardware cursor behind it, exactly if the text has no
backspace at the first cell of the screen. -/
theorem console_displays_iff (t : Target) (c₀ : Console) (chars : List UInt8) :
    (∀ past, past <+: chars →
      Displays t (Roll.empty.writeAll t past) (past.foldl (putc t) (clrscr t c₀))) ↔
    Roll.empty.Fits t chars := by
  constructor
  · intro h past hpast htop
    have hbefore := h past ((List.prefix_append past _).trans hpast)
    have hbehind := (h (past ++ [0x08]) hpast).screenY
    have hlost := backspace_lost (t := t) (hbefore.atOrigin htop)
    rw [List.foldl_append] at hbehind
    have hY : (putc t (past.foldl (putc t) (clrscr t c₀)) 0x08).screenY = _ := hbehind
    rw [hY] at hlost
    omega
  · intro hfits past hpast
    exact (clrscr_displays t c₀).writeAll fun before hbefore => hfits before (hbefore.trans hpast)

end Netclover.Stdio
