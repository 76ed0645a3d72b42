import Mathlib.Data.List.Induction
import Netclover.Stdio.Screen

/-!
# Staying on the screen

Every character but one keeps the cursor and the accesses of `putc` on the
screen. The exception is a backspace with the cursor in the upper left corner:
it moves the cursor to row -1, which is written to, compares as a large row
number and scrolls the screen.
-/

namespace Netclover.Stdio

variable {t : Target} {c : Console}

/-- The cursor is on the screen, and so was every access. -/
structure OnScreen (t : Target) (c : Console) : Prop where
  x_nonneg : 0 ≤ c.screenX
  x_lt : c.screenX < screenWidth
  y_nonneg : 0 ≤ c.screenY
  y_lt : c.screenY < t.screenHeight
  inRange : InRange t c

/-- The cursor is in the upper left corner. -/
def AtOrigin (c : Console) : Prop := c.screenX = 0 ∧ c.screenY = 0

/-! ## One character -/

theorem clrscr_onScreen (t : Target) (c : Console) (h : c.accessed = []) :
    OnScreen t (clrscr t c) := by
  have hpos := screenHeight_pos t
  have hrows : rowCount t 0 = t.screenHeight := rowCount_natCast t 0
  have hdraws := blankRows_draws (t := t) 0 t.screenHeight (by omega) c
  have hrange : InRange t (blankRows 0 t.screenHeight c) := by
    apply hdraws.inRange
    intro off hoff
    rw [h] at hoff
    cases hoff
  rw [clrscr, hrows]
  constructor
  · exact Int.le_refl 0
  · show (0 : Int) < screenWidth
    decide
  · exact Int.le_refl 0
  · show (0 : Int) < _
    omega
  · exact hrange

/-- `settle` brings a cursor back that is one column or one row too far. -/
theorem settle_onScreen {x y : Nat} (hX : c.screenX = x) (hY : c.screenY = y)
    (hx : x ≤ screenWidth) (hy : y ≤ t.screenHeight)
    (hcorner : x < screenWidth ∨ y < t.screenHeight) (hrange : InRange t c) :
    OnScreen t (settle t c) := by
  have hpos := screenHeight_pos t
  -- below the last row, in whatever column
  have hline : ∀ (c : Console) (x y : Nat), c.screenX = x → c.screenY = y → x < screenWidth →
      y ≤ t.screenHeight → InRange t c → OnScreen t (settle t c) := by
    intro c x y hX hY hx hy hrange
    rcases Nat.lt_or_ge y t.screenHeight with hin | hlast
    · rw [settle_within hX hY hx hin]
      refine ⟨?_, ?_, ?_, ?_, hrange⟩
      · show 0 ≤ c.screenX
        omega
      · show c.screenX < _
        omega
      · show 0 ≤ c.screenY
        omega
      · show c.screenY < _
        omega
    · have hY' : c.screenY = t.screenHeight := by omega
      have hscrolled := scrollback_scrolled (t := t) (Nat.succ_le_of_lt hpos) c
      rw [settle_scrolls hX hY' hx]
      refine ⟨?_, ?_, ?_, ?_, hscrolled.inRange hrange⟩
      · show 0 ≤ (scrollback t 1 c).screenX
        have h : (scrollback t 1 c).screenX = c.screenX := hscrolled.screenX
        omega
      · show (scrollback t 1 c).screenX < _
        have h : (scrollback t 1 c).screenX = c.screenX := hscrolled.screenX
        omega
      · show 0 ≤ (scrollback t 1 c).screenY
        have h : (scrollback t 1 c).screenY = c.screenY - 1 := hscrolled.screenY
        omega
      · show (scrollback t 1 c).screenY < _
        have h : (scrollback t 1 c).screenY = c.screenY - 1 := hscrolled.screenY
        omega
  rcases Nat.lt_or_ge x screenWidth with hin | hlast
  · exact hline c x y hX hY hin hy hrange
  · have hX' : c.screenX = screenWidth := by omega
    rw [settle_wraps hX']
    refine hline _ 0 (y + 1) rfl ?_ (by decide) (by omega) hrange
    show c.screenY + 1 = _
    omega

/-- The coordinates of a cursor on the screen, as natural numbers. -/
theorem OnScreen.coordinates (h : OnScreen t c) : ∃ x y : Nat,
    c.screenX = x ∧ c.screenY = y ∧ x < screenWidth ∧ y < t.screenHeight := by
  obtain ⟨x, hX⟩ := Int.eq_ofNat_of_zero_le h.x_nonneg
  obtain ⟨y, hY⟩ := Int.eq_ofNat_of_zero_le h.y_nonneg
  have hx := h.x_lt
  have hy := h.y_lt
  exact ⟨x, y, hX, hY, by omega, by omega⟩

theorem putcDefault_onScreen (h : OnScreen t c) (chr : UInt8) :
    OnScreen t (putcDefault t chr c) := by
  obtain ⟨x, y, hX, hY, hx, hy⟩ := h.coordinates
  have hdraws := putchr_draws hx hy chr c
  rw [putcDefault, hX, hY]
  refine settle_onScreen (x := x + 1) (y := y) ?_ ?_ (by omega) (by omega) (.inr hy)
    (hdraws.inRange h.inRange)
  · show (putchr x y chr c).screenX + 1 = _
    rw [hdraws.screenX, hX]
    rfl
  · show (putchr x y chr c).screenY = _
    rw [hdraws.screenY, hY]

theorem tabLoop_onScreen : ∀ (n : Nat) (i : Int) (c : Console), OnScreen t c →
    OnScreen t (tabLoop t n i c) := by
  intro n
  induction n with
  | zero => intro i c h; exact h
  | succ n ih =>
    intro i c h
    rw [tabLoop]
    split
    · exact ih (i + 1) _ (putcDefault_onScreen h 0x20)
    · exact h

/-- A backspace moves the cursor back and blanks what it is on. -/
theorem backspace_onScreen (h : OnScreen t c) (horigin : ¬ AtOrigin c) :
    OnScreen t (putc t c 0x08) := by
  obtain ⟨x, y, hX, hY, hx, hy⟩ := h.coordinates
  -- wherever it goes, it goes to a cell of the screen
  have hblank : ∀ (c : Console) (x y : Nat), c.screenX = x → c.screenY = y → x < screenWidth →
      y < t.screenHeight → InRange t c →
      OnScreen t (settle t (putchr c.screenX c.screenY 0x20 c)) := by
    intro c x y hX hY hx hy hrange
    have hdraws := putchr_draws hx hy 0x20 c
    rw [hX, hY]
    exact settle_onScreen (hdraws.screenX.trans hX) (hdraws.screenY.trans hY) (by omega) (by omega)
      (.inl hx) (hdraws.inRange hrange)
  show OnScreen t (settle t (putchr _ _ 0x20 (if c.screenX = 0
    then { c with screenX := screenWidth - 1, screenY := c.screenY - 1 }
    else { c with screenX := c.screenX - 1 })))
  by_cases hzero : c.screenX = 0
  · have hrow : c.screenY ≠ 0 := fun e => horigin ⟨hzero, e⟩
    rw [if_pos hzero]
    refine hblank _ (screenWidth - 1) (y - 1) rfl ?_ (by decide) (by omega) h.inRange
    show c.screenY - 1 = _
    omega
  · rw [if_neg hzero]
    refine hblank _ (x - 1) y ?_ hY (by omega) hy h.inRange
    show c.screenX - 1 = _
    omega

/-- **One call of `putc`** keeps the cursor and its accesses on the screen,
unless it is a backspace in the corner. -/
theorem putc_onScreen (h : OnScreen t c) {chr : UInt8} (hchr : chr = 0x08 → ¬ AtOrigin c) :
    OnScreen t (putc t c chr) := by
  obtain ⟨x, y, hX, hY, hx, hy⟩ := h.coordinates
  by_cases hnewline : chr = 0x0A
  · subst hnewline
    refine settle_onScreen (x := 0) (y := y + 1) rfl ?_ (by decide) (by omega) (.inl (by decide))
      h.inRange
    show c.screenY + 1 = _
    omega
  by_cases hreturn : chr = 0x0D
  · subst hreturn
    exact settle_onScreen (x := 0) rfl hY (by decide) (by omega) (.inl (by decide)) h.inRange
  by_cases htab : chr = 0x09
  · subst htab
    have hloop := tabLoop_onScreen 7 0 c h
    obtain ⟨x', y', hX', hY', hx', hy'⟩ := hloop.coordinates
    exact settle_onScreen hX' hY' (by omega) (by omega) (.inl hx') hloop.inRange
  by_cases hback : chr = 0x08
  · subst hback
    exact backspace_onScreen h (hchr rfl)
  · rw [putc, if_neg hnewline, if_neg hreturn, if_neg htab, if_neg hback]
    exact putcDefault_onScreen h chr

/-- **A backspace in the corner** writes to the byte in front of the screen
buffer, as far as unsigned arithmetic lets it. -/
theorem backspace_atOrigin (h : AtOrigin c) : ¬ InRange t (putc t c 0x08) := by
  obtain ⟨hX, hY⟩ := h
  intro hrange
  have hh := screenHeight_le t
  have hmem : 2 ^ 32 - 2 ∈ (putc t c 0x08).accessed := by
    show _ ∈ (settle t (putchr _ _ 0x20 (if c.screenX = 0
      then { c with screenX := screenWidth - 1, screenY := c.screenY - 1 }
      else { c with screenX := c.screenX - 1 }))).accessed
    rw [if_pos hX]
    apply settle_accessed
    dsimp only
    rw [hY]
    exact List.mem_cons_self
  have hoff := hrange _ hmem
  simp only [screenWidth] at hoff
  omega

/-! ## Sequences of characters -/

/-- The console after `clrscr` and a call of `putc` for each character. -/
def typed (t : Target) (c₀ : Console) (chars : List UInt8) : Console :=
  chars.foldl (putc t) (clrscr t { c₀ with accessed := [] })

theorem typed_append (t : Target) (c₀ : Console) (past : List UInt8) (chr : UInt8) :
    typed t c₀ (past ++ [chr]) = putc t (typed t c₀ past) chr := by
  rw [typed, List.foldl_append]
  rfl

/-- **Console safety**, for both screens: the cursor and every access stay on
the screen all along, exactly if no backspace is passed while the cursor is in
the upper left corner. -/
theorem putc_safe_iff (t : Target) (c₀ : Console) (chars : List UInt8) :
    (∀ past, past <+: chars → OnScreen t (typed t c₀ past)) ↔
      ∀ past, past ++ [0x08] <+: chars → ¬ AtOrigin (typed t c₀ past) := by
  constructor
  · intro hsafe past hpast horigin
    have h := hsafe (past ++ [0x08]) hpast
    rw [typed_append] at h
    exact backspace_atOrigin horigin h.inRange
  · intro hcorner past
    induction past using List.reverseRecOn with
    | nil =>
      intro _
      exact clrscr_onScreen t { c₀ with accessed := [] } rfl
    | append_singleton past chr ih =>
      intro hpast
      have hshorter : past <+: chars := (List.prefix_append past [chr]).trans hpast
      rw [typed_append]
      apply putc_onScreen (ih hshorter)
      rintro rfl
      exact hcorner past hpast

/-- **The defect**: a backspace right after `clrscr`, on either screen. -/
theorem putc_unsafe : ¬ ∀ (t : Target) (c₀ : Console) (chars past : List UInt8),
    past <+: chars → OnScreen t (typed t c₀ past) := by
  intro hsafe
  have h := hsafe .x86_64 ⟨fun _ => 0, 0, 0, ⟨0, fun _ => 0⟩, []⟩ [0x08] [0x08] (List.prefix_refl _)
  exact backspace_atOrigin ⟨rfl, rfl⟩ h.inRange

end Netclover.Stdio
