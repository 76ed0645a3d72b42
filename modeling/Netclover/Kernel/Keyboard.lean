import Mathlib.Data.List.Induction
import Netclover.Stdio.Console

/-!
# The keyboard (`kernel/drivers/keyboard/keyboard.c`)

`keyboardHandler` turns the bytes of the keyboard into characters on the
console. It has one flag for two shift keys, so it forgets the one that is
still held when the other is released (`capsOn_iff_held`).
-/

namespace Netclover.Kernel

open Stdio

/-! ## `keyboard.c` -/

/-- `Scancode`. -/
structure Scancode where
  scanCode : UInt8
  ascii : UInt8

/-- The 88 entries, `0x01` to `0x58`. -/
def scancodeMap : List Scancode := [
  ⟨0x01, 0⟩, ⟨0x02, '1'.toUInt8⟩, ⟨0x03, '2'.toUInt8⟩, ⟨0x04, '3'.toUInt8⟩, ⟨0x05, '4'.toUInt8⟩,
  ⟨0x06, '5'.toUInt8⟩, ⟨0x07, '6'.toUInt8⟩, ⟨0x08, '7'.toUInt8⟩, ⟨0x09, '8'.toUInt8⟩,
  ⟨0x0A, '9'.toUInt8⟩, ⟨0x0B, '0'.toUInt8⟩, ⟨0x0C, '-'.toUInt8⟩, ⟨0x0D, '='.toUInt8⟩,
  ⟨0x0E, 0x08⟩, ⟨0x0F, 0x09⟩,
  ⟨0x10, 'q'.toUInt8⟩, ⟨0x11, 'w'.toUInt8⟩, ⟨0x12, 'e'.toUInt8⟩, ⟨0x13, 'r'.toUInt8⟩,
  ⟨0x14, 't'.toUInt8⟩, ⟨0x15, 'y'.toUInt8⟩, ⟨0x16, 'u'.toUInt8⟩, ⟨0x17, 'i'.toUInt8⟩,
  ⟨0x18, 'o'.toUInt8⟩, ⟨0x19, 'p'.toUInt8⟩, ⟨0x1A, '['.toUInt8⟩, ⟨0x1B, ']'.toUInt8⟩,
  ⟨0x1C, 0x0A⟩, ⟨0x1D, 0⟩,
  ⟨0x1E, 'a'.toUInt8⟩, ⟨0x1F, 's'.toUInt8⟩, ⟨0x20, 'd'.toUInt8⟩, ⟨0x21, 'f'.toUInt8⟩,
  ⟨0x22, 'g'.toUInt8⟩, ⟨0x23, 'h'.toUInt8⟩, ⟨0x24, 'j'.toUInt8⟩, ⟨0x25, 'k'.toUInt8⟩,
  ⟨0x26, 'l'.toUInt8⟩, ⟨0x27, ';'.toUInt8⟩, ⟨0x28, 0x27⟩, ⟨0x29, 0x60⟩, ⟨0x2A, 0⟩, ⟨0x2B, 0x5C⟩,
  ⟨0x2C, 'z'.toUInt8⟩, ⟨0x2D, 'x'.toUInt8⟩, ⟨0x2E, 'c'.toUInt8⟩, ⟨0x2F, 'v'.toUInt8⟩,
  ⟨0x30, 'b'.toUInt8⟩, ⟨0x31, 'n'.toUInt8⟩, ⟨0x32, 'm'.toUInt8⟩, ⟨0x33, ','.toUInt8⟩,
  ⟨0x34, '.'.toUInt8⟩, ⟨0x35, '/'.toUInt8⟩, ⟨0x36, 0⟩, ⟨0x37, '*'.toUInt8⟩, ⟨0x38, 0⟩,
  ⟨0x39, ' '.toUInt8⟩, ⟨0x3A, 0⟩,
  ⟨0x3B, 0⟩, ⟨0x3C, 0⟩, ⟨0x3D, 0⟩, ⟨0x3E, 0⟩, ⟨0x3F, 0⟩, ⟨0x40, 0⟩, ⟨0x41, 0⟩, ⟨0x42, 0⟩,
  ⟨0x43, 0⟩, ⟨0x44, 0⟩, ⟨0x45, 0⟩, ⟨0x46, 0⟩, ⟨0x47, 0⟩, ⟨0x48, 0⟩, ⟨0x49, 0⟩,
  ⟨0x4A, '-'.toUInt8⟩, ⟨0x4B, 0⟩, ⟨0x4C, 0⟩, ⟨0x4D, 0⟩, ⟨0x4E, '+'.toUInt8⟩, ⟨0x4F, 0⟩,
  ⟨0x50, 0⟩, ⟨0x51, 0⟩, ⟨0x52, 0⟩, ⟨0x53, '.'.toUInt8⟩, ⟨0x54, 0⟩, ⟨0x55, 0⟩, ⟨0x56, 0⟩,
  ⟨0x57, 0⟩, ⟨0x58, 0⟩]

/-- The `scanCode` of these is a character. -/
def numShiftMap : List Scancode := [
  ⟨0x60, '~'.toUInt8⟩, ⟨'1'.toUInt8, '!'.toUInt8⟩, ⟨'2'.toUInt8, '@'.toUInt8⟩,
  ⟨'3'.toUInt8, '#'.toUInt8⟩, ⟨'4'.toUInt8, '$'.toUInt8⟩, ⟨'5'.toUInt8, '%'.toUInt8⟩,
  ⟨'6'.toUInt8, '^'.toUInt8⟩, ⟨'7'.toUInt8, '&'.toUInt8⟩, ⟨'8'.toUInt8, '*'.toUInt8⟩,
  ⟨'9'.toUInt8, '('.toUInt8⟩, ⟨'0'.toUInt8, ')'.toUInt8⟩, ⟨'-'.toUInt8, '_'.toUInt8⟩,
  ⟨'='.toUInt8, '+'.toUInt8⟩]

structure Keyboard where
  capsOn : Bool
  console : Console

/-- The kernel's `putc`. -/
def Keyboard.putc (k : Keyboard) (chr : UInt8) : Keyboard :=
  { k with console := Stdio.putc .x86_64 k.console chr }

/-- `initKeyboard`. -/
def initKeyboard (k : Keyboard) : Keyboard := { k with capsOn := false }

def getAscii (scanCode : UInt8) : UInt8 :=
  match scancodeMap.find? (·.scanCode = scanCode) with
  | some entry => entry.ascii
  | none => 0

/-- The `switch` of `keyboardHandler`. -/
def keyboardSwitch (scanCode : UInt8) (pressed : Bool) (k : Keyboard) : Keyboard :=
  if scanCode = 0x2A ∨ scanCode = 0x36 then { k with capsOn := pressed }
  else if 0x02 ≤ scanCode ∧ scanCode ≤ 0x0D ∨ scanCode = 0x29 then
    if pressed then
      let ascii := getAscii scanCode
      if k.capsOn then
        numShiftMap.foldl (fun k entry => if entry.scanCode = ascii then k.putc entry.ascii else k) k
      else k.putc ascii
    else k
  else if 0x10 ≤ scanCode ∧ scanCode ≤ 0x28 ∨ 0x2B ≤ scanCode ∧ scanCode ≤ 0x35 ∨
      scanCode = 0x39 then
    if pressed then
      let ascii := getAscii scanCode
      if k.capsOn then k.putc (ascii - 32) else k.putc ascii
    else k
  else if scanCode = 0x0E then if pressed then k.putc 0x08 else k
  else k

/-- `keyboardHandler`, with what its two reads of the port return. -/
def keyboardHandler (first second : UInt8) (k : Keyboard) : Keyboard :=
  keyboardSwitch (first &&& 0x7F) (second &&& 0x80 = 0) k

/-! ## The flag -/

theorem numShift_capsOn (ascii : UInt8) (entries : List Scancode) (k : Keyboard) :
    (entries.foldl (fun k entry => if entry.scanCode = ascii then k.putc entry.ascii else k)
      k).capsOn = k.capsOn := by
  induction entries generalizing k with
  | nil => rfl
  | cons entry entries ih =>
    rw [List.foldl_cons, ih]
    split
    · rfl
    · rfl

/-- Nothing but a shift key changes the flag. -/
theorem keyboardSwitch_capsOn (scanCode : UInt8) (pressed : Bool) (k : Keyboard) :
    (keyboardSwitch scanCode pressed k).capsOn
      = if scanCode = 0x2A ∨ scanCode = 0x36 then pressed else k.capsOn := by
  rw [keyboardSwitch]
  by_cases hshift : scanCode = 0x2A ∨ scanCode = 0x36
  · rw [if_pos hshift, if_pos hshift]
  rw [if_neg hshift, if_neg hshift]
  cases pressed with
  | false => simp only [Bool.false_eq_true, if_false, ite_self]
  | true =>
    dsimp only
    split
    · rw [if_pos rfl]
      split
      · exact numShift_capsOn ..
      · rfl
    · split
      · rw [if_pos rfl]
        split
        · rfl
        · rfl
      · split
        · rfl
        · rfl

/-! ## The keys that are held -/

def shiftKeys : List UInt8 := [0x2A, 0x36]

/-- The break code of a key. -/
def breakCode (key : UInt8) : UInt8 := key ||| 0x80

/-- Behind the last make code of the key there is no break code. -/
def Held (key : UInt8) (bytes : List UInt8) : Prop :=
  ∃ before behind, bytes = before ++ key :: behind ∧ breakCode key ∉ behind

/-- A shift key is released while the other is held, and no shift key is
touched after that. -/
def ReleasedUnder (bytes : List UInt8) : Prop :=
  ∃ key ∈ shiftKeys, ∃ other ∈ shiftKeys, key ≠ other ∧ ∃ before behind,
    bytes = before ++ breakCode key :: behind ∧ Held other before ∧
    ∀ b ∈ behind, b &&& 0x7F ∉ shiftKeys

/-- The keyboard after these bytes, where both reads return the same. -/
def handle (k : Keyboard) (bytes : List UInt8) : Keyboard :=
  bytes.foldl (fun k b => keyboardHandler b b k) (initKeyboard k)

theorem handle_append (k : Keyboard) (bytes : List UInt8) (b : UInt8) :
    handle k (bytes ++ [b]) = keyboardHandler b b (handle k bytes) := by
  rw [handle, List.foldl_append]
  rfl

theorem held_nil (key : UInt8) : ¬ Held key [] := by
  rintro ⟨before, behind, h, -⟩
  exact absurd h (by simp)

/-- Where a byte is, when one more has come. -/
theorem split_append {bytes before behind : List UInt8} {b c : UInt8}
    (h : bytes ++ [b] = before ++ c :: behind) :
    behind = [] ∧ bytes = before ∧ b = c ∨
      ∃ behind', behind = behind' ++ [b] ∧ bytes = before ++ c :: behind' := by
  rcases List.eq_nil_or_concat behind with rfl | ⟨behind', d, rfl⟩
  · obtain ⟨hbytes, hb⟩ := List.append_inj' h rfl
    exact .inl ⟨rfl, hbytes, List.cons.inj hb |>.1⟩
  · rw [List.concat_eq_append, ← List.cons_append, ← List.append_assoc] at h
    obtain ⟨hbytes, hb⟩ := List.append_inj' h rfl
    obtain rfl := (List.cons.inj hb).1
    exact .inr ⟨behind', List.concat_eq_append .., hbytes⟩

/-- A key is held if it has just been pressed, or has been held and not just
been released. -/
theorem held_append (key : UInt8) (bytes : List UInt8) (b : UInt8) :
    Held key (bytes ++ [b]) ↔ b = key ∨ b ≠ breakCode key ∧ Held key bytes := by
  constructor
  · rintro ⟨before, behind, h, hbreak⟩
    rcases split_append h with ⟨-, -, hb⟩ | ⟨behind', rfl, hbytes⟩
    · exact .inl hb
    · rw [List.mem_append, not_or, List.mem_singleton] at hbreak
      exact .inr ⟨fun e => hbreak.2 e.symm, before, behind', hbytes, hbreak.1⟩
  · rintro (rfl | ⟨hne, before, behind, rfl, hbreak⟩)
    · exact ⟨bytes, [], rfl, List.not_mem_nil⟩
    · refine ⟨before, behind ++ [b], by simp, ?_⟩
      rw [List.mem_append, not_or, List.mem_singleton]
      exact ⟨hbreak, fun e => hne e.symm⟩

theorem releasedUnder_append (bytes : List UInt8) (b : UInt8) :
    ReleasedUnder (bytes ++ [b]) ↔
      (∃ key ∈ shiftKeys, ∃ other ∈ shiftKeys, key ≠ other ∧ b = breakCode key ∧ Held other bytes) ∨
      b &&& 0x7F ∉ shiftKeys ∧ ReleasedUnder bytes := by
  constructor
  · rintro ⟨key, hkey, other, hother, hne, before, behind, h, hheld, hquiet⟩
    rcases split_append h with ⟨-, rfl, hb⟩ | ⟨behind', rfl, hbytes⟩
    · exact .inl ⟨key, hkey, other, hother, hne, hb, hheld⟩
    · refine .inr ⟨hquiet b (by simp), key, hkey, other, hother, hne, before, behind', hbytes,
        hheld, ?_⟩
      exact fun c hc => hquiet c (List.mem_append_left _ hc)
  · rintro (⟨key, hkey, other, hother, hne, rfl, hheld⟩ |
      ⟨hquiet, key, hkey, other, hother, hne, before, behind, rfl, hheld, hrest⟩)
    · exact ⟨key, hkey, other, hother, hne, bytes, [], rfl, hheld,
        fun c hc => absurd hc List.not_mem_nil⟩
    · refine ⟨key, hkey, other, hother, hne, before, behind ++ [b], by simp, hheld, fun c hc => ?_⟩
      rcases List.mem_append.mp hc with hc | hc
      · exact hrest c hc
      · rw [List.mem_singleton.mp hc]
        exact hquiet

/-- The four codes of the shift keys. -/
theorem shift_cases {b : UInt8} (h : b &&& 0x7F ∈ shiftKeys) :
    b = 0x2A ∨ b = 0x36 ∨ b = 0xAA ∨ b = 0xB6 := by
  have hmod : (b &&& 0x7F).toNat = b.toNat % 128 := by
    rw [UInt8.toNat_and]
    exact Nat.and_two_pow_sub_one_eq_mod b.toNat 7
  have hlt := b.toNat_lt
  simp only [shiftKeys, List.mem_cons, List.not_mem_nil, or_false, ← UInt8.toNat_inj, hmod] at h ⊢
  change b.toNat % 128 = 0x2A ∨ b.toNat % 128 = 0x36 at h
  change b.toNat = 0x2A ∨ b.toNat = 0x36 ∨ b.toNat = 0xAA ∨ b.toNat = 0xB6
  omega

/-- Any other byte is none of them. -/
theorem other_codes {b : UInt8} (h : b &&& 0x7F ∉ shiftKeys) :
    b ≠ 0x2A ∧ b ≠ 0x36 ∧ b ≠ breakCode 0x2A ∧ b ≠ breakCode 0x36 := by
  have hne : ∀ c : UInt8, c &&& 0x7F ∈ shiftKeys → b ≠ c := by
    rintro c hc rfl
    exact h hc
  exact ⟨hne _ (by decide), hne _ (by decide), hne _ (by decide), hne _ (by decide)⟩

/-- **Shift**: after any bytes the flag says whether a shift key is held, unless
the last thing that happened to the shift keys is that one was released under
the other. -/
theorem capsOn_iff_held (k : Keyboard) (bytes : List UInt8) :
    ((handle k bytes).capsOn = true ↔ Held 0x2A bytes ∨ Held 0x36 bytes) ↔
      ¬ ReleasedUnder bytes := by
  induction bytes using List.reverseRecOn with
  | nil =>
    have hcaps : (handle k []).capsOn = false := rfl
    have hreleased : ¬ ReleasedUnder [] := by
      rintro ⟨_, _, _, _, _, before, behind, h, _⟩
      exact absurd h (by simp)
    simp only [hcaps, Bool.false_eq_true, held_nil, or_self, hreleased, not_false_eq_true]
  | append_singleton bytes b ih =>
    rw [handle_append, keyboardHandler, keyboardSwitch_capsOn, held_append, held_append,
      releasedUnder_append]
    by_cases hshift : b &&& 0x7F ∈ shiftKeys
    · -- a shift key has the last word
      have hcodes : breakCode 0x2A = 0xAA ∧ breakCode 0x36 = 0xB6 ∧
          (0x2A &&& 0x7F : UInt8) = 0x2A ∧ (0x36 &&& 0x7F : UInt8) = 0x36 ∧
          (0xAA &&& 0x7F : UInt8) = 0x2A ∧ (0xB6 &&& 0x7F : UInt8) = 0x36 ∧
          (0x2A &&& 0x80 : UInt8) = 0 ∧ (0x36 &&& 0x80 : UInt8) = 0 ∧
          (0xAA &&& 0x80 : UInt8) = 0x80 ∧ (0xB6 &&& 0x80 : UInt8) = 0x80 := by decide
      rcases shift_cases hshift with rfl | rfl | rfl | rfl <;>
        simp [shiftKeys, hcodes]
    · obtain ⟨hleft, hright, hleftBreak, hrightBreak⟩ := other_codes hshift
      have hother : ¬ (b &&& 0x7F = 0x2A ∨ b &&& 0x7F = 0x36) := by
        simpa [shiftKeys] using hshift
      have hnone : ¬ ∃ key ∈ shiftKeys, ∃ other ∈ shiftKeys, key ≠ other ∧ b = breakCode key ∧
          Held other bytes := by
        rintro ⟨key, hkey, _, _, _, hb, _⟩
        have hkeys : key = 0x2A ∨ key = 0x36 := by simpa [shiftKeys] using hkey
        rcases hkeys with rfl | rfl
        · exact hleftBreak hb
        · exact hrightBreak hb
      rw [if_neg hother]
      simp only [hleft, hright, hleftBreak, hrightBreak, false_or, ne_eq, not_false_eq_true,
        true_and, hnone, hshift, ih]

/-- **The defect**: the left shift key is released while the right one is
held. -/
theorem capsOn_forgets : ¬ ∀ (k : Keyboard) (bytes : List UInt8),
    ((handle k bytes).capsOn = true ↔ Held 0x2A bytes ∨ Held 0x36 bytes) := by
  intro h
  have hheld : Held 0x36 [0x2A, 0x36, 0xAA] := ⟨[0x2A], [0xAA], rfl, by decide⟩
  have hcaps :=
    (h ⟨false, ⟨fun _ => 0, 0, 0, ⟨0, fun _ => 0⟩, []⟩⟩ [0x2A, 0x36, 0xAA]).mpr (.inr hheld)
  revert hcaps
  decide

end Netclover.Kernel
