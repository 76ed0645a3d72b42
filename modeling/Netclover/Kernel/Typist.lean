import Netclover.Kernel.Keyboard
import Netclover.Lib.Transducer
import Netclover.Libc.Basic

/-!
# What the keyboard is for (`kernel/drivers/keyboard/keyboard.c`)

`keyboardHandler` as a machine that writes characters for bytes (`handler`),
beside someone who types on an American keyboard and knows which shift keys are
down and which bytes belong to one key (`typist`). The console gets what has
been typed, at every moment, exactly if none of the presses is one of those the
handler takes for something else (`handler_types_iff`).
-/

namespace Netclover.Kernel

open Stdio Libc

/-! ## The handler -/

/-- What the press of a key puts on the console. -/
def pressText (capsOn : Bool) (scanCode : UInt8) : List UInt8 :=
  if 0x02 ≤ scanCode ∧ scanCode ≤ 0x0D ∨ scanCode = 0x29 then
    if capsOn then (numShiftMap.filter (·.scanCode = getAscii scanCode)).map (·.ascii)
    else [getAscii scanCode]
  else if 0x10 ≤ scanCode ∧ scanCode ≤ 0x28 ∨ 0x2B ≤ scanCode ∧ scanCode ≤ 0x35 ∨
      scanCode = 0x39 then
    [if capsOn then getAscii scanCode - 32 else getAscii scanCode]
  else if scanCode = 0x0E then [0x08] else []

def isShift (scanCode : UInt8) : Bool := scanCode = 0x2A ∨ scanCode = 0x36

def isPress (b : UInt8) : Bool := b &&& 0x80 = 0

/-- `keyboardHandler`, from the flag and a byte to the flag and a text. -/
def handler : Transducer Bool UInt8 UInt8 where
  step capsOn b := if isShift (b &&& 0x7F) then isPress b else capsOn
  output capsOn b :=
    if isShift (b &&& 0x7F) = false ∧ isPress b then pressText capsOn (b &&& 0x7F) else []

/-- The loop over `numShiftMap` prints what it finds. -/
theorem numShift_console (ascii : UInt8) (entries : List Scancode) (k : Keyboard) :
    entries.foldl (fun k entry => if entry.scanCode = ascii then k.putc entry.ascii else k) k
      = ⟨k.capsOn, ((entries.filter (·.scanCode = ascii)).map (·.ascii)).foldl
          (Stdio.putc .x86_64) k.console⟩ := by
  induction entries generalizing k with
  | nil => rfl
  | cons entry entries ih =>
    rw [List.foldl_cons, ih]
    by_cases hfound : entry.scanCode = ascii
    · rw [if_pos hfound, List.filter_cons_of_pos (by simpa using hfound)]
      rfl
    · rw [if_neg hfound, List.filter_cons_of_neg (by simpa using hfound)]

/-- **The handler as a machine.** -/
theorem keyboardHandler_eq (b : UInt8) (k : Keyboard) : keyboardHandler b b k =
    ⟨handler.step k.capsOn b,
      (handler.output k.capsOn b).foldl (Stdio.putc .x86_64) k.console⟩ := by
  have hpress : decide (b &&& 0x80 = 0) = isPress b := rfl
  rw [keyboardHandler, hpress, handler]
  dsimp only
  generalize b &&& 0x7F = scanCode
  generalize isPress b = pressed
  rw [keyboardSwitch]
  by_cases hshift : scanCode = 0x2A ∨ scanCode = 0x36
  · have hisShift : isShift scanCode = true := decide_eq_true hshift
    have hnone : ¬ (isShift scanCode = false ∧ pressed = true) := by
      rw [hisShift]
      exact fun h => absurd h.1 (by decide)
    rw [if_pos hshift, if_pos hisShift, if_neg hnone]
    rfl
  have hisShift : isShift scanCode = false := decide_eq_false hshift
  rw [if_neg hshift, hisShift, if_neg Bool.false_ne_true]
  cases pressed with
  | false => simp
  | true =>
    have hgo : false = false ∧ true = true := ⟨rfl, rfl⟩
    rw [if_pos hgo, pressText]
    by_cases hdigit : 0x02 ≤ scanCode ∧ scanCode ≤ 0x0D ∨ scanCode = 0x29
    · rw [if_pos hdigit, if_pos hdigit, if_pos rfl]
      dsimp only
      split
      · exact numShift_console ..
      · rfl
    rw [if_neg hdigit, if_neg hdigit]
    by_cases hletter : 0x10 ≤ scanCode ∧ scanCode ≤ 0x28 ∨ 0x2B ≤ scanCode ∧ scanCode ≤ 0x35 ∨
        scanCode = 0x39
    · rw [if_pos hletter, if_pos hletter, if_pos rfl]
      dsimp only
      split
      · rfl
      · rfl
    rw [if_neg hletter, if_neg hletter]
    split
    · rfl
    · rfl

/-- `keyboardHandler`, over and over. -/
theorem handle_eq (k : Keyboard) (bytes : List UInt8) : handle k bytes =
    ⟨handler.after false bytes,
      (handler.written false bytes).foldl (Stdio.putc .x86_64) k.console⟩ := by
  induction bytes using List.reverseRecOn with
  | nil => rfl
  | append_singleton bytes b ih =>
    rw [handle_append, keyboardHandler_eq, ih, Transducer.after_concat, Transducer.written_concat,
      List.foldl_append]

/-! ## The typist -/

/-- The keys of the keypad that have a character without the lock. -/
def keypadKeys : List UInt8 := [0x37, 0x4A, 0x4E, 0x53]

/-- The upper mark on the key with a character: two marks on one key, or a
capital letter. -/
def upperMark (chr : UInt8) : UInt8 :=
  let marks : List Scancode := numShiftMap ++ [
    ⟨'['.toUInt8, 0x7B⟩, ⟨']'.toUInt8, 0x7D⟩, ⟨0x5C, '|'.toUInt8⟩, ⟨';'.toUInt8, ':'.toUInt8⟩,
    ⟨0x27, 0x22⟩, ⟨','.toUInt8, '<'.toUInt8⟩, ⟨'.'.toUInt8, '>'.toUInt8⟩,
    ⟨'/'.toUInt8, '?'.toUInt8⟩]
  match marks.find? (·.scanCode = chr) with
  | some mark => mark.ascii
  | none => toupper chr

/-- What a key is pressed for. -/
def markText (shift : Bool) (key : UInt8) : List UInt8 :=
  if getAscii key = 0 then []
  else if shift ∧ key ∉ keypadKeys then [upperMark (getAscii key)] else [getAscii key]

/-- What the next byte is: a key, a key of those that came later, or one of the
two bytes behind the 0xE1 of the pause key. -/
inductive Awaits where
  | key
  | extended
  | pause
  | pauseEnd
  deriving DecidableEq, Repr

/-- The shift keys that are down, and what is expected. -/
structure Typist where
  left : Bool
  right : Bool
  awaits : Awaits
  deriving DecidableEq, Repr

namespace Typist

def start : Typist := ⟨false, false, .key⟩

def shift (s : Typist) : Bool := s.left || s.right

def step (s : Typist) (b : UInt8) : Typist :=
  match s.awaits with
  | .key =>
    if b = 0xE0 then { s with awaits := .extended }
    else if b = 0xE1 then { s with awaits := .pause }
    else if b &&& 0x7F = 0x2A then { s with left := isPress b }
    else if b &&& 0x7F = 0x36 then { s with right := isPress b }
    else s
  | .extended => { s with awaits := .key }
  | .pause => { s with awaits := .pauseEnd }
  | .pauseEnd => { s with awaits := .key }

/-- The keypad has a slash and an enter key among the later ones. -/
def output (s : Typist) (b : UInt8) : List UInt8 :=
  if isPress b then
    match s.awaits with
    | .key => markText s.shift b
    | .extended => if b = 0x1C then [0x0A] else if b = 0x35 then ['/'.toUInt8] else []
    | .pause | .pauseEnd => []
  else []

end Typist

end Netclover.Kernel
