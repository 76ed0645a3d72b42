import Netclover.Lib.Numeral
import Netclover.Lib.Proc
import Netclover.Libc.Division
import Netclover.Stdio.Console

/-!
# `printf.c`

`printf` as a `Proc` over the characters that have been passed to `putc`. A
format is the list of its characters; the arguments that are left are a list
of `Arg`s, and taking one with another type than it was passed with halts, as
does a digit that would be stored past `buffer`.

A `long` has 32 bits in the bootloader's library and 64 in the kernel's, and
the bootloader's library divides by `__udivdi3` and `__umoddi3`.
-/

namespace Netclover.Stdio

open Numeral Libc

/-! ## Targets and arguments -/

namespace Target

/-- The width of `long`. -/
def longBits : Target → Nat
  | .i686 => 32
  | .x86_64 => 64

/-- `a / b` on `unsigned long long`. -/
def udiv : Target → BitVec 64 → BitVec 64 → BitVec 64
  | .i686, a, b => udivdi3 a b
  | .x86_64, a, b => a / b

/-- `a % b` on `unsigned long long`. -/
def umod : Target → BitVec 64 → BitVec 64 → BitVec 64
  | .i686, a, b => umoddi3 a b
  | .x86_64, a, b => a % b

end Target

/-- Why a call does not return. -/
inductive Stop where
  | outOfBounds
  | badArgument
  | unfinished
  deriving DecidableEq, Repr

/-- An argument, by its type after the promotions. The signed and the unsigned
type of a width are passed alike. A string is what stands at its address. -/
inductive Arg (t : Target) where
  | int (value : BitVec 32)
  | long (value : BitVec t.longBits)
  | longLong (value : BitVec 64)
  | string (str : List UInt8)
  deriving DecidableEq, Repr

/-- A computation that calls `putc`. -/
abbrev Printing (α : Type) : Type := Proc (List UInt8) Stop α

/-- The call `putc(chr)`. -/
def callPutc (chr : UInt8) : Printing Unit := Proc.act fun out => ((), out ++ [chr])

/-- `puts`, by its calls of `putc`. -/
def callPuts : List UInt8 → Printing Unit
  | [] => pure ()
  | chr :: str => if chr = 0 then pure () else do
    callPutc chr
    callPuts str

variable {t : Target}

/-- `va_arg(args, int)` and `va_arg(args, unsigned int)`. -/
def vaInt : List (Arg t) → Printing (BitVec 32 × List (Arg t))
  | .int value :: args => pure (value, args)
  | _ => Proc.halt .badArgument

/-- `va_arg(args, long)` and `va_arg(args, unsigned long)`. -/
def vaLong : List (Arg t) → Printing (BitVec t.longBits × List (Arg t))
  | .long value :: args => pure (value, args)
  | _ => Proc.halt .badArgument

/-- `va_arg(args, long long)` and `va_arg(args, unsigned long long)`. -/
def vaLongLong : List (Arg t) → Printing (BitVec 64 × List (Arg t))
  | .longLong value :: args => pure (value, args)
  | _ => Proc.halt .badArgument

/-- `va_arg(args, const char*)`. -/
def vaString : List (Arg t) → Printing (List UInt8 × List (Arg t))
  | .string str :: args => pure (str, args)
  | _ => Proc.halt .badArgument

/-! ## `printf_unsigned` and `printf_signed` -/

/-- `"0123456789abcdef"`, with the terminator. -/
def digitTable : List UInt8 := "0123456789abcdef".toList.map ascii ++ [0]

/-- The loop that fills `buffer`: `room` bytes of it are left. -/
def digitLoop (t : Target) (radix : BitVec 64) :
    Nat → BitVec 64 → List UInt8 → Option (List UInt8)
  | 0, _, _ => none
  | room + 1, number, buffer =>
    match digitTable[(t.umod number radix).toNat]? with
    | none => none
    | some chr =>
      let number := t.udiv number radix
      let buffer := buffer ++ [chr]
      if 0 < number then digitLoop t radix room number buffer else some buffer

/-- `while (--pos >= 0) putc(buffer[pos]);`. -/
def emitBack (buffer : List UInt8) : Nat → Printing Unit
  | 0 => pure ()
  | pos + 1 => do
    callPutc (buffer.getD pos 0)
    emitBack buffer pos

/-- `printf_unsigned`. The radix is an `int`. -/
def printfUnsigned (t : Target) (number : BitVec 64) (radix : BitVec 32) : Printing Unit :=
  match digitLoop t (radix.signExtend 64) 32 number [] with
  | none => Proc.halt .outOfBounds
  | some buffer => emitBack buffer buffer.length

/-- `printf_signed`. -/
def printfSigned (t : Target) (number : BitVec 64) (radix : BitVec 32) : Printing Unit :=
  if number.slt 0 then do
    callPutc (ascii '-')
    printfUnsigned t (-number) radix
  else printfUnsigned t number radix

/-! ## `printf` -/

/-- `PRINTF_STATE_*`. -/
inductive State where
  | normal
  | length
  | lengthShort
  | lengthLong
  | spec
  deriving DecidableEq, Repr

/-- `PRINTF_LENGTH_*`. -/
inductive Length where
  | default
  | shortShort
  | short
  | long
  | longLong
  deriving DecidableEq, Repr

/-- The variables of `printf`. -/
structure Settings where
  state : State
  length : Length
  radix : BitVec 32
  sign : Bool
  number : Bool

/-- Their values at the start and after each conversion. -/
def Settings.initial : Settings := ⟨.normal, .default, 10, false, false⟩

/-- The cases of lines 132-150. -/
def Settings.spec (st : Settings) (c : UInt8) : Settings :=
  if c = ascii 'd' ∨ c = ascii 'i' then { st with radix := 10, sign := true, number := true }
  else if c = ascii 'u' then { st with radix := 10, sign := false, number := true }
  else if c = ascii 'X' ∨ c = ascii 'x' ∨ c = ascii 'p' then
    { st with radix := 16, sign := false, number := true }
  else if c = ascii 'o' then { st with radix := 8, sign := false, number := true }
  else st

/-- Lines 155-184: the number, as wide as its length says. -/
def printNumber (t : Target) (st : Settings) (args : List (Arg t)) : Printing (List (Arg t)) :=
  if st.sign then
    match st.length with
    | .shortShort | .short | .default => do
      let (value, args) ← vaInt args
      printfSigned t (value.signExtend 64) st.radix
      return args
    | .long => do
      let (value, args) ← vaLong args
      printfSigned t (value.signExtend 64) st.radix
      return args
    | .longLong => do
      let (value, args) ← vaLongLong args
      printfSigned t value st.radix
      return args
  else
    match st.length with
    | .shortShort | .short | .default => do
      let (value, args) ← vaInt args
      printfUnsigned t (value.setWidth 64) st.radix
      return args
    | .long => do
      let (value, args) ← vaLong args
      printfUnsigned t (value.setWidth 64) st.radix
      return args
    | .longLong => do
      let (value, args) ← vaLongLong args
      printfUnsigned t value st.radix
      return args

/-- `PRINTF_STATE_SPEC_`: one conversion, after which the variables are reset. -/
def printfSpec (t : Target) (st : Settings) (c : UInt8) (args : List (Arg t)) :
    Printing (Settings × List (Arg t)) := do
  let args ←
    if c = ascii 'c' then do
      let (value, args) ← vaInt args
      callPutc ⟨value.setWidth 8⟩
      pure args
    else if c = ascii 's' then do
      let (str, args) ← vaString args
      callPuts str
      pure args
    else if c = ascii '%' then do
      callPutc (ascii '%')
      pure args
    else pure args
  let st := st.spec c
  let args ← if st.number then printNumber t st args else pure args
  return (.initial, args)

/-- The body of the loop, on one character of the format. -/
def printfStep (t : Target) (st : Settings) (c : UInt8) (args : List (Arg t)) :
    Printing (Settings × List (Arg t)) :=
  match st.state with
  | .normal =>
    if c = ascii '%' then pure ({ st with state := .length }, args)
    else do
      callPutc c
      return (st, args)
  | .length =>
    if c = ascii 'h' then pure ({ st with length := .short, state := .lengthShort }, args)
    else if c = ascii 'l' then pure ({ st with length := .long, state := .lengthLong }, args)
    else printfSpec t st c args
  | .lengthShort =>
    if c = ascii 'h' then pure ({ st with length := .shortShort, state := .spec }, args)
    else printfSpec t st c args
  | .lengthLong =>
    if c = ascii 'l' then pure ({ st with length := .longLong, state := .spec }, args)
    else printfSpec t st c args
  | .spec => printfSpec t st c args

/-- The loop over the format. -/
def printfLoop (t : Target) : List UInt8 → Settings → List (Arg t) → Printing (List (Arg t))
  | [], _, args => pure args
  | c :: format, st, args =>
    if c = 0 then pure args
    else do
      let (st, args) ← printfStep t st c args
      printfLoop t format st args

/-- `printf`: the arguments it has not taken. -/
def printf (t : Target) (format : List UInt8) (args : List (Arg t)) : Printing (List (Arg t)) :=
  printfLoop t format .initial args

end Netclover.Stdio
