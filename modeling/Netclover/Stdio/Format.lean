import Mathlib.Data.List.GetD
import Netclover.Stdio.Printf

/-!
# Formats and what they print

A format is a row of `Piece`s: literals, `%%`, `%c`, `%s` and the integer
conversions. `Piece.text` is what a piece looks like, `Piece.args` and
`Piece.output` what it takes and prints for a value. `Piece.run` is the piece
as a computation on any arguments, and `printf_text` says that `printf` runs
the pieces of its format one after the other.
-/

namespace Netclover.Stdio

open Numeral Proc

variable {t : Target}

/-! ## Pieces -/

/-- The width of an integer argument. -/
def Length.bits (t : Target) : Length → Nat
  | .default | .short | .shortShort => 32
  | .long => t.longBits
  | .longLong => 64

def Length.text : Length → List UInt8
  | .default => []
  | .short => [ascii 'h']
  | .shortShort => [ascii 'h', ascii 'h']
  | .long => [ascii 'l']
  | .longLong => [ascii 'l', ascii 'l']

/-- The integer conversions. -/
inductive Conversion where
  | d | i | u | X | x | p | o
  deriving DecidableEq, Repr

namespace Conversion

def char : Conversion → UInt8
  | .d => ascii 'd'
  | .i => ascii 'i'
  | .u => ascii 'u'
  | .X => ascii 'X'
  | .x => ascii 'x'
  | .p => ascii 'p'
  | .o => ascii 'o'

def signed : Conversion → Bool
  | .d | .i => true
  | _ => false

def radix : Conversion → Nat
  | .d | .i | .u => 10
  | .X | .x | .p => 16
  | .o => 8

/-- The integer that an argument is printed as. -/
def value (conversion : Conversion) {w : Nat} (v : BitVec w) : Int :=
  if conversion.signed then v.toInt else v.toNat

/-- Its numeral. -/
def numeral (conversion : Conversion) {w : Nat} (v : BitVec w) : List UInt8 :=
  signedNumeral conversion.radix (conversion.value v)

end Conversion

inductive Piece where
  | literal (c : UInt8) (h : c ≠ 0 ∧ c ≠ ascii '%')
  | percent
  | char
  | string
  | number (length : Length) (conversion : Conversion)

/-- The piece in a format. -/
def Piece.text : Piece → List UInt8
  | .literal c _ => [c]
  | .percent => [ascii '%', ascii '%']
  | .char => [ascii '%', ascii 'c']
  | .string => [ascii '%', ascii 's']
  | .number length conversion => ascii '%' :: (length.text ++ [conversion.char])

/-- The format of some pieces. -/
def formatText (pieces : List Piece) : List UInt8 := pieces.flatMap Piece.text

/-- What a piece prints: nothing for a literal or `%%`, or an argument. -/
def Piece.Value (t : Target) : Piece → Type
  | .literal _ _ | .percent => Unit
  | .char => BitVec 32
  | .string => List UInt8
  | .number length _ => BitVec (length.bits t)

/-- An integer argument of the length. -/
def Length.arg : (length : Length) → BitVec (length.bits t) → Arg t
  | .default, v | .short, v | .shortShort, v => .int v
  | .long, v => .long v
  | .longLong, v => .longLong v

/-- The arguments that match a piece. -/
def Piece.args : (piece : Piece) → piece.Value t → List (Arg t)
  | .literal _ _, _ | .percent, _ => []
  | .char, v => [.int v]
  | .string, str => [.string str]
  | .number length _, v => [length.arg v]

/-- The characters a piece stands for. -/
def Piece.output : (piece : Piece) → piece.Value t → List UInt8
  | .literal c _, _ => [c]
  | .percent, _ => [ascii '%']
  | .char, v => [⟨BitVec.setWidth 8 v⟩]
  | .string, str => List.takeWhile (· ≠ 0) str
  | .number _ conversion, v => conversion.numeral v

/-- A piece with the value it is to print. -/
structure Filled (t : Target) where
  piece : Piece
  value : piece.Value t

namespace Filled

def args (item : Filled t) : List (Arg t) := item.piece.args item.value

def output (item : Filled t) : List UInt8 := item.piece.output item.value

end Filled

/-- How many arguments a piece takes. -/
def Piece.arity : Piece → Nat
  | .literal _ _ | .percent => 0
  | .char | .string | .number _ _ => 1

/-! ## Calls of `putc` -/

/-- A row of characters passed to `putc`. -/
def putAll (cs : List UInt8) : Printing Unit := Proc.act fun out => ((), out ++ cs)

theorem putAll_apply (cs out : List UInt8) : putAll cs out = .ok ((), out ++ cs) := rfl

theorem callPutc_eq (c : UInt8) : callPutc c = putAll [c] := rfl

theorem putAll_nil : putAll [] = pure () := by
  funext out
  rw [putAll_apply, List.append_nil]
  rfl

theorem putAll_append (xs ys : List UInt8) :
    (do putAll xs; putAll ys) = putAll (xs ++ ys) := by
  funext out
  rw [bind_ok (putAll_apply xs out), putAll_apply, putAll_apply, List.append_assoc]

theorem callPuts_eq (str : List UInt8) : callPuts str = putAll (str.takeWhile (· ≠ 0)) := by
  induction str with
  | nil => exact putAll_nil.symm
  | cons c str ih =>
    by_cases hc : c = 0
    · rw [callPuts, if_pos hc, List.takeWhile_cons_of_neg (by simpa using hc), putAll_nil]
    · rw [callPuts, if_neg hc, List.takeWhile_cons_of_pos (by simpa using hc), callPutc_eq, ih,
        putAll_append, List.singleton_append]

/-! ## Numbers -/

/-- The way back through the buffer prints it reversed. -/
theorem emitBack_eq (buffer : List UInt8) : ∀ pos, pos ≤ buffer.length →
    emitBack buffer pos = putAll (buffer.take pos).reverse := by
  intro pos
  induction pos with
  | zero =>
    intro _
    exact putAll_nil.symm
  | succ pos ih =>
    intro hpos
    rw [emitBack, ih (by omega), callPutc_eq, putAll_append, List.singleton_append,
      List.take_succ_eq_append_getElem hpos, List.reverse_append, List.reverse_singleton,
      List.singleton_append, List.getD_eq_getElem _ _ hpos]

theorem Target.umod_eq (t : Target) {a b : BitVec 64} (hb : 0 < b.toNat) :
    t.umod a b = a % b := by
  cases t with
  | i686 => exact Libc.umoddi3_eq hb
  | x86_64 => rfl

theorem Target.udiv_eq (t : Target) {a b : BitVec 64} (hb : 0 < b.toNat) :
    t.udiv a b = a / b := by
  cases t with
  | i686 => exact Libc.udivdi3_eq hb
  | x86_64 => rfl

theorem digitTable_get {d : Nat} (h : d < 16) : digitTable[d]? = some (digit d) := by
  have hall : ∀ i : Fin 16, digitTable[i.val]? = some (digit i) := by decide
  exact hall ⟨d, h⟩

/-- **The digit loop** stores the numeral from its end, within the room the
number needs. -/
theorem digitLoop_eq (t : Target) {radix : BitVec 64} (hr : 1 < radix.toNat)
    (hr' : radix.toNat ≤ 16) : ∀ (room : Nat) (number : BitVec 64) (buffer : List UInt8),
    number.toNat < radix.toNat ^ (room + 1) →
    digitLoop t radix (room + 1) number buffer
      = some (buffer ++ (numeral radix.toNat number.toNat).reverse) := by
  intro room
  induction room with
  | zero =>
    intro number buffer hn
    rw [Nat.zero_add, Nat.pow_one] at hn
    have hzero : ¬ 0 < t.udiv number radix := by
      rw [t.udiv_eq (by omega), BitVec.lt_def, BitVec.toNat_udiv, Nat.div_eq_of_lt hn]
      exact Nat.lt_irrefl 0
    rw [digitLoop, t.umod_eq (by omega), BitVec.toNat_umod, Nat.mod_eq_of_lt hn,
      digitTable_get (by omega)]
    dsimp only
    rw [if_neg hzero, numeral_of_lt hn]
    rfl
  | succ room ih =>
    intro number buffer hn
    have hmod := Nat.mod_lt number.toNat (show 0 < radix.toNat by omega)
    have hquot : (t.udiv number radix).toNat = number.toNat / radix.toNat := by
      rw [t.udiv_eq (by omega), BitVec.toNat_udiv]
    rw [digitLoop, t.umod_eq (by omega), BitVec.toNat_umod, digitTable_get (by omega)]
    dsimp only
    by_cases hlt : number.toNat < radix.toNat
    · -- the first digit of the numeral is the last one stored
      have hzero : ¬ 0 < t.udiv number radix := by
        rw [BitVec.lt_def, hquot, Nat.div_eq_of_lt hlt]
        exact Nat.lt_irrefl 0
      rw [if_neg hzero, numeral_of_lt hlt, Nat.mod_eq_of_lt hlt]
      rfl
    · have hpos : 0 < t.udiv number radix := by
        rw [BitVec.lt_def, hquot]
        exact Nat.div_pos (by omega) (by omega)
      have hroom : (t.udiv number radix).toNat < radix.toNat ^ (room + 1) := by
        rw [hquot]
        exact Nat.div_lt_of_lt_mul (by rw [Nat.mul_comm, ← Nat.pow_succ]; exact hn)
      rw [if_pos hpos, ih _ _ hroom, hquot, numeral_of_le (n := number.toNat) hr (by omega),
        List.reverse_append, List.append_assoc]
      rfl

/-- The 32 bytes of `buffer` are enough from radix 4 on. -/
theorem printfUnsigned_eq (t : Target) (number : BitVec 64) {radix : BitVec 32}
    (hr : 4 ≤ radix.toNat) (hr' : radix.toNat ≤ 16) :
    printfUnsigned t number radix = putAll (numeral radix.toNat number.toNat) := by
  have hext : (radix.signExtend 64).toNat = radix.toNat := by
    rw [BitVec.signExtend_eq_setWidth_of_msb_false, BitVec.toNat_setWidth_of_le (by decide)]
    rw [BitVec.msb_eq_false_iff_two_mul_lt]
    omega
  have hroom : number.toNat < (radix.signExtend 64).toNat ^ (31 + 1) := by
    rw [hext]
    calc number.toNat < 4 ^ 32 := by
          have := number.isLt
          omega
      _ ≤ radix.toNat ^ 32 := Nat.pow_le_pow_left hr 32
  rw [printfUnsigned, digitLoop_eq t (by omega) (by omega) 31 number [] hroom, hext,
    List.nil_append]
  dsimp only
  rw [emitBack_eq _ _ (Nat.le_refl _), List.take_length, List.reverse_reverse]

/-- `-number` wraps where it has to, and is the magnitude all the same. -/
theorem printfSigned_eq (t : Target) (number : BitVec 64) {radix : BitVec 32}
    (hr : 4 ≤ radix.toNat) (hr' : radix.toNat ≤ 16) :
    printfSigned t number radix = putAll (signedNumeral radix.toNat number.toInt) := by
  have hlt := number.isLt
  have hcond := BitVec.toInt_eq_toNat_cond number
  by_cases hneg : number.toInt < 0
  · have hslt : number.slt 0 = true := by
      rw [BitVec.slt_iff_toInt_lt]
      exact hneg
    have hmagnitude : (-number).toNat = number.toInt.natAbs := by
      rw [BitVec.toNat_neg]
      split at hcond <;> omega
    rw [printfSigned, if_pos hslt, printfUnsigned_eq t _ hr hr', callPutc_eq, putAll_append,
      hmagnitude, signedNumeral, if_pos hneg]
    rfl
  · have hslt : ¬ number.slt 0 = true := by
      rw [BitVec.slt_iff_toInt_lt]
      exact hneg
    have hmagnitude : number.toNat = number.toInt.natAbs := by
      split at hcond <;> omega
    rw [printfSigned, if_neg hslt, printfUnsigned_eq t _ hr hr', hmagnitude, signedNumeral,
      if_neg hneg]

/-! ## One piece -/

/-- Taking an integer argument of the length. -/
def vaNumber : (length : Length) → List (Arg t) → Printing (BitVec (length.bits t) × List (Arg t))
  | .default | .short | .shortShort => vaInt
  | .long => vaLong
  | .longLong => vaLongLong

/-- A piece as a computation, on whatever arguments there are. -/
def Piece.run : Piece → List (Arg t) → Printing (List (Arg t))
  | .literal c _, args => do
    callPutc c
    return args
  | .percent, args => do
    callPutc (ascii '%')
    return args
  | .char, args => do
    let (value, args) ← vaInt args
    callPutc ⟨value.setWidth 8⟩
    return args
  | .string, args => do
    let (str, args) ← vaString args
    callPuts str
    return args
  | .number length conversion, args => do
    let (value, args) ← vaNumber length args
    putAll (conversion.numeral value)
    return args

theorem Length.bits_le (t : Target) (length : Length) : length.bits t ≤ 64 := by
  cases t <;> cases length <;> decide

/-- The settings a conversion character is reached with: only the length has
been set. -/
def Settings.withLength (state : State) (length : Length) : Settings :=
  { Settings.initial with state, length }

/-- The settings it is printed with. -/
def Conversion.settings (conversion : Conversion) (state : State) (length : Length) : Settings where
  state := state
  length := length
  radix := BitVec.ofNat 32 conversion.radix
  sign := conversion.signed
  number := true

theorem spec_char (conversion : Conversion) (state : State) (length : Length) :
    (Settings.withLength state length).spec conversion.char = conversion.settings state length := by
  cases conversion <;> rfl

theorem Conversion.radix_spec (conversion : Conversion) :
    4 ≤ (BitVec.ofNat 32 conversion.radix).toNat ∧ (BitVec.ofNat 32 conversion.radix).toNat ≤ 16 ∧
      (BitVec.ofNat 32 conversion.radix).toNat = conversion.radix := by
  cases conversion <;> decide

/-- Widening keeps the value, signed or not. -/
theorem print_widened (t : Target) (conversion : Conversion) {w : Nat} (hw : w ≤ 64) (v : BitVec w) :
    (if conversion.signed
      then printfSigned t (v.signExtend 64) (BitVec.ofNat 32 conversion.radix)
      else printfUnsigned t (v.setWidth 64) (BitVec.ofNat 32 conversion.radix))
      = putAll (conversion.numeral v) := by
  obtain ⟨hr, hr', hradix⟩ := conversion.radix_spec
  rw [Conversion.numeral, Conversion.value]
  by_cases hsigned : conversion.signed = true
  · rw [if_pos hsigned, if_pos hsigned, printfSigned_eq t _ hr hr', hradix,
      BitVec.toInt_signExtend_of_le hw]
  · rw [if_neg hsigned, if_neg hsigned, printfUnsigned_eq t _ hr hr', hradix,
      BitVec.toNat_setWidth_of_le hw, signedNumeral_natCast]

/-- **Lines 155-184** print the numeral of the argument, whatever the length
and the conversion. -/
theorem printNumber_eq (conversion : Conversion) (state : State) (length : Length)
    (args : List (Arg t)) :
    printNumber t (conversion.settings state length) args
      = (Piece.number length conversion).run args := by
  have hwide := fun v => print_widened t conversion (length.bits_le t) v
  rw [printNumber, Piece.run]
  by_cases hsigned : conversion.signed = true
  · simp only [hsigned, if_true] at hwide
    rw [if_pos (by exact hsigned)]
    cases length with
    | longLong =>
      have hsame : ∀ v : BitVec 64, v.signExtend 64 = v := fun v => BitVec.signExtend_eq v
      simp only [← hwide]
      simp only [Length.bits, hsame]
      rfl
    | _ =>
      simp only [← hwide]
      rfl
  · simp only [if_neg hsigned] at hwide
    rw [if_neg (by exact hsigned)]
    cases length with
    | longLong =>
      have hsame : ∀ v : BitVec 64, v.setWidth 64 = v := fun v => BitVec.setWidth_eq v
      simp only [← hwide]
      simp only [Length.bits, hsame]
      rfl
    | _ =>
      simp only [← hwide]
      rfl

/-- A conversion character ends its piece, with the settings reset. -/
theorem printfSpec_char (conversion : Conversion) (state : State) (length : Length)
    (args : List (Arg t)) :
    printfSpec t (.withLength state length) conversion.char args
      = (Piece.number length conversion).run args >>= fun args => pure (.initial, args) := by
  have hnumber := printNumber_eq (t := t) conversion state length args
  rw [← hnumber, ← spec_char]
  cases conversion <;> rfl

/-- `%c` and `%s` leave the settings reset too. -/
theorem printfSpec_c (state : State) (args : List (Arg t)) :
    printfSpec t (.withLength state .default) (ascii 'c') args
      = Piece.char.run args >>= fun args => pure (.initial, args) := by
  simp only [Piece.run, bind_assoc]
  rfl

theorem printfSpec_s (state : State) (args : List (Arg t)) :
    printfSpec t (.withLength state .default) (ascii 's') args
      = Piece.string.run args >>= fun args => pure (.initial, args) := by
  simp only [Piece.run, bind_assoc]
  rfl

/-- The state in which a length modifier leaves the loop. -/
def Length.state : Length → State
  | .default => .length
  | .short => .lengthShort
  | .long => .lengthLong
  | .shortShort | .longLong => .spec

/-- The way from `%` to the conversion character. -/
theorem printfLoop_number (length : Length) (conversion : Conversion) (format : List UInt8)
    (args : List (Arg t)) :
    printfLoop t ((Piece.number length conversion).text ++ format) .initial args
      = printfSpec t (.withLength length.state length) conversion.char args >>= fun r =>
        printfLoop t format r.1 r.2 := by
  cases length <;> cases conversion <;> rfl

/-- **`printf` takes the pieces one at a time**: a piece leaves the settings
as it found them. -/
theorem printfLoop_piece (piece : Piece) (format : List UInt8) (args : List (Arg t)) :
    printfLoop t (piece.text ++ format) .initial args
      = piece.run args >>= fun args => printfLoop t format .initial args := by
  cases piece with
  | literal c h =>
    show printfLoop t (c :: format) .initial args = _
    rw [printfLoop, if_neg h.1, printfStep]
    show (if c = ascii '%' then _ else _) >>= _ = _
    rw [if_neg h.2]
    rfl
  | percent => rfl
  | char =>
    show (printfSpec t (.withLength .length .default) (ascii 'c') args >>= fun r =>
      printfLoop t format r.1 r.2) = _
    rw [printfSpec_c, bind_assoc]
    rfl
  | string =>
    show (printfSpec t (.withLength .length .default) (ascii 's') args >>= fun r =>
      printfLoop t format r.1 r.2) = _
    rw [printfSpec_s, bind_assoc]
    rfl
  | number length conversion =>
    rw [printfLoop_number, printfSpec_char, bind_assoc]
    rfl

/-- All the pieces of a format, in order. -/
def runPieces : List Piece → List (Arg t) → Printing (List (Arg t))
  | [], args => pure args
  | piece :: pieces, args => do
    let args ← piece.run args
    runPieces pieces args

theorem printf_text (pieces : List Piece) (args : List (Arg t)) :
    printf t (formatText pieces) args = runPieces pieces args := by
  rw [printf]
  induction pieces generalizing args with
  | nil => rfl
  | cons piece pieces ih =>
    show printfLoop t (piece.text ++ formatText pieces) .initial args = _
    rw [printfLoop_piece, runPieces]
    congr 1
    funext args
    exact ih args

/-! ## Matching arguments -/

/-- A piece with an argument that matches prints it, and takes it. -/
theorem Piece.run_args (piece : Piece) (value : piece.Value t) (rest : List (Arg t))
    (out : List UInt8) :
    piece.run (piece.args value ++ rest) out = .ok (rest, out ++ piece.output value) := by
  cases piece with
  | literal c h => rfl
  | percent => rfl
  | char => rfl
  | string =>
    have hputs := congrFun (callPuts_eq value) out
    exact bind_ok hputs
  | number length conversion => cases length <;> rfl

theorem Piece.length_args (piece : Piece) (value : piece.Value t) :
    (piece.args value).length = piece.arity := by
  cases piece <;> rfl

theorem Conversion.radix_bounds (conversion : Conversion) :
    1 < conversion.radix ∧ conversion.radix ≤ 16 := by
  cases conversion <;> decide

theorem runPieces_args (items : List (Filled t)) (rest : List (Arg t)) (out : List UInt8) :
    runPieces (items.map Filled.piece) (items.flatMap Filled.args ++ rest) out
      = .ok (rest, out ++ items.flatMap Filled.output) := by
  induction items generalizing out with
  | nil =>
    show Except.ok (rest, out) = _
    rw [List.flatMap_nil, List.append_nil]
  | cons item items ih =>
    have hitem : item.piece.run (item.args ++ (items.flatMap Filled.args ++ rest)) out
        = .ok (items.flatMap Filled.args ++ rest, out ++ item.output) :=
      item.piece.run_args item.value _ out
    rw [List.map_cons, runPieces, List.flatMap_cons, List.flatMap_cons, List.append_assoc]
    rw [bind_ok hitem, ih, List.append_assoc]

/-- **`printf` renders by pieces**, for both widths of `long`: on a format
with matching arguments it returns, what it has passed to `putc` is what the
pieces stand for, one behind the other, and it has taken one argument for each
conversion but `%%` and no more. The digits of a number have no leading zeros,
and parsing them gives the argument back. -/
theorem printf_renders (t : Target) (items : List (Filled t)) (rest : List (Arg t))
    (out : List UInt8) :
    printf t (formatText (items.map Filled.piece)) (items.flatMap Filled.args ++ rest) out
      = .ok (rest, out ++ items.flatMap Filled.output) ∧
    (∀ item : Filled t, item.args.length = item.piece.arity) ∧
    ∀ (length : Length) (conversion : Conversion) (v : BitVec (length.bits t)),
      let digits := magnitude (Piece.output (.number length conversion) v)
      (digits.head? = some (ascii '0') → digits = [ascii '0']) ∧
      parse conversion.radix (Piece.output (.number length conversion) v) = conversion.value v := by
  refine ⟨?_, ?_, ?_⟩
  · rw [printf_text, runPieces_args]
  · intro item
    exact item.piece.length_args item.value
  · intro length conversion v
    obtain ⟨hr, hr'⟩ := conversion.radix_bounds
    exact ⟨magnitude_head_zero hr hr' _, parse_signedNumeral hr hr' _⟩

end Netclover.Stdio
