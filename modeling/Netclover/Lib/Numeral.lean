import Mathlib.Tactic.Ring

/-!
# Numerals

Positional notation in ASCII bytes, radix 2 to 16: `numeral radix n` is the
one numeral of `n` with lowercase digits and no leading zeros, and `parse`
reads numerals back. The digits are those of `Nat.toDigits`.
-/

namespace Numeral

/-- The code of an ASCII character. -/
def ascii (c : Char) : UInt8 := UInt8.ofNat c.toNat

/-- The digits of a number below the radix. -/
def digit (n : Nat) : UInt8 := ascii (Nat.digitChar n)

/-- `n` in the radix, the most significant digit first. -/
def numeral (radix n : Nat) : List UInt8 := (Nat.toDigits radix n).map ascii

/-- The numeral of an integer: `-` in front of the magnitude of a negative
one. -/
def signedNumeral (radix : Nat) (i : Int) : List UInt8 :=
  if i < 0 then ascii '-' :: numeral radix i.natAbs else numeral radix i.natAbs

/-- The value of a digit. -/
def digitValue (c : UInt8) : Nat := if c ≤ ascii '9' then c.toNat - 48 else c.toNat - 87

/-- The value of a row of digits behind a number already read. -/
def parseFrom (radix : Nat) : Nat → List UInt8 → Nat := List.foldl fun n c => n * radix + digitValue c

/-- A numeral without its sign. -/
def magnitude (cs : List UInt8) : List UInt8 :=
  if cs.head? = some (ascii '-') then cs.tail else cs

/-- The value of a numeral, with or without a sign. -/
def parse (radix : Nat) (cs : List UInt8) : Int :=
  if cs.head? = some (ascii '-') then -(parseFrom radix 0 (magnitude cs) : Nat)
  else (parseFrom radix 0 (magnitude cs) : Nat)

/-! ## Digits -/

theorem digitValue_digit {d : Nat} (h : d < 16) : digitValue (digit d) = d := by
  have hall : ∀ i : Fin 16, digitValue (digit i) = i := by decide
  exact hall ⟨d, h⟩

theorem digit_ne_sign {d : Nat} (h : d < 16) : digit d ≠ ascii '-' := by
  have hall : ∀ i : Fin 16, digit i ≠ ascii '-' := by decide
  exact hall ⟨d, h⟩

theorem digit_eq_zero_iff {d : Nat} (h : d < 16) : digit d = ascii '0' ↔ d = 0 := by
  have hall : ∀ i : Fin 16, digit i = ascii '0' ↔ i.val = 0 := by decide
  exact hall ⟨d, h⟩

/-! ## Numerals -/

section
variable {radix n : Nat}

@[simp] theorem numeral_zero (radix : Nat) : numeral radix 0 = [ascii '0'] := by
  rw [numeral, Nat.toDigits_zero]
  rfl

theorem numeral_of_lt (h : n < radix) : numeral radix n = [digit n] := by
  rw [numeral, Nat.toDigits_of_lt_base h]
  rfl

/-- One more digit behind a number other than zero. -/
theorem numeral_mul_add (hr : 1 < radix) {m k : Nat} (hm : 0 < m) (hk : k < radix) :
    numeral radix (radix * m + k) = numeral radix m ++ [digit k] := by
  rw [numeral, ← Nat.toDigits_append_toDigits hr hm hk, List.map_append, ← numeral, ← numeral,
    numeral_of_lt hk]

/-- The last digit is the remainder, and stands behind the quotient. -/
theorem numeral_of_le (hr : 1 < radix) (h : radix ≤ n) :
    numeral radix n = numeral radix (n / radix) ++ [digit (n % radix)] := by
  have hquot : 0 < n / radix := Nat.div_pos h (by omega)
  rw [← numeral_mul_add hr hquot (Nat.mod_lt n (by omega)), Nat.div_add_mod]

/-- **What a numeral starts with** is a digit, and zero for zero only. -/
theorem head_numeral (hr : 1 < radix) (hr' : radix ≤ 16) (n : Nat) :
    ∃ d, d < 16 ∧ (numeral radix n).head? = some (digit d) ∧ (d = 0 ↔ n = 0) := by
  induction n using Nat.base_induction radix hr with
  | single m hm =>
    refine ⟨m, by omega, ?_, Iff.rfl⟩
    rw [numeral_of_lt hm]
    rfl
  | digit m k hk hm ih =>
    obtain ⟨d, hd, hhead, hzero⟩ := ih
    have hpos : 0 < radix * m := Nat.mul_pos (by omega) hm
    refine ⟨d, hd, ?_, ?_⟩
    · rw [numeral_mul_add hr hm hk, List.head?_append, hhead]
      rfl
    · rw [hzero]
      omega

/-- Reading a numeral. -/
theorem parseFrom_numeral (hr : 1 < radix) (hr' : radix ≤ 16) (n : Nat) :
    parseFrom radix 0 (numeral radix n) = n := by
  induction n using Nat.base_induction radix hr with
  | single m hm =>
    rw [numeral_of_lt hm]
    show 0 * radix + digitValue (digit m) = m
    rw [digitValue_digit (by omega), Nat.zero_mul, Nat.zero_add]
  | digit m k hk hm ih =>
    rw [numeral_mul_add hr hm hk, parseFrom, List.foldl_append, ← parseFrom, ih]
    show m * radix + digitValue (digit k) = radix * m + k
    rw [digitValue_digit (by omega), Nat.mul_comm]

end

section
variable {radix : Nat} (hr : 1 < radix) (hr' : radix ≤ 16) (i : Int)
include hr hr'

/-- The sign is that of the integer. -/
theorem head_signedNumeral_iff :
    (signedNumeral radix i).head? = some (ascii '-') ↔ i < 0 := by
  by_cases hneg : i < 0
  · rw [signedNumeral, if_pos hneg]
    exact ⟨fun _ => hneg, fun _ => rfl⟩
  · obtain ⟨d, hd, hhead, -⟩ := head_numeral hr hr' i.natAbs
    rw [signedNumeral, if_neg hneg, hhead]
    constructor
    · intro hsign
      exact (digit_ne_sign hd (Option.some.inj hsign)).elim
    · intro h
      exact (hneg h).elim

theorem magnitude_signedNumeral : magnitude (signedNumeral radix i) = numeral radix i.natAbs := by
  have hhead := head_signedNumeral_iff hr hr' i
  by_cases hneg : i < 0
  · rw [magnitude, if_pos (hhead.mpr hneg), signedNumeral, if_pos hneg, List.tail_cons]
  · rw [magnitude, if_neg (fun h => hneg (hhead.mp h)), signedNumeral, if_neg hneg]

/-- **Parsing gives the integer back.** -/
theorem parse_signedNumeral : parse radix (signedNumeral radix i) = i := by
  have hhead := head_signedNumeral_iff hr hr' i
  have hvalue := parseFrom_numeral hr hr' i.natAbs
  rw [parse, magnitude_signedNumeral hr hr', hvalue]
  split
  · rename_i hsign
    have hneg := hhead.mp hsign
    omega
  · rename_i hsign
    have hneg : ¬ i < 0 := fun h => hsign (hhead.mpr h)
    omega

/-- **No leading zeros**: a magnitude that starts with a zero is that of zero. -/
theorem magnitude_head_zero
    (h : (magnitude (signedNumeral radix i)).head? = some (ascii '0')) :
    magnitude (signedNumeral radix i) = [ascii '0'] := by
  obtain ⟨d, hd, hhead, hzero⟩ := head_numeral hr hr' i.natAbs
  rw [magnitude_signedNumeral hr hr'] at h ⊢
  rw [hhead] at h
  have hd0 := (digit_eq_zero_iff hd).mp (Option.some.inj h)
  rw [hzero.mp hd0, numeral_zero]

end

/-- The numeral of a natural number is its own as an integer. -/
theorem signedNumeral_natCast (radix n : Nat) : signedNumeral radix n = numeral radix n := by
  rw [signedNumeral, if_neg (by omega), Int.natAbs_natCast]

end Numeral
