import Mathlib.Tactic.Ring

/-!
# 64-bit division on a 32-bit machine

`printf.c` brings its own `__udivdi3` and `__umoddi3`: restoring division, one
bit of the dividend at a time. Before a pass the remainder is at most the bits
brought down so far, of which there are at most 63, so the shift loses none,
however large the divisor; and the two are `/` and `%`.
-/

namespace Netclover.Libc

/-! ## The loops -/

/-- `remainder <<= 1; remainder |= (a >> i) & 1;`. -/
def shiftIn (a remainder : BitVec 64) (i : Nat) : BitVec 64 :=
  (remainder <<< 1) ||| ((a >>> i) &&& 1)

/-- The loop of `__udivdi3` over the bits below `i`. -/
def udivLoop (a divisor : BitVec 64) : Nat → BitVec 64 → BitVec 64 → BitVec 64
  | 0, quotient, _ => quotient
  | i + 1, quotient, remainder =>
    let remainder := shiftIn a remainder i
    if divisor ≤ remainder
    then udivLoop a divisor i (quotient ||| ((1 : BitVec 64) <<< i)) (remainder - divisor)
    else udivLoop a divisor i quotient remainder

/-- `__udivdi3`. -/
def udivdi3 (a b : BitVec 64) : BitVec 64 := udivLoop a b 64 0 0

/-- The loop of `__umoddi3`. -/
def umodLoop (a divisor : BitVec 64) : Nat → BitVec 64 → BitVec 64
  | 0, remainder => remainder
  | i + 1, remainder =>
    let remainder := shiftIn a remainder i
    if divisor ≤ remainder then umodLoop a divisor i (remainder - divisor)
    else umodLoop a divisor i remainder

/-- `__umoddi3`. -/
def umoddi3 (a b : BitVec 64) : BitVec 64 := umodLoop a b 64 0

/-- The variables of both loops before the pass for bit `i - 1`. -/
inductive LoopAt (a divisor : BitVec 64) : Nat → BitVec 64 → BitVec 64 → Prop
  | start : LoopAt a divisor 64 0 0
  | taken {i : Nat} {quotient remainder : BitVec 64} :
    LoopAt a divisor (i + 1) quotient remainder → divisor ≤ shiftIn a remainder i →
    LoopAt a divisor i (quotient ||| ((1 : BitVec 64) <<< i)) (shiftIn a remainder i - divisor)
  | kept {i : Nat} {quotient remainder : BitVec 64} :
    LoopAt a divisor (i + 1) quotient remainder → ¬ divisor ≤ shiftIn a remainder i →
    LoopAt a divisor i quotient (shiftIn a remainder i)

/-- What is left of the loops, from any state of theirs, ends in one. -/
theorem LoopAt.finish {a b : BitVec 64} : ∀ {i : Nat} {quotient remainder : BitVec 64},
    LoopAt a b i quotient remainder →
    LoopAt a b 0 (udivLoop a b i quotient remainder) (umodLoop a b i remainder) := by
  intro i
  induction i with
  | zero =>
    intro quotient remainder h
    exact h
  | succ i ih =>
    intro quotient remainder h
    by_cases hle : b ≤ shiftIn a remainder i
    · rw [udivLoop, umodLoop, if_pos hle, if_pos hle]
      exact ih (h.taken hle)
    · rw [udivLoop, umodLoop, if_neg hle, if_neg hle]
      exact ih (h.kept hle)

theorem loopAt_end (a b : BitVec 64) : LoopAt a b 0 (udivdi3 a b) (umoddi3 a b) :=
  LoopAt.finish .start

theorem LoopAt.le {a b : BitVec 64} {i : Nat} {quotient remainder : BitVec 64}
    (h : LoopAt a b i quotient remainder) : i ≤ 64 := by
  induction h with
  | start => exact Nat.le_refl 64
  | taken _ _ ih => exact Nat.le_of_succ_le ih
  | kept _ _ ih => exact Nat.le_of_succ_le ih

/-! ## One bit -/

/-- The dividend's leading bits, one bit further. -/
theorem div_two_pow_succ (a i : Nat) : a / 2 ^ i = 2 * (a / 2 ^ (i + 1)) + a / 2 ^ i % 2 := by
  rw [Nat.pow_succ, ← Nat.div_div_eq_div_mul]
  omega

/-- Quotient and remainder of the leading bits, one bit further. -/
theorem longDivision_step {b : Nat} (hb : 0 < b) (x : Nat) {bit : Nat} (hbit : bit < 2) :
    (b ≤ 2 * (x % b) + bit → (2 * x + bit) / b = 2 * (x / b) + 1 ∧
      (2 * x + bit) % b = 2 * (x % b) + bit - b) ∧
    (2 * (x % b) + bit < b → (2 * x + bit) / b = 2 * (x / b) ∧
      (2 * x + bit) % b = 2 * (x % b) + bit) := by
  have hx := Nat.div_add_mod x b
  have hr := Nat.mod_lt x hb
  generalize x / b = q at hx ⊢
  generalize x % b = r at hx hr ⊢
  constructor
  · intro hle
    have heq : 2 * x + bit = (2 * r + bit - b) + b * (2 * q + 1) := by
      rw [Nat.mul_add, Nat.mul_one, Nat.mul_left_comm]
      omega
    rw [heq, Nat.add_mul_div_left _ _ hb, Nat.add_mul_mod_self_left, Nat.div_eq_of_lt (by omega),
      Nat.mod_eq_of_lt (by omega), Nat.zero_add]
    exact ⟨rfl, rfl⟩
  · intro hlt
    have heq : 2 * x + bit = (2 * r + bit) + b * (2 * q) := by
      rw [Nat.mul_left_comm]
      omega
    rw [heq, Nat.add_mul_div_left _ _ hb, Nat.add_mul_mod_self_left, Nat.div_eq_of_lt hlt,
      Nat.mod_eq_of_lt hlt, Nat.zero_add]
    exact ⟨rfl, rfl⟩

section
variable {a b quotient remainder : BitVec 64}

/-- The bits brought down before a pass are fewer than 64. -/
theorem leading_lt (a : BitVec 64) (i : Nat) : a.toNat / 2 ^ (i + 1) < 2 ^ 63 := by
  rw [Nat.div_lt_iff_lt_mul (Nat.two_pow_pos _)]
  calc a.toNat < 2 ^ 63 * 2 ^ 1 := a.isLt
    _ ≤ 2 ^ 63 * 2 ^ (i + 1) :=
      Nat.mul_le_mul_left _ (Nat.pow_le_pow_right (by decide) (Nat.le_add_left 1 i))

/-- `remainder <<= 1` loses no bit of a remainder of 63. -/
theorem toNat_shiftLeft_one (h : remainder.toNat < 2 ^ 63) :
    (remainder <<< 1).toNat = 2 * remainder.toNat := by
  rw [BitVec.toNat_shiftLeft, Nat.shiftLeft_eq, Nat.mod_eq_of_lt (by omega)]
  omega

/-- The next bit of the dividend comes in at the end of the remainder. -/
theorem toNat_shiftIn (h : remainder.toNat < 2 ^ 63) (i : Nat) :
    (shiftIn a remainder i).toNat = 2 * remainder.toNat + a.toNat / 2 ^ i % 2 := by
  have hbit : ((a >>> i) &&& 1).toNat = a.toNat / 2 ^ i % 2 := by
    rw [BitVec.toNat_and, BitVec.toNat_ushiftRight, Nat.shiftRight_eq_div_pow]
    exact Nat.and_one_is_mod _
  have hshift : (remainder <<< 1).toNat = remainder.toNat <<< 1 := by
    rw [toNat_shiftLeft_one h, Nat.shiftLeft_eq]
    omega
  rw [shiftIn, BitVec.toNat_or, hbit, hshift,
    ← Nat.shiftLeft_add_eq_or_of_lt (by omega : a.toNat / 2 ^ i % 2 < 2 ^ 1), Nat.shiftLeft_eq]
  omega

/-- `quotient |= 1 << i` sets a bit that was clear. -/
theorem toNat_or_bit {q i : Nat} (h : quotient.toNat = q * 2 ^ (i + 1))
    (hi : i < 64) : (quotient ||| ((1 : BitVec 64) <<< i)).toNat = (2 * q + 1) * 2 ^ i := by
  have hone : ((1 : BitVec 64) <<< i).toNat = 2 ^ i := by
    rw [BitVec.toNat_shiftLeft, Nat.shiftLeft_eq]
    show 1 * 2 ^ i % 2 ^ 64 = 2 ^ i
    rw [Nat.one_mul, Nat.mod_eq_of_lt (Nat.pow_lt_pow_right (by decide) hi)]
  have hlt : 2 ^ i < 2 ^ (i + 1) := Nat.pow_lt_pow_right (by decide) (Nat.lt_succ_self i)
  rw [BitVec.toNat_or, hone, h, ← Nat.shiftLeft_eq, ← Nat.shiftLeft_add_eq_or_of_lt hlt,
    Nat.shiftLeft_eq, Nat.pow_succ]
  ring

/-- The remainder of the bits brought down has room for one more. -/
theorem remainder_lt {i : Nat} (h : remainder.toNat = a.toNat / 2 ^ (i + 1) % b.toNat) :
    remainder.toNat < 2 ^ 63 :=
  h ▸ Nat.lt_of_le_of_lt (Nat.mod_le _ _) (leading_lt a i)

variable (hb : 0 < b.toNat)
include hb

/-- **One pass of the division**: the remainder is that of the dividend's
leading bits, before and after, and the test gives the bit of the quotient. -/
theorem shiftIn_spec {i : Nat} (h : remainder.toNat = a.toNat / 2 ^ (i + 1) % b.toNat) :
    (b ≤ shiftIn a remainder i →
      (shiftIn a remainder i - b).toNat = a.toNat / 2 ^ i % b.toNat ∧
      a.toNat / 2 ^ i / b.toNat = 2 * (a.toNat / 2 ^ (i + 1) / b.toNat) + 1) ∧
    (¬ b ≤ shiftIn a remainder i →
      (shiftIn a remainder i).toNat = a.toNat / 2 ^ i % b.toNat ∧
      a.toNat / 2 ^ i / b.toNat = 2 * (a.toNat / 2 ^ (i + 1) / b.toNat)) := by
  have hnat : (shiftIn a remainder i).toNat = 2 * remainder.toNat + a.toNat / 2 ^ i % 2 :=
    toNat_shiftIn (remainder_lt h) i
  have hbits := div_two_pow_succ a.toNat i
  have hstep := longDivision_step hb (a.toNat / 2 ^ (i + 1))
    (Nat.mod_lt (a.toNat / 2 ^ i) (by decide : 2 > 0))
  rw [← hbits, ← h, ← hnat] at hstep
  constructor
  · intro hle
    obtain ⟨hquot, hrem⟩ := hstep.1 (BitVec.le_def.mp hle)
    rw [BitVec.toNat_sub_of_le hle]
    exact ⟨hrem.symm, hquot⟩
  · intro hnot
    obtain ⟨hquot, hrem⟩ := hstep.2 (Nat.lt_of_not_le fun e => hnot (BitVec.le_def.mpr e))
    exact ⟨hrem.symm, hquot⟩

/-! ## The whole division -/

/-- **The invariant of both loops**: quotient and remainder are those of the
bits brought down, the quotient's digits already in their places. -/
theorem LoopAt.spec {i : Nat} (h : LoopAt a b i quotient remainder) :
    quotient.toNat = a.toNat / 2 ^ i / b.toNat * 2 ^ i ∧
    remainder.toNat = a.toNat / 2 ^ i % b.toNat := by
  induction h with
  | start =>
    rw [Nat.div_eq_of_lt a.isLt, Nat.zero_div, Nat.zero_mod, Nat.zero_mul]
    exact ⟨rfl, rfl⟩
  | taken hprev hle ih =>
    obtain ⟨hrem, hquot⟩ := (shiftIn_spec hb ih.2).1 hle
    refine ⟨?_, hrem⟩
    rw [toNat_or_bit ih.1 hprev.le, hquot]
  | kept _ hnot ih =>
    obtain ⟨hrem, hquot⟩ := (shiftIn_spec hb ih.2).2 hnot
    refine ⟨?_, hrem⟩
    rw [ih.1, hquot, Nat.pow_succ]
    ring

theorem toNat_umoddi3 : (umoddi3 a b).toNat = a.toNat % b.toNat := by
  rw [((loopAt_end a b).spec hb).2, Nat.pow_zero, Nat.div_one]

theorem toNat_udivdi3 : (udivdi3 a b).toNat = a.toNat / b.toNat := by
  rw [((loopAt_end a b).spec hb).1, Nat.pow_zero, Nat.div_one, Nat.mul_one]

/-- **`__umoddi3`** is the remainder. -/
theorem umoddi3_eq : umoddi3 a b = a % b := by
  apply BitVec.eq_of_toNat_eq
  rw [BitVec.toNat_umod]
  exact toNat_umoddi3 hb

/-- **`__udivdi3`** is the quotient. -/
theorem udivdi3_eq : udivdi3 a b = a / b := by
  apply BitVec.eq_of_toNat_eq
  rw [BitVec.toNat_udiv]
  exact toNat_udivdi3 hb

end

/-- **Division with remainder**, for every divisor but zero: the two results are
quotient and remainder, and no pass shifts a bit out of the remainder. -/
theorem divideWithRemainder {a b : BitVec 64} (hb : b ≠ 0) :
    a.toNat = b.toNat * (udivdi3 a b).toNat + (umoddi3 a b).toNat ∧
    (umoddi3 a b).toNat < b.toNat ∧
    ∀ i quotient remainder, LoopAt a b (i + 1) quotient remainder →
      (remainder <<< 1).toNat = 2 * remainder.toNat := by
  have hpos : 0 < b.toNat := Nat.pos_of_ne_zero fun e => hb (BitVec.eq_of_toNat_eq e)
  rw [toNat_udivdi3 hpos, toNat_umoddi3 hpos]
  refine ⟨(Nat.div_add_mod _ _).symm, Nat.mod_lt _ hpos, ?_⟩
  intro i quotient remainder h
  exact toNat_shiftLeft_one (remainder_lt (h.spec hpos).2)

/-- At a divisor above `2 ^ 63`, with every bit of the dividend set. -/
theorem divideWithRemainder_above :
    (0xFFFFFFFFFFFFFFFF : BitVec 64).toNat
      = (0x8000000000000001 : BitVec 64).toNat
          * (udivdi3 0xFFFFFFFFFFFFFFFF 0x8000000000000001).toNat
        + (umoddi3 0xFFFFFFFFFFFFFFFF 0x8000000000000001).toNat ∧
    (umoddi3 0xFFFFFFFFFFFFFFFF 0x8000000000000001).toNat
      < (0x8000000000000001 : BitVec 64).toNat ∧
    ∀ i quotient remainder,
      LoopAt 0xFFFFFFFFFFFFFFFF 0x8000000000000001 (i + 1) quotient remainder →
      (remainder <<< 1).toNat = 2 * remainder.toNat :=
  divideWithRemainder (by decide)

end Netclover.Libc
