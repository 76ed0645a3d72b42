import Mathlib.Data.List.GetD
import Mathlib.Tactic.Ring

/-!
# The C library functions the boot driver calls

A C string is the list of its characters before the terminator. `minInt` is
the library's `min`: it takes and returns `int`, and the driver calls it on
`uint32_t` values.
-/

namespace Netclover.Libc

/-- `min`, through `int` and back. -/
def minInt (a b : UInt32) : UInt32 := if a.toInt32 < b.toInt32 then a else b

/-- `memcpy` of some bytes to the address `dst` of a memory. -/
def memcpy (memory : Nat → UInt8) (dst : Nat) (bytes : List UInt8) : Nat → UInt8 := fun a =>
  if dst ≤ a ∧ a < dst + bytes.length then bytes.getD (a - dst) 0 else memory a

/-- `memset`: the loop writes from the first byte up. -/
def memset (dest : Nat) (value : Int32) (n : Nat) (memory : Nat → UInt8) : Nat → UInt8 :=
  (List.range n).foldl (fun d i => Function.update d (dest + i) value.toUInt32.toUInt8) memory

/-- `strchr`, as an offset into the string. -/
def strchr (str : List UInt8) (chr : UInt8) : Option Nat := str.findIdx? (· == chr)

def islower (c : UInt8) : Bool := 0x61 ≤ c && c ≤ 0x7A

def toupper (c : UInt8) : UInt8 := if islower c then c - 0x61 + 0x41 else c

@[simp] theorem memcpy_nil (memory : Nat → UInt8) (dst : Nat) : memcpy memory dst [] = memory := by
  funext a
  rw [memcpy, if_neg (by simp only [List.length_nil]; omega)]

/-- A copy that goes on where another ended. -/
theorem memcpy_append (memory : Nat → UInt8) (dst : Nat) (xs ys : List UInt8) :
    memcpy (memcpy memory dst xs) (dst + xs.length) ys = memcpy memory dst (xs ++ ys) := by
  funext a
  simp only [memcpy, List.length_append]
  by_cases hy : dst + xs.length ≤ a ∧ a < dst + xs.length + ys.length
  · rw [if_pos hy, if_pos (by omega), List.getD_append_right _ _ _ _ (by omega)]
    congr 1
    omega
  · rw [if_neg hy]
    by_cases hx : dst ≤ a ∧ a < dst + xs.length
    · rw [if_pos hx, if_pos (by omega), List.getD_append _ _ _ _ (by omega)]
    · rw [if_neg hx, if_neg (by omega)]

/-- Where a copy went. -/
theorem memcpy_get (memory : Nat → UInt8) (dst : Nat) (bytes : List UInt8) {i : Nat}
    (h : i < bytes.length) : memcpy memory dst bytes (dst + i) = bytes.getD i 0 := by
  rw [memcpy, if_pos (by omega), Nat.add_sub_cancel_left]

/-- What `memset` leaves, byte by byte. -/
theorem memset_get (dest : Nat) (value : Int32) (n : Nat) (memory : Nat → UInt8) (a : Nat) :
    memset dest value n memory a
      = if dest ≤ a ∧ a < dest + n then value.toUInt32.toUInt8 else memory a := by
  induction n with
  | zero => rw [if_neg (by omega)]; rfl
  | succ n ih =>
    have hlast : memset dest value (n + 1) memory
        = Function.update (memset dest value n memory) (dest + n) value.toUInt32.toUInt8 := by
      rw [memset, List.range_succ, List.foldl_append]
      rfl
    rw [hlast]
    by_cases ha : a = dest + n
    · rw [ha, Function.update_self, if_pos (by omega)]
    · rw [Function.update_of_ne ha, ih]
      by_cases hin : dest ≤ a ∧ a < dest + n
      · rw [if_pos hin, if_pos (by omega)]
      · rw [if_neg hin, if_neg (by omega)]

theorem toInt_toInt32 (a : UInt32) (h : a.toNat < 2 ^ 31) : a.toInt32.toInt = a.toNat := by
  show a.toBitVec.toInt = a.toNat
  rw [BitVec.toInt_eq_toNat_cond]
  have : a.toBitVec.toNat = a.toNat := rfl
  split <;> omega

/-- Below `2 ^ 31` the library's `min` is the minimum. -/
theorem toNat_minInt {a b : UInt32} (ha : a.toNat < 2 ^ 31) (hb : b.toNat < 2 ^ 31) :
    (minInt a b).toNat = min a.toNat b.toNat := by
  have hlt : a.toInt32 < b.toInt32 ↔ a.toNat < b.toNat := by
    rw [Int32.lt_iff_toInt_lt, toInt_toInt32 a ha, toInt_toInt32 b hb]
    omega
  rw [minInt]
  split
  · rename_i h
    rw [hlt] at h
    omega
  · rename_i h
    rw [hlt] at h
    omega

theorem toInt_toInt32_of_ge (a : UInt32) (h : 2 ^ 31 ≤ a.toNat) :
    a.toInt32.toInt = a.toNat - 2 ^ 32 := by
  show a.toBitVec.toInt = a.toNat - 2 ^ 32
  rw [BitVec.toInt_eq_toNat_cond]
  have : a.toBitVec.toNat = a.toNat := rfl
  split <;> omega

/-- A negative argument makes the library's `min` negative. -/
theorem le_toNat_minInt {a b : UInt32} (h : 2 ^ 31 ≤ a.toNat ∨ 2 ^ 31 ≤ b.toNat) :
    2 ^ 31 ≤ (minInt a b).toNat := by
  have hcases : ∀ c : UInt32, c.toNat < 2 ^ 31 ∧ c.toInt32.toInt = c.toNat ∨
      2 ^ 31 ≤ c.toNat ∧ c.toInt32.toInt = c.toNat - 2 ^ 32 := by
    intro c
    rcases Nat.lt_or_ge c.toNat (2 ^ 31) with hc | hc
    · exact .inl ⟨hc, toInt_toInt32 c hc⟩
    · exact .inr ⟨hc, toInt_toInt32_of_ge c hc⟩
  have ha := hcases a
  have hb := hcases b
  have hlta := a.toNat_lt
  have hltb := b.toNat_lt
  rw [minInt]
  split
  · rename_i hlt
    rw [Int32.lt_iff_toInt_lt] at hlt
    omega
  · rename_i hlt
    rw [Int32.lt_iff_toInt_lt] at hlt
    omega

end Netclover.Libc
