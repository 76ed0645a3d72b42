import Netclover.Fat12.Volume

/-!
# Packed tables

How a FAT12 table is written: two 12-bit values in three bytes, low nibbles
first, so that the byte in the middle belongs to both. Of an odd number of
values the last one ends in the middle of its byte; the nibble left over can
hold anything. `entry_pack` reads every value back.
-/

namespace Netclover.Fat12

variable {spare : BitVec 4} {values : List (BitVec 12)} {i : Nat}

/-- The bytes of the table, `spare` the nibble that an odd number of values
leaves over. -/
def pack (spare : BitVec 4) : List (BitVec 12) → List UInt8
  | [] => []
  | [a] => [UInt8.ofNat (a.toNat % 256), UInt8.ofNat (a.toNat / 256 + spare.toNat * 16)]
  | a :: b :: rest =>
    UInt8.ofNat (a.toNat % 256) :: UInt8.ofNat (a.toNat / 256 + b.toNat % 16 * 16) ::
      UInt8.ofNat (b.toNat / 16) :: pack spare rest

theorem length_pack : (pack spare values).length = (3 * values.length + 1) / 2 := by
  induction values using pack.induct with
  | case1 => rfl
  | case2 a => simp [pack]
  | case3 a b rest ih =>
    rw [pack, List.length_cons, List.length_cons, List.length_cons, ih, List.length_cons,
      List.length_cons]
    omega

/-- Both bytes of an entry are the table's, also those of the last one. -/
theorem offset_lt_length_pack (h : i < values.length) :
    i * 3 / 2 + 1 < (pack spare values).length := by
  rw [length_pack]
  omega

/-- Three bytes on, the entries are those from the third on. -/
theorem entry_add_two (x y z : UInt8) (table : List UInt8) (i : Nat) :
    entry (x :: y :: z :: table) (i + 2) = entry table i := by
  have hindex : (i + 2) * 3 / 2 = i * 3 / 2 + 3 := by omega
  have hparity : (i + 2) % 2 = i % 2 := Nat.add_mod_right i 2
  rw [entry, entry, hindex, hparity]
  rfl

/-- The low byte and the nibble above it, whatever the next nibble is. -/
theorem entry_low (a : BitVec 12) {n : Nat} (hn : n < 16) (table : List UInt8) :
    entry (UInt8.ofNat (a.toNat % 256) :: UInt8.ofNat (a.toNat / 256 + n * 16) :: table) 0
      = a.toNat := by
  have ha := a.isLt
  show ((UInt8.ofNat (a.toNat % 256)).toNat
    + (UInt8.ofNat (a.toNat / 256 + n * 16)).toNat * 256) % 4096 = a.toNat
  rw [UInt8.toNat_ofNat_of_lt' (show _ < 256 by omega),
    UInt8.toNat_ofNat_of_lt' (show _ < 256 by omega)]
  omega

/-- The nibble and the byte above it, whatever the nibble before is. -/
theorem entry_high (b : BitVec 12) {n : Nat} (hn : n < 16) (x : UInt8) (table : List UInt8) :
    entry (x :: UInt8.ofNat (n + b.toNat % 16 * 16) :: UInt8.ofNat (b.toNat / 16) :: table) 1
      = b.toNat := by
  have hb := b.isLt
  show ((UInt8.ofNat (n + b.toNat % 16 * 16)).toNat
    + (UInt8.ofNat (b.toNat / 16)).toNat * 256) / 16 = b.toNat
  rw [UInt8.toNat_ofNat_of_lt' (show _ < 256 by omega),
    UInt8.toNat_ofNat_of_lt' (show _ < 256 by omega)]
  omega

/-- **Unpacking inverts packing**, at every index. -/
theorem entry_pack (h : i < values.length) :
    entry (pack spare values) i = (values[i]).toNat := by
  induction values using pack.induct generalizing i with
  | case1 => exact absurd h (Nat.not_lt_zero i)
  | case2 a =>
    obtain rfl : i = 0 := Nat.lt_one_iff.mp h
    exact entry_low a spare.isLt []
  | case3 a b rest ih =>
    have ha := a.isLt
    rw [pack]
    obtain _ | _ | i := i
    · exact entry_low a (Nat.mod_lt _ (by decide)) _
    · exact entry_high b (by omega) _ _
    · rw [entry_add_two, ih (by simpa using h)]
      rfl

end Netclover.Fat12
