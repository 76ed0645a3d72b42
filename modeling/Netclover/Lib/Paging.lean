import Mathlib.Data.Option.Basic
import Mathlib.Tactic.Ring

/-!
# Paging: the four-level walk of x86-64

The translation of a virtual address through the tables that CR3 points to,
with pages of 4 KiB, 2 MiB and 1 GiB. Physical memory is a function from
addresses to the quadwords there.
-/

namespace Paging

/-- Physical memory, by the addresses of its quadwords. -/
abbrev Mem : Type := Nat → UInt64

/-- Bits `lo` to `lo + n - 1`. -/
def bits (x : UInt64) (lo n : Nat) : Nat := x.toNat / 2 ^ lo % 2 ^ n

/-- Bits 63 to 47 are all the same. -/
def canonical (v : UInt64) : Bool := bits v 47 17 == 0 || bits v 47 17 == 2 ^ 17 - 1

/-- Bits 51 to 12 of an entry or of CR3: the address of a table. -/
def frame (e : UInt64) : Nat := bits e 12 40 * 2 ^ 12

def present (e : UInt64) : Bool := bits e 0 1 == 1

/-- The PS bit. -/
def large (e : UInt64) : Bool := bits e 7 1 == 1

/-- A present entry of a table. -/
def entry (mem : Mem) (table index : Nat) : Option UInt64 :=
  if present (mem (table + 8 * index)) then some (mem (table + 8 * index)) else none

/-- The physical address of a virtual one, unless it faults. -/
def walk (mem : Mem) (cr3 v : UInt64) : Option Nat :=
  if canonical v then do
    let pml4e ← entry mem (frame cr3) (bits v 39 9)
    -- the PS bit of this level is reserved
    if large pml4e then none
    else
      let pdpte ← entry mem (frame pml4e) (bits v 30 9)
      if large pdpte then some (bits pdpte 30 22 * 2 ^ 30 + bits v 0 30)
      else
        let pde ← entry mem (frame pdpte) (bits v 21 9)
        if large pde then some (bits pde 21 31 * 2 ^ 21 + bits v 0 21)
        else
          let pte ← entry mem (frame pde) (bits v 12 9)
          some (bits pte 12 40 * 2 ^ 12 + bits v 0 12)
  else none

/-- An entry with the present bit that points to a table. -/
structure PointsTo (e : UInt64) (table : Nat) : Prop where
  present : present e = true
  small : large e = false
  frame : frame e = table

/-- An entry of a page directory that maps the 2 MiB page `page`. -/
structure MapsLarge (e : UInt64) (page : Nat) : Prop where
  present : present e = true
  large : large e = true
  page : bits e 21 31 = page

theorem entry_present {mem : Mem} {table index : Nat}
    (h : present (mem (table + 8 * index)) = true) :
    entry mem table index = some (mem (table + 8 * index)) := by
  rw [entry, if_pos h]

/-- **A walk to a 2 MiB page**, entry by entry. -/
theorem walk_large {mem : Mem} {cr3 v : UInt64} {pdpt pd page : Nat} (hv : canonical v = true)
    (hpml4e : PointsTo (mem (frame cr3 + 8 * bits v 39 9)) pdpt)
    (hpdpte : PointsTo (mem (pdpt + 8 * bits v 30 9)) pd)
    (hpde : MapsLarge (mem (pd + 8 * bits v 21 9)) page) :
    walk mem cr3 v = some (page * 2 ^ 21 + bits v 0 21) := by
  have h₁ := entry_present hpml4e.present
  have h₂ := entry_present hpdpte.present
  have h₃ := entry_present hpde.present
  simp only [walk, if_pos hv, h₁, Option.bind_eq_bind, Option.bind_some, hpml4e.small,
    Bool.false_eq_true, if_false, hpml4e.frame, h₂, hpdpte.small, hpdpte.frame, h₃, hpde.large,
    if_true, hpde.page]

/-- **What a walk needs**: an address that is translated is canonical, and on
each level its entry is there. -/
theorem walk_present {mem : Mem} {cr3 v : UInt64} {pa : Nat} (h : walk mem cr3 v = some pa) :
    canonical v = true ∧ present (mem (frame cr3 + 8 * bits v 39 9)) = true ∧
    ∀ pdpt, PointsTo (mem (frame cr3 + 8 * bits v 39 9)) pdpt →
      present (mem (pdpt + 8 * bits v 30 9)) = true ∧
      ∀ pd, PointsTo (mem (pdpt + 8 * bits v 30 9)) pd →
        present (mem (pd + 8 * bits v 21 9)) = true := by
  have habsent : ∀ {table index : Nat}, present (mem (table + 8 * index)) = false →
      entry mem table index = none := by
    intro table index hindex
    rw [entry, hindex, if_neg (by decide)]
  by_cases hv : canonical v = true
  · refine ⟨hv, ?_, fun pdpt hpml4e => ⟨?_, fun pd hpdpte => ?_⟩⟩
    · by_contra hnot
      rw [walk, if_pos hv, habsent (Bool.eq_false_iff.mpr hnot)] at h
      exact absurd h (by simp)
    · by_contra hnot
      rw [walk, if_pos hv, entry_present hpml4e.present] at h
      simp only [Option.bind_eq_bind, Option.bind_some, hpml4e.small, hpml4e.frame,
        habsent (Bool.eq_false_iff.mpr hnot), Option.bind_none, Bool.false_eq_true, if_false,
        reduceCtorEq] at h
    · by_contra hnot
      rw [walk, if_pos hv, entry_present hpml4e.present] at h
      simp only [Option.bind_eq_bind, Option.bind_some, hpml4e.small, hpml4e.frame,
        entry_present hpdpte.present, hpdpte.small, hpdpte.frame,
        habsent (Bool.eq_false_iff.mpr hnot), Option.bind_none, Bool.false_eq_true, if_false,
        reduceCtorEq] at h
  · rw [walk, if_neg hv] at h
    exact absurd h (by simp)

/-! ## Entries -/

/-- The address of a table with the present bit points to the table. -/
theorem pointsTo_of_toNat {e : UInt64} {table : Nat} (h : e.toNat = table + 1)
    (haligned : table % 2 ^ 12 = 0) (hlt : table < 2 ^ 52) : PointsTo e table where
  present := by
    rw [present, bits, h]
    simp only [beq_iff_eq]
    omega
  small := by
    rw [large, bits, h]
    simp only [beq_eq_false_iff_ne]
    omega
  frame := by
    rw [frame, bits, h]
    omega

theorem mapsLarge_of_toNat {e : UInt64} {page : Nat} (h : e.toNat = page * 2 ^ 21 + 0x83)
    (hlt : page < 2 ^ 31) : MapsLarge e page where
  present := by
    rw [present, bits, h]
    simp only [beq_iff_eq]
    omega
  large := by
    rw [large, bits, h]
    simp only [beq_iff_eq]
    omega
  page := by
    rw [bits, h]
    omega

end Paging
