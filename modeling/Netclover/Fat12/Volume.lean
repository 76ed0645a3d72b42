import Mathlib.Data.Finset.Card
import Mathlib.Data.List.GetD
import Mathlib.Order.Interval.Finset.Nat
import Netclover.Lib.Blocks

/-!
# FAT12 volumes, as the format defines them

A volume on a disk of 512-byte sectors, in natural numbers: where its parts
lie (`Layout`), what its table says (`entry`, `Chain`) and what its files and
its root directory hold (`contents`, `rootRecord`). Nothing here knows the
driver; `Stage2` compares the driver with it.
-/

namespace Netclover.Fat12

/-- The sectors of a disk, by LBA. -/
abbrev Image : Type := Nat → Block 512

/-! ## Layout -/

/-- The numbers of the boot sector that place the parts of the volume. -/
structure Layout where
  reserved : Nat
  fatCount : Nat
  sectorsPerFat : Nat
  dirEntries : Nat
  sectorsPerCluster : Nat

namespace Layout

variable (lay : Layout)

/-- The root directory follows the last FAT. -/
def rootLba : Nat := lay.reserved + lay.sectorsPerFat * lay.fatCount

/-- Entries have 32 bytes; the last sector may be filled in part. -/
def rootSectors : Nat := (32 * lay.dirEntries + 511) / 512

/-- The clusters follow the root directory. -/
def dataLba : Nat := lay.rootLba + lay.rootSectors

/-- Sector `s` of cluster `c`; clusters are numbered from 2. -/
def clusterLba (c s : Nat) : Nat := lay.dataLba + (c - 2) * lay.sectorsPerCluster + s

end Layout

/-! ## The table -/

/-- Entry `i` of a FAT12 table: two entries share three bytes. -/
def entry (table : List UInt8) (i : Nat) : Nat :=
  let word := (table.getD (i * 3 / 2) 0).toNat + (table.getD (i * 3 / 2 + 1) 0).toNat * 256
  if i % 2 = 0 then word % 4096 else word / 16

/-- `cs` are the clusters of a file that starts at `first`: data clusters
whose entries lie in the table and link each to the next, the last one to an
end mark. -/
structure Chain (table : List UInt8) (first : Nat) (cs : List Nat) : Prop where
  nonempty : 0 < cs.length
  head : cs.getD 0 0 = first
  data : ∀ c ∈ cs, 2 ≤ c ∧ c ≤ 0xFEF
  inTable : ∀ c ∈ cs, c * 3 / 2 + 1 < table.length
  linked : ∀ i, i + 1 < cs.length → entry table (cs.getD i 0) = cs.getD (i + 1) 0
  ends : 0xFF8 ≤ entry table (cs.getD (cs.length - 1) 0)

theorem getD_mem {cs : List Nat} {i : Nat} (hi : i < cs.length) : cs.getD i 0 ∈ cs := by
  rw [List.getD_eq_getElem cs 0 hi]
  exact List.getElem_mem hi

namespace Chain

variable {table : List UInt8} {first : Nat} {cs : List Nat}

theorem getD_data (h : Chain table first cs) {i : Nat} (hi : i < cs.length) :
    2 ≤ cs.getD i 0 ∧ cs.getD i 0 ≤ 0xFEF := h.data _ (getD_mem hi)

/-- From two equal clusters on the chain goes the same way. -/
theorem getD_shift (h : Chain table first cs) {i j : Nat} (hij : i ≤ j)
    (heq : cs.getD i 0 = cs.getD j 0) :
    ∀ m, j + m < cs.length → cs.getD (i + m) 0 = cs.getD (j + m) 0 := by
  intro m
  induction m with
  | zero => intro _; exact heq
  | succ m ih =>
    intro hm
    have hprev := ih (by omega)
    rw [← Nat.add_assoc, ← Nat.add_assoc, ← h.linked (i + m) (by omega),
      ← h.linked (j + m) (by omega), hprev]

/-- **No cluster twice**: a repeated cluster would be followed by the end
mark and by a data cluster. -/
theorem nodup (h : Chain table first cs) : cs.Nodup := by
  rw [List.nodup_iff_injective_get]
  have key : ∀ i j, i < j → j < cs.length → cs.getD i 0 ≠ cs.getD j 0 := by
    intro i j hij hj heq
    have hlast := h.getD_shift (Nat.le_of_lt hij) heq (cs.length - 1 - j) (by omega)
    rw [show j + (cs.length - 1 - j) = cs.length - 1 by omega] at hlast
    have hnext := h.linked (i + (cs.length - 1 - j)) (by omega)
    rw [hlast] at hnext
    have hends := h.ends
    have hdata := h.getD_data (i := i + (cs.length - 1 - j) + 1) (by omega)
    omega
  intro a b hab
  have hget : cs.getD a 0 = cs.getD b 0 := by
    rw [List.getD_eq_getElem cs 0 a.isLt, List.getD_eq_getElem cs 0 b.isLt]
    exact hab
  rcases Nat.lt_trichotomy a.val b.val with hlt | heq | hgt
  · exact absurd hget (key a b hlt b.isLt)
  · exact Fin.ext heq
  · exact absurd hget.symm (key b a hgt a.isLt)

/-- A chain fits into the numbers of the data clusters. -/
theorem length_le (h : Chain table first cs) : cs.length ≤ 0xFEE := by
  have hsub : cs.toFinset ⊆ Finset.Icc 2 0xFEF := by
    intro c hc
    have := h.data c (List.mem_toFinset.mp hc)
    exact Finset.mem_Icc.mpr this
  have hcard := Finset.card_le_card hsub
  rw [List.toFinset_card_of_nodup h.nodup, Nat.card_Icc] at hcard
  omega

end Chain

/-! ## What a volume holds -/

section
variable (img : Image) (lay : Layout)

/-- Sector `j` of the file whose clusters are `cs`. -/
def chainSector (cs : List Nat) (j : Nat) : Block 512 :=
  img (lay.clusterLba (cs.getD (j / lay.sectorsPerCluster) 0) (j % lay.sectorsPerCluster))

/-- The sectors of a chain. -/
def contents (cs : List Nat) : List UInt8 :=
  Block.concat (chainSector img lay cs) (cs.length * lay.sectorsPerCluster)

/-- Record `i` of the root directory. -/
def rootRecord (i : Nat) : List UInt8 :=
  ((img (lay.rootLba + i / 16)).bytes.drop (32 * (i % 16))).take 32

end

end Netclover.Fat12
