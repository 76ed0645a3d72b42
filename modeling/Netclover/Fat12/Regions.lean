import Netclover.Fat12.Volume

/-!
# The parts of a volume

Reserved sectors, FATs and root directory take up the sectors before the first
cluster, without a gap; the clusters take up those from there on, each sector
being one sector of one cluster. The root directory has as many sectors as its
entries need.
-/

namespace Netclover.Fat12.Layout

variable (lay : Layout)

/-! ## Before the clusters -/

/-- The first sector of FAT `k`; the FATs follow the reserved sectors. -/
def fatLba (k : Nat) : Nat := lay.reserved + k * lay.sectorsPerFat

/-- The sector of entry `i` of the root directory, 16 entries to a sector. -/
def entryLba (i : Nat) : Nat := lay.rootLba + i / 16

/-- The sectors that belong to no cluster, by the part they are in. -/
inductive InSystemArea (lba : Nat) : Prop
  | reserved : lba < lay.reserved → InSystemArea lba
  | fat (k : Nat) : k < lay.fatCount → lay.fatLba k ≤ lba → lba < lay.fatLba (k + 1) →
    InSystemArea lba
  | root : lay.rootLba ≤ lba → lba < lay.rootLba + lay.rootSectors → InSystemArea lba

theorem rootLba_eq : lay.rootLba = lay.fatLba lay.fatCount := by
  rw [rootLba, fatLba, Nat.mul_comm]

theorem fatLba_mono {j k : Nat} (h : j ≤ k) : lay.fatLba j ≤ lay.fatLba k :=
  Nat.add_le_add_left (Nat.mul_le_mul_right _ h) _

/-- **Where the clusters begin**: behind the sectors of all the entries, and no
later, also if the entries do not fill the last of them. -/
theorem dataLba_le_iff {lba : Nat} :
    lay.dataLba ≤ lba ↔ lay.rootLba ≤ lba ∧ ∀ i < lay.dirEntries, lay.entryLba i < lba := by
  simp only [dataLba, rootSectors, entryLba]
  constructor
  · intro h
    refine ⟨by omega, ?_⟩
    intro i hi
    omega
  · intro ⟨hroot, hentries⟩
    rcases Nat.eq_zero_or_pos lay.dirEntries with hnone | hsome
    · omega
    · have hlast := hentries (lay.dirEntries - 1) (by omega)
      omega

/-- The parts before the clusters leave no gap and go no further. -/
theorem inSystemArea_iff {lba : Nat} : lay.InSystemArea lba ↔ lba < lay.dataLba := by
  have hroot := lay.rootLba_eq
  have hfirst : lay.fatLba 0 = lay.reserved := by rw [fatLba, Nat.zero_mul, Nat.add_zero]
  have hfats := lay.fatLba_mono (Nat.zero_le lay.fatCount)
  constructor
  · intro h
    rw [dataLba]
    cases h with
    | reserved h => omega
    | fat k hk _ h =>
      have hend := lay.fatLba_mono (Nat.succ_le_of_lt hk)
      rw [Nat.succ_eq_add_one] at hend
      omega
    | root _ h => exact h
  · intro h
    rcases Nat.lt_or_ge lba lay.reserved with hres | hres
    · exact .reserved hres
    rcases Nat.lt_or_ge lba lay.rootLba with hfat | hfat
    · -- the FAT it is in, by its distance from the first one
      have hoff : lba - lay.reserved < lay.sectorsPerFat * lay.fatCount := by
        rw [rootLba] at hfat
        omega
      have hpos : 0 < lay.sectorsPerFat := Nat.pos_of_mul_pos_right (Nat.zero_lt_of_lt hoff)
      have hdiv := Nat.div_add_mod' (lba - lay.reserved) lay.sectorsPerFat
      have hmod := Nat.mod_lt (lba - lay.reserved) hpos
      refine .fat ((lba - lay.reserved) / lay.sectorsPerFat) (Nat.div_lt_of_lt_mul hoff) ?_ ?_
      · rw [fatLba]
        omega
      · rw [fatLba, Nat.succ_mul]
        omega
    · exact .root hfat h

/-! ## The clusters -/

/-- Sector `s` of the data cluster `c`. -/
structure DataSector (c s : Nat) : Prop where
  first : 2 ≤ c
  last : c ≤ 0xFEF
  sector : s < lay.sectorsPerCluster

variable {lay} {c c' s s' : Nat}

theorem DataSector.dataLba_le (_ : lay.DataSector c s) : lay.dataLba ≤ lay.clusterLba c s := by
  rw [clusterLba, Nat.add_assoc]
  exact Nat.le_add_right _ _

/-- **No sector twice.** -/
theorem DataSector.clusterLba_inj (h : lay.DataSector c s) (h' : lay.DataSector c' s')
    (heq : lay.clusterLba c s = lay.clusterLba c' s') : c = c' ∧ s = s' := by
  have hfirst := h.first
  have hfirst' := h'.first
  obtain ⟨hdiv, hmod⟩ := Block.mul_add_div_mod (k := c - 2) h.sector
  obtain ⟨hdiv', hmod'⟩ := Block.mul_add_div_mod (k := c' - 2) h'.sector
  have hoff : (c - 2) * lay.sectorsPerCluster + s = (c' - 2) * lay.sectorsPerCluster + s' := by
    rw [clusterLba, clusterLba] at heq
    omega
  rw [hoff] at hdiv hmod
  omega

/-- **No gap between the clusters**, and none before the first. -/
theorem exists_clusterLba_iff {lba : Nat} :
    (∃ c s, lay.DataSector c s ∧ lay.clusterLba c s = lba) ↔
      lay.dataLba ≤ lba ∧ lba < lay.dataLba + 0xFEE * lay.sectorsPerCluster := by
  constructor
  · rintro ⟨c, s, h, rfl⟩
    have hfirst := h.first
    have hlast := h.last
    have hsector := h.sector
    have hend : (c - 2 + 1) * lay.sectorsPerCluster ≤ 0xFEE * lay.sectorsPerCluster :=
      Nat.mul_le_mul_right _ (by omega)
    rw [Nat.succ_mul] at hend
    rw [clusterLba]
    omega
  · rintro ⟨hle, hlt⟩
    have hoff : lba - lay.dataLba < lay.sectorsPerCluster * 0xFEE := by omega
    have hpos : 0 < lay.sectorsPerCluster := Nat.pos_of_mul_pos_right (Nat.zero_lt_of_lt hoff)
    have hdiv := Nat.div_add_mod' (lba - lay.dataLba) lay.sectorsPerCluster
    have hlast := Nat.div_lt_of_lt_mul hoff
    refine ⟨(lba - lay.dataLba) / lay.sectorsPerCluster + 2,
      (lba - lay.dataLba) % lay.sectorsPerCluster,
      ⟨Nat.le_add_left 2 _, by omega, Nat.mod_lt _ hpos⟩, ?_⟩
    rw [clusterLba, Nat.add_sub_cancel]
    omega

end Netclover.Fat12.Layout
