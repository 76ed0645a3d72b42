import Netclover.Fat12.Regions
import Netclover.Stage2.Contained

/-!
# The layout `FAT_Initialize` computes

From a handful of 8- and 16-bit fields `FAT_Initialize` computes where the root
directory and the clusters begin, and `FAT_ClusterToLba` where each cluster is.
For sectors of 512 bytes no field makes any of these computations wrap
(`Volume.Exact`, `Place.Exact`), so the parts of the volume lie as the format
says (`Volume.LaidOut`).
-/

namespace Netclover.Stage2

open Proc

variable {v : Volume}

/-! ## What it computes -/

/-- The volume with its clusters where `FAT_Initialize` puts them. -/
def Volume.placed (v : Volume) : Volume :=
  { v with
    dataSectionLba := v.rootDirLba
      + (v.rootDirSize + v.bytesPerSector.toUInt32 - 1) / v.bytesPerSector.toUInt32 }

/-- Each operation of `FAT_Initialize` on boot sector fields has the result it
has in natural numbers; those on `int` are below `2 ^ 31`. -/
structure Volume.Exact (v : Volume) : Prop where
  fatSize : (v.bytesPerSector.toUInt32 * v.sectorsPerFat.toUInt32).toNat
    = v.bytesPerSector.toNat * v.sectorsPerFat.toNat
  fatSize_int : v.bytesPerSector.toNat * v.sectorsPerFat.toNat < 2 ^ 31
  memory : (sizeofFatData + v.bytesPerSector.toUInt32 * v.sectorsPerFat.toUInt32).toNat
    = sizeofFatData.toNat + v.bytesPerSector.toNat * v.sectorsPerFat.toNat
  fats : (v.sectorsPerFat.toUInt32 * v.fatCount.toUInt32).toNat
    = v.sectorsPerFat.toNat * v.fatCount.toNat
  rootDirLba : v.rootDirLba.toNat
    = v.reservedSectors.toNat + v.sectorsPerFat.toNat * v.fatCount.toNat
  rootDirLba_int : v.reservedSectors.toNat + v.sectorsPerFat.toNat * v.fatCount.toNat < 2 ^ 31
  rootDirSize : v.rootDirSize.toNat = 32 * v.dirEntryCount.toNat
  roundUp : (v.rootDirSize + v.bytesPerSector.toUInt32).toNat
    = 32 * v.dirEntryCount.toNat + v.bytesPerSector.toNat
  roundUp_pred : (v.rootDirSize + v.bytesPerSector.toUInt32 - 1).toNat
    = 32 * v.dirEntryCount.toNat + v.bytesPerSector.toNat - 1
  dataSectionLba : v.dataSectionLba.toNat = v.rootDirLba.toNat
    + (32 * v.dirEntryCount.toNat + v.bytesPerSector.toNat - 1) / v.bytesPerSector.toNat

/-- So has each operation on the way to the LBA of a sector. -/
structure Place.Exact (v : Volume) (p : Place) : Prop where
  index : (p.cluster - 2).toNat = p.cluster.toNat - 2
  offset : ((p.cluster - 2) * v.sectorsPerCluster.toUInt32).toNat
    = (p.cluster.toNat - 2) * v.sectorsPerCluster.toNat
  cluster : (fatClusterToLba v p.cluster).toNat
    = v.dataSectionLba.toNat + (p.cluster.toNat - 2) * v.sectorsPerCluster.toNat
  lba : (p.lba v).toNat = v.dataSectionLba.toNat
    + (p.cluster.toNat - 2) * v.sectorsPerCluster.toNat + p.sector.toNat

/-- A sector of a data cluster. -/
structure Place.InData (v : Volume) (p : Place) : Prop where
  first : 2 ≤ p.cluster
  last : p.cluster ≤ 0xFEF
  sector : p.sector < v.sectorsPerCluster.toUInt32

/-- The parts of the volume follow each other, and every sector behind the root
directory is one sector of one cluster. -/
structure Volume.LaidOut (v : Volume) : Prop where
  /-- The root directory begins where the last FAT ends. -/
  root : v.rootDirLba.toNat = v.layout.fatLba v.fatCount.toNat
  /-- The clusters begin behind the sector of the last entry, and no later. -/
  data : ∀ lba, v.dataSectionLba.toNat ≤ lba ↔
    v.rootDirLba.toNat ≤ lba ∧ ∀ i < v.dirEntryCount.toNat, v.rootDirLba.toNat + i / 16 < lba
  injective : ∀ p q : Place, p.InData v → q.InData v → p.lba v = q.lba v → p = q
  consecutive : ∀ lba, (∃ p : Place, p.InData v ∧ (p.lba v).toNat = lba) ↔
    v.dataSectionLba.toNat ≤ lba ∧
      lba < v.dataSectionLba.toNat + 0xFEE * v.sectorsPerCluster.toNat
  apart : ∀ p : Place, p.InData v → ¬ v.layout.InSystemArea (p.lba v).toNat
  exact : v.Exact
  exact_lba : ∀ p : Place, p.InData v → p.Exact v

/-! ## Data sectors -/

/-- The driver's data sectors are the format's. -/
theorem Place.InData.dataSector {p : Place} (h : p.InData v) :
    v.layout.DataSector p.cluster.toNat p.sector.toNat where
  first := UInt32.le_iff_toNat_le.mp h.first
  last := UInt32.le_iff_toNat_le.mp h.last
  sector := by
    have hsector := UInt32.lt_iff_toNat_lt.mp h.sector
    rw [UInt8.toNat_toUInt32] at hsector
    exact hsector

theorem Place.inData_ofNat {c s : Nat} (h : v.layout.DataSector c s) :
    (⟨UInt32.ofNat c, UInt32.ofNat s⟩ : Place).InData v ∧ (UInt32.ofNat c).toNat = c ∧
      (UInt32.ofNat s).toNat = s := by
  have hspc := v.sectorsPerCluster.toNat_lt
  have hsector : s < v.sectorsPerCluster.toNat := h.sector
  have hc : (UInt32.ofNat c).toNat = c :=
    UInt32.toNat_ofNat_of_lt' (Nat.lt_of_le_of_lt h.last (by decide))
  have hs : (UInt32.ofNat s).toNat = s :=
    UInt32.toNat_ofNat_of_lt' (Nat.lt_trans (Nat.lt_trans hsector hspc) (by decide))
  refine ⟨⟨?_, ?_, ?_⟩, hc, hs⟩
  · rw [UInt32.le_iff_toNat_le, hc]
    exact h.first
  · rw [UInt32.le_iff_toNat_le, hc]
    exact h.last
  · rw [UInt32.lt_iff_toNat_lt, hs, UInt8.toNat_toUInt32]
    exact hsector

theorem Place.InData.offset_le {p : Place} (h : p.InData v) :
    (p.cluster.toNat - 2) * v.sectorsPerCluster.toNat ≤ 0xFED * 255 := by
  have hlast := h.dataSector.last
  have hspc := v.sectorsPerCluster.toNat_lt
  exact Nat.mul_le_mul (by omega) (by omega)

/-! ## Nothing wraps -/

theorem Volume.toNat_roundUp (v : Volume) :
    (v.rootDirSize + v.bytesPerSector.toUInt32).toNat
      = 32 * v.dirEntryCount.toNat + v.bytesPerSector.toNat := by
  have hentries := v.dirEntryCount.toNat_lt
  have hbytes := v.bytesPerSector.toNat_lt
  rw [UInt32.toNat_add, v.toNat_rootDirSize, UInt16.toNat_toUInt32]
  exact Nat.mod_eq_of_lt (show 32 * v.dirEntryCount.toNat + _ < 2 ^ 32 by omega)

namespace Volume.Mounted

variable (h : v.Mounted)
include h

theorem toNat_bytesPerSector : v.bytesPerSector.toNat = 512 := by
  rw [h.bytesPerSector]
  rfl

theorem fatSize_le : v.bytesPerSector.toNat * v.sectorsPerFat.toNat ≤ 512 * 65535 := by
  rw [h.toNat_bytesPerSector]
  exact Nat.mul_le_mul_left 512 (Nat.le_of_lt_succ v.sectorsPerFat.toNat_lt)

theorem toNat_fatSize : (v.bytesPerSector.toUInt32 * v.sectorsPerFat.toUInt32).toNat
    = v.bytesPerSector.toNat * v.sectorsPerFat.toNat := by
  have hle := h.fatSize_le
  rw [UInt32.toNat_mul, UInt16.toNat_toUInt32, UInt16.toNat_toUInt32]
  exact Nat.mod_eq_of_lt (by omega)

theorem toNat_lba {p : Place} (hp : p.InData v) :
    (p.lba v).toNat = v.layout.clusterLba p.cluster.toNat p.sector.toNat := by
  have hdata := hp.dataSector
  have hspc := v.sectorsPerCluster.toNat_lt
  exact h.toNat_clusterToLba hdata.first hdata.last (Nat.lt_trans hdata.sector hspc)

theorem exact : v.Exact where
  fatSize := h.toNat_fatSize
  fatSize_int := Nat.lt_of_le_of_lt h.fatSize_le (by decide)
  memory := by
    have hle := h.fatSize_le
    have hdata : sizeofFatData.toNat < 2 ^ 16 := by decide
    rw [UInt32.toNat_add, h.toNat_fatSize]
    exact Nat.mod_eq_of_lt (by omega)
  fats := by
    have hle := v.fats_le
    rw [UInt32.toNat_mul, UInt16.toNat_toUInt32, UInt8.toNat_toUInt32]
    exact Nat.mod_eq_of_lt (by omega)
  rootDirLba := v.toNat_rootDirLba
  rootDirLba_int := Nat.lt_of_le_of_lt v.rootLba_le (by decide)
  rootDirSize := v.toNat_rootDirSize
  roundUp := v.toNat_roundUp
  roundUp_pred := by
    have hbytes := h.toNat_bytesPerSector
    have hone : (1 : UInt32) ≤ v.rootDirSize + v.bytesPerSector.toUInt32 := by
      rw [UInt32.le_iff_toNat_le, v.toNat_roundUp, hbytes]
      exact Nat.le_add_left 1 _
    rw [UInt32.toNat_sub_of_le _ _ hone, v.toNat_roundUp]
    rfl
  dataSectionLba := by
    rw [h.toNat_dataSectionLba, v.toNat_rootDirLba, h.toNat_bytesPerSector]
    rfl

theorem exact_lba {p : Place} (hp : p.InData v) : p.Exact v := by
  have hle := hp.offset_le
  have hdata := v.dataLba_le
  have hindex : (p.cluster - 2).toNat = p.cluster.toNat - 2 :=
    UInt32.toNat_sub_of_le _ _ hp.first
  have hoffset : ((p.cluster - 2) * v.sectorsPerCluster.toUInt32).toNat
      = (p.cluster.toNat - 2) * v.sectorsPerCluster.toNat := by
    rw [UInt32.toNat_mul, hindex, UInt8.toNat_toUInt32]
    exact Nat.mod_eq_of_lt (by omega)
  refine ⟨hindex, hoffset, ?_, ?_⟩
  · rw [fatClusterToLba, UInt32.toNat_add, hoffset, h.toNat_dataSectionLba]
    exact Nat.mod_eq_of_lt (by omega)
  · rw [h.toNat_lba hp, h.toNat_dataSectionLba]
    rfl

/-! ## The layout is the format's -/

theorem laidOut : v.LaidOut where
  root := by
    rw [v.toNat_rootDirLba, v.layout.rootLba_eq]
    rfl
  data lba := by
    rw [h.toNat_dataSectionLba, v.toNat_rootDirLba]
    exact v.layout.dataLba_le_iff
  injective p q hp hq heq := by
    have hlba := congrArg UInt32.toNat heq
    rw [h.toNat_lba hp, h.toNat_lba hq] at hlba
    obtain ⟨hcluster, hsector⟩ := hp.dataSector.clusterLba_inj hq.dataSector hlba
    cases p
    cases q
    rw [Place.mk.injEq]
    exact ⟨UInt32.toNat_inj.mp hcluster, UInt32.toNat_inj.mp hsector⟩
  consecutive lba := by
    rw [h.toNat_dataSectionLba]
    refine Iff.trans ?_ Fat12.Layout.exists_clusterLba_iff
    constructor
    · rintro ⟨p, hp, rfl⟩
      exact ⟨_, _, hp.dataSector, (h.toNat_lba hp).symm⟩
    · rintro ⟨c, s, hcs, rfl⟩
      obtain ⟨hin, hc, hs⟩ := Place.inData_ofNat hcs
      refine ⟨_, hin, ?_⟩
      rw [h.toNat_lba hin, hc, hs]
  apart p hp := by
    rw [v.layout.inSystemArea_iff, h.toNat_lba hp]
    exact Nat.not_lt.mpr hp.dataSector.dataLba_le
  exact := h.exact
  exact_lba _ hp := h.exact_lba hp

end Volume.Mounted

/-- **`FAT_Initialize` and `FAT_ClusterToLba`** lay a volume out as the format
does, for all values of the other fields: as far as it computes, and in every
run that returns zero. -/
theorem fatInitialize_laysOut {boot : Sector}
    (hbytes : (Volume.ofBoot boot).bytesPerSector = 512)
    (hspc : 1 ≤ (Volume.ofBoot boot).sectorsPerCluster) :
    (Volume.ofBoot boot).placed.LaidOut ∧
    ∀ (σ : Type) (M : Machine σ) (env : Env) (d d' : Driver) (s t : σ),
      fatInitialize M env d s = .ok ((d', 0), t) → d'.vol.bootSector = boot →
      d'.rootDirectory.firstCluster = d'.vol.rootDirLba ∧
      d'.rootDirectory.currentCluster = d'.vol.rootDirLba ∧
      d'.vol.dataSectionLba = (Volume.ofBoot boot).placed.dataSectionLba ∧ d'.vol.LaidOut := by
  have hplaced : (Volume.ofBoot boot).placed.Mounted := .of_rounded hbytes hspc rfl
  refine ⟨hplaced.laidOut, ?_⟩
  intro σ M env d d' s t hinit hboot
  have hafter := fatInitialize_initialized hinit
  obtain ⟨buffer, hroot⟩ := hafter.rewound
  subst hboot
  have hmounted : d'.vol.Mounted := .of_rounded hbytes hspc hafter.dataSectionLba
  exact ⟨by rw [hroot]; rfl, by rw [hroot]; rfl, hafter.dataSectionLba, hmounted.laidOut⟩

/-- The small volume, once it has been initialized. -/
theorem fatInitialize_laysOut_sample :
    sampleMounted.rootDirectory.firstCluster = sampleMounted.vol.rootDirLba ∧
      sampleMounted.rootDirectory.currentCluster = sampleMounted.vol.rootDirLba ∧
      sampleMounted.vol.dataSectionLba = (Volume.ofBoot sampleBoot).placed.dataSectionLba ∧
      sampleMounted.vol.LaidOut := by
  obtain ⟨-, hruns⟩ := @fatInitialize_laysOut sampleBoot (by decide +kernel)
    (by decide +kernel)
  exact hruns Unit sampleMachine sampleEnv sampleDriver sampleMounted () () sample_initialize rfl

end Netclover.Stage2
