import Netclover.Fat12.Volume
import Netclover.Stage2.FatSpec

/-!
# A mounted volume

A disk that holds an image (`Serves`), the statics `FAT_Initialize` leaves
after reading it (`Volume.mount`), and the layout of the format they agree
with: `fatClusterToLba` and `fatNextCluster` are `Layout.clusterLba` and
`Fat12.entry`.
-/

namespace Netclover.Stage2

open Proc Libc

variable {σ : Type} {M : Machine σ} {env : Env}

/-! ## Disks that hold an image -/

def imageSectors (img : Fat12.Image) (lba n : Nat) : Sectors n :=
  ⟨Block.concat (fun i => img (lba + i)) n, by rw [Block.length_concat, Nat.mul_comm]⟩

theorem imageSectors_one (img : Fat12.Image) (lba : Nat) : imageSectors img lba 1 = img lba := by
  refine Subtype.ext ?_
  show Block.concat (fun i => img (lba + i)) 1 = (img lba).bytes
  rw [Block.concat_succ]
  simp

/-- As long as the disk's state does not become `Bad`, its reads succeed and
deliver the image. -/
structure Serves (M : Machine σ) (img : Fat12.Image) (Bad : σ → Prop) : Prop where
  keeps : M.Keeps Bad
  reads : ∀ lba n buf s, ¬ Bad (M.readSectors lba n buf s).2 →
    (M.readSectors lba n buf s).1 = (0, imageSectors img lba.toNat n)

/-- A disk whose reads always succeed and deliver the image. -/
def Machine.Holds (M : Machine σ) (img : Fat12.Image) : Prop :=
  ∀ lba n buf s, (M.readSectors lba n buf s).1 = (0, imageSectors img lba.toNat n)

theorem Machine.Holds.serves {img : Fat12.Image} (h : M.Holds img) :
    Serves M img fun _ => False :=
  ⟨fun _ _ _ _ hf => hf, fun lba n buf s _ => h lba n buf s⟩

/-- The plain disk of an image, with the loading bar of the driver. -/
def imageMachine (img : Fat12.Image) (bar : UInt32 → UInt32 → Option UInt32) : Machine Unit where
  readSectors lba n _ s := ((0, imageSectors img lba.toNat n), s)
  loadingBar := bar

theorem imageMachine_holds (img : Fat12.Image) (bar : UInt32 → UInt32 → Option UInt32) :
    (imageMachine img bar).Holds img := fun _ _ _ _ => rfl

theorem diskReadSectors_ensures {img : Fat12.Image} {Bad : σ → Prop} {halts : Stop → Prop}
    (h : Serves M img Bad) (lba : UInt32) (n : Nat) (buf : Sectors n) :
    Ensures Bad halts (M.diskReadSectors lba n buf)
      fun r => r = (0, imageSectors img lba.toNat n) :=
  Ensures.act fun s hs => h.reads lba n buf s hs

theorem Machine.Holds.read {img : Fat12.Image} (h : M.Holds img) (lba : UInt32) (n : Nat)
    (buf : Sectors n) (s : σ) : M.diskReadSectors lba n buf s
      = .ok ((0, imageSectors img lba.toNat n), (M.readSectors lba n buf s).2) := by
  rw [Machine.diskReadSectors, act_apply, ← h lba n buf s]

theorem Serves.read_ok {img : Fat12.Image} {Bad : σ → Prop} (h : Serves M img Bad) {lba : UInt32}
    {n : Nat} {buf buf' : Sectors n} {status : UInt16} {s t : σ}
    (hr : M.diskReadSectors lba n buf s = .ok ((status, buf'), t)) :
    (Bad s → Bad t) ∧ (¬ Bad t → status = 0 ∧ buf' = imageSectors img lba.toNat n) := by
  rw [Machine.diskReadSectors, act_apply] at hr
  injection hr with hr
  have hfst := congrArg Prod.fst hr
  have hsnd := congrArg Prod.snd hr
  dsimp only at hfst hsnd
  subst hsnd
  constructor
  · exact h.keeps lba n buf s
  · intro hgood
    rw [h.reads lba n buf s hgood] at hfst
    cases hfst
    exact ⟨rfl, rfl⟩

/-! ## What `FAT_Initialize` leaves -/

def Volume.rootDirLba (v : Volume) : UInt32 :=
  v.reservedSectors.toUInt32 + v.sectorsPerFat.toUInt32 * v.fatCount.toUInt32

def Volume.rootDirSize (v : Volume) : UInt32 := 32 * v.dirEntryCount.toUInt32

/-- The statics once `FAT_Initialize` has read the image. -/
def Volume.mount (img : Fat12.Image) : Volume :=
  let v : Volume := ⟨img 0, [], 0⟩
  { bootSector := img 0
    fat := (imageSectors img v.reservedSectors.toUInt32.toNat v.sectorsPerFat.toUInt8.toNat).bytes
    dataSectionLba := v.rootDirLba
      + (v.rootDirSize + v.bytesPerSector.toUInt32 - 1) / v.bytesPerSector.toUInt32 }

/-- The root directory's file data, rewound, with a first sector in it. -/
def Volume.rootFile (v : Volume) (buffer : Sector) : FatFileData where
  buffer := buffer
  pub := ⟨rootDirectoryHandle, true, 0, v.rootDirSize⟩
  opened := true
  firstCluster := v.rootDirLba
  currentCluster := v.rootDirLba
  currentSectorInCluster := 0

/-- What a call that returned zero leaves. -/
structure Driver.Initialized (d : Driver) : Prop where
  rewound : ∃ buffer, d.rootDirectory = d.vol.rootFile buffer
  closed : ∀ i, (d.openedFiles i).opened = false
  bytesPerSector : d.vol.bytesPerSector ≠ 0
  dataSectionLba : d.vol.dataSectionLba = d.vol.rootDirLba
    + (d.vol.rootDirSize + d.vol.bytesPerSector.toUInt32 - 1) / d.vol.bytesPerSector.toUInt32

theorem fatInitialize_initialized {d d' : Driver} {s t : σ}
    (h : fatInitialize M env d s = .ok ((d', 0), t)) : d'.Initialized := by
  unfold fatInitialize at h
  obtain ⟨⟨status, boot⟩, s₁, -, h⟩ := of_bind_ok h
  dsimp only at h
  split at h
  · cases h
  split at h
  · cases h
  split at h
  · cases h
  obtain ⟨⟨status, fat⟩, s₂, -, h⟩ := of_bind_ok h
  dsimp only at h
  split at h
  · cases h
  obtain ⟨⟨status, buffer⟩, s₃, -, h⟩ := of_bind_ok h
  dsimp only at h
  split at h
  · cases h
  split at h
  · cases h
  · rename_i hbytes
    cases h
    exact ⟨⟨buffer, rfl⟩, fun _ => rfl, hbytes, rfl⟩

/-- **`FAT_Initialize`** returns zero only with the root directory rewound
and every slot closed. -/
theorem fatInitialize_ok {d d' : Driver} {s t : σ}
    (h : fatInitialize M env d s = .ok ((d', 0), t)) :
    (∃ buffer, d'.rootDirectory = d'.vol.rootFile buffer) ∧
      ∀ i, (d'.openedFiles i).opened = false :=
  ⟨(fatInitialize_initialized h).rewound, (fatInitialize_initialized h).closed⟩

/-- If the disk served the image, the statics are those of the image. -/
theorem fatInitialize_mount {img : Fat12.Image} {Bad : σ → Prop} (hM : Serves M img Bad)
    {d d' : Driver} {s t : σ} (h : fatInitialize M env d s = .ok ((d', 0), t)) (ht : ¬ Bad t) :
    d'.vol = Volume.mount img ∧
      d'.rootDirectory = d'.vol.rootFile (img d'.vol.rootDirLba.toNat) ∧
      d'.vol.bytesPerSector ≠ 0 := by
  unfold fatInitialize at h
  obtain ⟨⟨status, boot⟩, s₁, hboot, h⟩ := of_bind_ok h
  dsimp only at h
  split at h
  · cases h
  split at h
  · cases h
  split at h
  · cases h
  obtain ⟨⟨status, fat⟩, s₂, hfat, h⟩ := of_bind_ok h
  dsimp only at h
  split at h
  · cases h
  obtain ⟨⟨status, buffer⟩, s₃, hroot, h⟩ := of_bind_ok h
  dsimp only at h
  split at h
  · cases h
  split at h
  · cases h
  · rename_i hbps
    cases h
    -- a good end was good after every read
    obtain ⟨hkeep₂, hread⟩ := hM.read_ok hroot
    obtain ⟨-, rfl⟩ := hread ht
    obtain ⟨hkeep₁, hread⟩ := hM.read_ok hfat
    obtain ⟨-, rfl⟩ := hread fun hbad => ht (hkeep₂ hbad)
    obtain ⟨-, hread⟩ := hM.read_ok hboot
    obtain ⟨-, rfl⟩ := hread fun hbad => ht (hkeep₂ (hkeep₁ hbad))
    rw [imageSectors_one] at hbps ⊢
    rw [imageSectors_one]
    exact ⟨rfl, rfl, hbps⟩

/-- The driver after `FAT_Initialize` on an image. -/
def Driver.mount (img : Fat12.Image) (d : Driver) : Driver where
  vol := Volume.mount img
  rootDirectory := (Volume.mount img).rootFile (img (Volume.mount img).rootDirLba.toNat)
  openedFiles := fun i => { d.openedFiles i with opened := false }

/-- **`FAT_Initialize` accepts** an image whose boot sector passes its checks
and does not divide by zero. -/
theorem fatInitialize_eq {img : Fat12.Image} (hM : M.Holds img) {d : Driver} {s : σ}
    (hsignature : (Volume.mount img).signature = 0x29)
    (hsize : sizeofFatData + (Volume.mount img).bytesPerSector.toUInt32
      * (Volume.mount img).sectorsPerFat.toUInt32 < memoryFatSize)
    (hbps : (Volume.mount img).bytesPerSector ≠ 0) :
    ∃ t, fatInitialize M env d s = .ok ((d.mount img, 0), t) := by
  rw [fatInitialize, bind_ok (hM.read _ _ _ _), imageSectors_one]
  dsimp only
  rw [if_neg (by simp), if_neg (by exact fun e => e hsignature),
    if_neg (by exact UInt32.not_le.mpr hsize), bind_ok (hM.read _ _ _ _)]
  dsimp only
  rw [if_neg (by simp), bind_ok (hM.read _ _ _ _), imageSectors_one]
  dsimp only
  rw [if_neg (by simp), if_neg (by exact hbps)]
  exact ⟨_, rfl⟩

/-! ## The layout it computes -/

def Volume.layout (v : Volume) : Fat12.Layout where
  reserved := v.reservedSectors.toNat
  fatCount := v.fatCount.toNat
  sectorsPerFat := v.sectorsPerFat.toNat
  dirEntries := v.dirEntryCount.toNat
  sectorsPerCluster := v.sectorsPerCluster.toNat

/-- The volume's boot sector and statics agree, for sectors of 512 bytes. -/
structure Volume.Mounted (v : Volume) : Prop where
  bytesPerSector : v.bytesPerSector = 512
  sectorsPerCluster : 1 ≤ v.sectorsPerCluster
  dataSectionLba : v.dataSectionLba = v.rootDirLba + (v.rootDirSize + 511) / 512

/-- Where `FAT_Initialize` puts the clusters, if a sector has 512 bytes. -/
theorem Volume.Mounted.of_rounded {v : Volume} (h : v.bytesPerSector = 512)
    (hspc : 1 ≤ v.sectorsPerCluster)
    (hdata : v.dataSectionLba = v.rootDirLba
      + (v.rootDirSize + v.bytesPerSector.toUInt32 - 1) / v.bytesPerSector.toUInt32) :
    v.Mounted where
  bytesPerSector := h
  sectorsPerCluster := hspc
  dataSectionLba := by
    have hround : v.rootDirSize + UInt16.toUInt32 512 - 1 = v.rootDirSize + 511 := by
      show v.rootDirSize + 512 - 1 = _
      grind
    rw [hdata, h, hround]
    rfl

theorem Volume.mount_mounted {img : Fat12.Image} (h : (Volume.mount img).bytesPerSector = 512)
    (hspc : 1 ≤ (Volume.mount img).sectorsPerCluster) : (Volume.mount img).Mounted :=
  .of_rounded h hspc rfl

section
variable (v : Volume)

theorem Volume.fats_le : v.sectorsPerFat.toNat * v.fatCount.toNat ≤ 65535 * 255 :=
  Nat.mul_le_mul (Nat.le_of_lt_succ v.sectorsPerFat.toNat_lt)
    (Nat.le_of_lt_succ v.fatCount.toNat_lt)

theorem Volume.rootLba_le : v.layout.rootLba ≤ 65535 + 65535 * 255 :=
  Nat.add_le_add (Nat.le_of_lt_succ v.reservedSectors.toNat_lt) v.fats_le

/-- No product or sum of boot sector fields wraps. -/
theorem Volume.toNat_rootDirLba : v.rootDirLba.toNat = v.layout.rootLba := by
  have hfats := v.fats_le
  have hroot := v.rootLba_le
  simp only [Volume.rootDirLba, Fat12.Layout.rootLba, Volume.layout, UInt32.toNat_add,
    UInt32.toNat_mul, UInt16.toNat_toUInt32, UInt8.toNat_toUInt32] at *
  omega

theorem Volume.toNat_rootDirSize : v.rootDirSize.toNat = 32 * v.layout.dirEntries := by
  have h₁ := v.dirEntryCount.toNat_lt
  simp only [Volume.rootDirSize, Volume.layout, UInt32.toNat_mul, UInt16.toNat_toUInt32]
  show 32 * _ % _ = _
  omega

/-- Wherever `FAT_Initialize` puts the clusters, it is far from a wrap. -/
theorem Driver.Initialized.dataSectionLba_lt {d : Driver} (h : d.Initialized) :
    d.vol.dataSectionLba.toNat < 2 ^ 25 := by
  have hbytes : 0 < d.vol.bytesPerSector.toNat := by
    rw [Nat.pos_iff_ne_zero]
    exact fun hzero => h.bytesPerSector (UInt16.toNat_inj.mp hzero)
  have hbytes' := d.vol.bytesPerSector.toNat_lt
  have hentries := d.vol.dirEntryCount.toNat_lt
  have hroot := d.vol.rootLba_le
  have hlayout : d.vol.layout.dirEntries = d.vol.dirEntryCount.toNat := rfl
  have hsectors : ((d.vol.rootDirSize + d.vol.bytesPerSector.toUInt32 - 1)
      / d.vol.bytesPerSector.toUInt32).toNat
      ≤ 32 * d.vol.dirEntryCount.toNat + d.vol.bytesPerSector.toNat := by
    rw [UInt32.toNat_div]
    refine Nat.le_trans (Nat.div_le_self _ _) ?_
    rw [UInt32.toNat_sub, UInt32.toNat_add, d.vol.toNat_rootDirSize, UInt16.toNat_toUInt32,
      hlayout]
    show (_ - 1 + _) % _ ≤ _
    omega
  rw [h.dataSectionLba, UInt32.toNat_add, d.vol.toNat_rootDirLba]
  exact Nat.lt_of_le_of_lt (Nat.mod_le _ _) (by omega)

theorem Volume.dataLba_le : v.layout.dataLba ≤ 65535 + 65535 * 255 + 4096 := by
  have h₁ := v.rootLba_le
  have h₂ := v.dirEntryCount.toNat_lt
  simp only [Fat12.Layout.dataLba, Fat12.Layout.rootSectors]
  simp only [Volume.layout] at *
  omega

theorem Volume.Mounted.toNat_dataSectionLba {v : Volume} (h : v.Mounted) :
    v.dataSectionLba.toNat = v.layout.dataLba := by
  have h₁ := v.rootLba_le
  have h₂ := v.dirEntryCount.toNat_lt
  have h₃ : v.layout.dirEntries = v.dirEntryCount.toNat := rfl
  rw [h.dataSectionLba, UInt32.toNat_add, UInt32.toNat_div, UInt32.toNat_add,
    v.toNat_rootDirLba, v.toNat_rootDirSize, Fat12.Layout.dataLba, Fat12.Layout.rootSectors]
  show (_ + (_ + 511) % _ / 512) % _ = _
  omega

/-- **`FAT_ClusterToLba`** is the layout's, on the data clusters. -/
theorem Volume.Mounted.toNat_clusterToLba {v : Volume} (h : v.Mounted) {cluster sector : UInt32}
    (hc : 2 ≤ cluster.toNat) (hc' : cluster.toNat ≤ 0xFEF) (hs : sector.toNat < 256) :
    (fatClusterToLba v cluster + sector).toNat
      = v.layout.clusterLba cluster.toNat sector.toNat := by
  have h₁ := v.dataLba_le
  have h₂ := v.sectorsPerCluster.toNat_lt
  have h₃ : (cluster.toNat - 2) * v.sectorsPerCluster.toNat ≤ 0xFED * 255 :=
    Nat.mul_le_mul (by omega) (by omega)
  have h₄ : (cluster - 2).toNat = cluster.toNat - 2 :=
    UInt32.toNat_sub_of_le _ _ (by rw [UInt32.le_iff_toNat_le]; exact hc)
  have h₅ : v.layout.sectorsPerCluster = v.sectorsPerCluster.toNat := rfl
  rw [fatClusterToLba, UInt32.toNat_add, UInt32.toNat_add, UInt32.toNat_mul, h₄,
    h.toNat_dataSectionLba, UInt8.toNat_toUInt32, Fat12.Layout.clusterLba, h₅]
  omega

end

/-- **`FAT_NextCluster`** is the table's entry, where the table has one. -/
theorem toNat_fatNextCluster {v : Volume} {cluster : UInt32}
    (h : cluster.toNat * 3 / 2 + 1 < v.fat.length) (hc : cluster.toNat < 2 ^ 30) :
    (fatNextCluster v env cluster).toNat = Fat12.entry v.fat cluster.toNat := by
  have hidx : (cluster * 3 / 2).toNat = cluster.toNat * 3 / 2 := by
    rw [UInt32.toNat_div, UInt32.toNat_mul]
    show cluster.toNat * 3 % 2 ^ 32 / 2 = _
    omega
  have hbyte : ∀ i, i < v.fat.length → fatByte v env i = v.fat.getD i 0 := by
    intro i hi
    rw [fatByte, List.getD_eq_getElem _ _ hi, List.getD_eq_getElem _ _ hi]
  have h₁ := (v.fat.getD (cluster.toNat * 3 / 2) 0).toNat_lt
  have h₂ := (v.fat.getD (cluster.toNat * 3 / 2 + 1) 0).toNat_lt
  have hword : ((v.fat.getD (cluster.toNat * 3 / 2) 0).toUInt16
      + (v.fat.getD (cluster.toNat * 3 / 2 + 1) 0).toUInt16 * 256).toNat
      = (v.fat.getD (cluster.toNat * 3 / 2) 0).toNat
        + (v.fat.getD (cluster.toNat * 3 / 2 + 1) 0).toNat * 256 := by
    rw [UInt16.toNat_add, UInt16.toNat_mul, UInt8.toNat_toUInt16, UInt8.toNat_toUInt16]
    show (_ + _ * 256 % _) % _ = _
    omega
  have hpar : cluster % 2 = 0 ↔ cluster.toNat % 2 = 0 := by
    rw [← UInt32.toNat_inj, UInt32.toNat_mod]
    rfl
  simp only [fatNextCluster, Fat12.entry, hidx]
  rw [hbyte _ (by omega), hbyte _ h]
  by_cases hp : cluster.toNat % 2 = 0
  · rw [if_pos (hpar.mpr hp), if_pos hp, UInt16.toNat_toUInt32, UInt16.toNat_and, hword]
    exact Nat.and_two_pow_sub_one_eq_mod _ 12
  · rw [if_neg (fun e => hp (hpar.mp e)), if_neg hp, UInt16.toNat_toUInt32,
      UInt16.toNat_shiftRight, hword]
    exact Nat.shiftRight_eq_div_pow _ 4

/-! ## A small volume

One FAT sector and one root directory sector with two files, `KERNEL.BIN` of
two clusters in the first record and `B.BIN` of one cluster in the last. -/

def sampleBoot : Sector := Block.pad 512 <|
  List.replicate 11 0 ++ [0x00, 0x02, 1, 1, 0, 1, 16, 0] ++ List.replicate 3 0 ++ [1, 0] ++
    List.replicate 14 0 ++ [0x29]

def sampleTable : Sector := Block.pad 512 [0xF0, 0xFF, 0xFF, 0x03, 0xF0, 0xFF, 0xFF, 0x0F]

/-- `KERNEL  BIN`, 1024 bytes from cluster 2 on. -/
def sampleKernelEntry : DirectoryEntry := Block.pad 32 <|
  [0x4B, 0x45, 0x52, 0x4E, 0x45, 0x4C, 0x20, 0x20, 0x42, 0x49, 0x4E, 0x20] ++
    List.replicate 14 0 ++ [2, 0, 0x00, 0x04]

/-- `B       BIN`, 512 bytes in cluster 4. -/
def sampleSmallEntry : DirectoryEntry := Block.pad 32 <|
  [0x42, 0x20, 0x20, 0x20, 0x20, 0x20, 0x20, 0x20, 0x42, 0x49, 0x4E, 0x20] ++
    List.replicate 14 0 ++ [4, 0, 0x00, 0x02]

def sampleImage : Fat12.Image
  | 0 => sampleBoot
  | 1 => sampleTable
  | 2 => Block.pad 512 (sampleKernelEntry.bytes ++ List.replicate (14 * 32) 0
      ++ sampleSmallEntry.bytes)
  | lba => Block.pad 512 (List.replicate 512 (UInt8.ofNat lba))

/-- The driver before anything has been read. -/
def sampleDriver : Driver where
  vol := ⟨Block.pad 512 [], [], 0⟩
  rootDirectory := ⟨Block.pad 512 [], ⟨0, false, 0, 0⟩, false, 0, 0, 0⟩
  openedFiles := fun _ => ⟨Block.pad 512 [], ⟨0, false, 0, 0⟩, false, 0, 0, 0⟩

def sampleEnv : Env := ⟨fun _ => 0, Block.pad 256 []⟩

def sampleMachine : Machine Unit := imageMachine sampleImage fun _ _ => some 0

/-- The driver once the small volume is mounted. -/
def sampleMounted : Driver := sampleDriver.mount sampleImage

/-- The first slot. -/
def firstSlot : Fin maxFileHandles := ⟨0, by decide⟩

theorem sample_initialize :
    fatInitialize sampleMachine sampleEnv sampleDriver () = .ok ((sampleMounted, 0), ()) := by
  obtain ⟨t, h⟩ := fatInitialize_eq (imageMachine_holds sampleImage fun _ _ => some 0)
    (by decide +kernel) (by decide +kernel) (by decide +kernel)
  exact h

theorem sample_mounted : (Volume.mount sampleImage).Mounted :=
  Volume.mount_mounted (by decide +kernel) (by decide +kernel)

theorem sample_chain : Fat12.Chain (Volume.mount sampleImage).fat
    sampleKernelEntry.firstCluster.toNat [2, 3] where
  nonempty := by decide
  head := by decide +kernel
  data := by decide
  inTable := by decide +kernel
  linked i hi := by
    obtain rfl : i = 0 := by
      simp only [List.length_cons, List.length_nil] at hi
      omega
    decide +kernel
  ends := by decide +kernel

/-- `D`, a directory from cluster 2 on. -/
def sampleDirectory : DirectoryEntry := Block.pad 32 <|
  [0x44] ++ List.replicate 10 0x20 ++ [0x10] ++ List.replicate 14 0 ++ [2, 0]

/-- The small volume with a directory in place of its kernel, of 32 records,
the last of them the small file. -/
def sampleTree : Fat12.Image
  | 2 => Block.pad 512 sampleDirectory.bytes
  | 4 => Block.pad 512 (List.replicate 480 0 ++ sampleSmallEntry.bytes)
  | lba => sampleImage lba

end Netclover.Stage2
