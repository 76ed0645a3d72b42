import Netclover.Stage2.Mount

/-!
# What `FAT_Initialize` checks

`FAT_Initialize` looks at the signature of the boot sector and at the size of
the FAT in the sector's own units, and then trusts the rest: it reads the FAT
in sectors of 512 bytes, as many as fit into a `uint8_t`, and divides by
`BytesPerSector`. `fatInitialize_validates_iff` says for which boot sectors
that goes well.
-/

namespace Netclover.Stage2

open Proc

variable {σ : Type} {M : Machine σ} {d : Driver} {s : σ}

/-! ## Disks that are watched -/

/-- Every read succeeds; what it delivers is open. -/
def Machine.Succeeds (M : Machine σ) : Prop := ∀ lba n buf s, (M.readSectors lba n buf s).1.1 = 0

/-- The same disk, with a list of the reads that were asked of it: the first
sector and the number of sectors. -/
def Machine.recording (M : Machine σ) : Machine (σ × List (UInt32 × Nat)) where
  readSectors lba n buf s :=
    let (r, t) := M.readSectors lba n buf s.1
    (r, t, s.2 ++ [(lba, n)])
  loadingBar := M.loadingBar

theorem Machine.Succeeds.recorded (hM : M.Succeeds) (lba : UInt32) (n : Nat) (buf : Sectors n)
    (s : σ) (log : List (UInt32 × Nat)) : ∃ buf' t, (M.readSectors lba n buf s).1.2 = buf' ∧
      M.recording.diskReadSectors lba n buf (s, log) = .ok ((0, buf'), (t, log ++ [(lba, n)])) := by
  refine ⟨_, (M.readSectors lba n buf s).2, rfl, ?_⟩
  have hstatus := hM lba n buf s
  rw [Machine.diskReadSectors, act_apply, ← hstatus]
  rfl

/-! ## The checks -/

def memoryFatAddr : Nat := 0x20000

/-- The volume a boot sector describes, before anything else is read. -/
def Volume.ofBoot (bootSector : Sector) : Volume := ⟨bootSector, [], 0⟩

/-- The boot sector that the disk delivers. -/
def bootSectorOf (M : Machine σ) (d : Driver) (s : σ) : Sector :=
  (M.readSectors 0 1 d.vol.bootSector s).1.2

/-- Lines 86 and 93: the signature is there, and the FAT in sectors of
`BytesPerSector` fits. -/
def Volume.PassesChecks (v : Volume) : Prop :=
  v.signature = 0x29 ∧
    sizeofFatData + v.bytesPerSector.toUInt32 * v.sectorsPerFat.toUInt32 < memoryFatSize

/-- `FAT_Initialize` does not divide by zero; and if it comes to a second
read, that of the FAT, the transfer covers all sectors of it and ends in the
memory set aside for it. -/
structure Validates (M : Machine σ) (env : Env) (d : Driver) (s : σ) : Prop where
  noDivision : ∀ t, fatInitialize M.recording env d (s, []) ≠ .error (.divideError, t)
  covers : ∀ lba n, (left (fatInitialize M.recording env d (s, []))).2[1]? = some (lba, n) →
    (Volume.ofBoot (bootSectorOf M d s)).sectorsPerFat.toNat ≤ n
  fits : ∀ lba n, (left (fatInitialize M.recording env d (s, []))).2[1]? = some (lba, n) →
    memoryFatAddr + sizeofFatData.toNat + 512 * n ≤ memoryFatAddr + memoryFatSize.toNat

/-- A boot sector that fails a check ends the call behind the first read. -/
theorem fatInitialize_rejects (hM : M.Succeeds) (env : Env)
    (hchecks : ¬ (Volume.ofBoot (bootSectorOf M d s)).PassesChecks) :
    ∃ d' t, fatInitialize M.recording env d (s, []) = .ok ((d', 1), (t, [(0, 1)])) := by
  obtain ⟨boot, t, hboot, hread⟩ := hM.recorded 0 1 d.vol.bootSector s []
  rw [bootSectorOf, hboot] at hchecks
  rw [fatInitialize, bind_ok hread]
  dsimp only
  rw [if_neg (by simp)]
  by_cases hsignature : (Volume.ofBoot boot).signature = 0x29
  · have hsize : sizeofFatData + (Volume.ofBoot boot).bytesPerSector.toUInt32
        * (Volume.ofBoot boot).sectorsPerFat.toUInt32 ≥ memoryFatSize :=
      UInt32.not_lt.mp fun hlt => hchecks ⟨hsignature, hlt⟩
    rw [if_neg (by exact fun h => h hsignature), if_pos (by exact hsize)]
    exact ⟨_, t, rfl⟩
  · rw [if_pos (by exact hsignature)]
    exact ⟨_, t, rfl⟩

/-- The reads of a call that is not rejected: the boot sector, the FAT, the
first sector of the root directory. -/
def Volume.initialReads (v : Volume) : List (UInt32 × Nat) :=
  [(0, 1), (v.reservedSectors.toUInt32, v.sectorsPerFat.toUInt8.toNat), (v.rootDirLba, 1)]

/-- One that passes them is used: behind the reads comes the division. -/
theorem fatInitialize_goes_on (hM : M.Succeeds) (env : Env)
    (hchecks : (Volume.ofBoot (bootSectorOf M d s)).PassesChecks) :
    ∃ d' t, fatInitialize M.recording env d (s, []) =
      if (Volume.ofBoot (bootSectorOf M d s)).bytesPerSector = 0 then
        .error (.divideError, (t, (Volume.ofBoot (bootSectorOf M d s)).initialReads))
      else .ok ((d', 0), (t, (Volume.ofBoot (bootSectorOf M d s)).initialReads)) := by
  obtain ⟨boot, t₁, hboot, hread₁⟩ := hM.recorded 0 1 d.vol.bootSector s []
  rw [bootSectorOf, hboot] at hchecks ⊢
  obtain ⟨hsignature, hsize⟩ := hchecks
  obtain ⟨fat, t₂, -, hread₂⟩ := hM.recorded
    (Volume.reservedSectors { d.vol with bootSector := boot }).toUInt32
    (Volume.sectorsPerFat { d.vol with bootSector := boot }).toUInt8.toNat (Block.ofMem _ env.mem)
    t₁ [(0, 1)]
  obtain ⟨buffer, t₃, -, hread₃⟩ := hM.recorded
    (Volume.rootDirLba { d.vol with bootSector := boot, fat := fat.bytes }) 1
    d.rootDirectory.buffer t₂ _
  rw [fatInitialize, bind_ok hread₁]
  dsimp only [List.nil_append]
  rw [if_neg (by simp), if_neg (by exact fun h => h hsignature),
    if_neg (by exact UInt32.not_le.mpr hsize), bind_ok hread₂]
  dsimp only
  rw [if_neg (by simp)]
  by_cases hzero : (Volume.ofBoot boot).bytesPerSector = 0
  · refine ⟨d, t₃, (bind_ok hread₃).trans ?_⟩
    dsimp only
    rw [if_neg (by simp), if_pos hzero, if_pos (by exact hzero)]
    rfl
  · simp only [if_neg hzero]
    apply Exists.intro
    refine ⟨t₃, (bind_ok hread₃).trans ?_⟩
    dsimp only
    rw [if_neg (by simp), if_neg (by exact hzero)]
    rfl

/-- **What `FAT_Initialize` validates**: for any boot sector, with disk reads
succeeding, it divides by something and reads the FAT into the memory set
aside for it, all of it, if it rejects the sector or if `BytesPerSector` is
not zero and the FAT has 115 sectors at most; and in no other case. -/
theorem fatInitialize_validates_iff (hM : M.Succeeds) (env : Env) (d : Driver) (s : σ) :
    Validates M env d s ↔
      ((Volume.ofBoot (bootSectorOf M d s)).PassesChecks →
        (Volume.ofBoot (bootSectorOf M d s)).bytesPerSector ≠ 0 ∧
        (Volume.ofBoot (bootSectorOf M d s)).sectorsPerFat.toNat ≤ 115) := by
  by_cases hchecks : (Volume.ofBoot (bootSectorOf M d s)).PassesChecks
  · have hcount : (Volume.ofBoot (bootSectorOf M d s)).sectorsPerFat.toUInt8.toNat
        = (Volume.ofBoot (bootSectorOf M d s)).sectorsPerFat.toNat % 256 := UInt16.toNat_toUInt8 _
    have hsizeof : sizeofFatData.toNat = 6496 := rfl
    have hmemory : memoryFatSize.toNat = 65536 := rfl
    obtain ⟨d', t, hrun⟩ := fatInitialize_goes_on hM env hchecks
    by_cases hzero : (Volume.ofBoot (bootSectorOf M d s)).bytesPerSector = 0
    · rw [if_pos hzero] at hrun
      exact ⟨fun h => (h.noDivision _ hrun).elim, fun h => ((h hchecks).1 hzero).elim⟩
    · rw [if_neg hzero] at hrun
      have hsecond : (left (fatInitialize M.recording env d (s, []))).2[1]?
          = some ((Volume.ofBoot (bootSectorOf M d s)).reservedSectors.toUInt32,
            (Volume.ofBoot (bootSectorOf M d s)).sectorsPerFat.toUInt8.toNat) := by
        rw [hrun]
        rfl
      constructor
      · intro h _
        have hcovers := h.covers _ _ hsecond
        have hfits := h.fits _ _ hsecond
        exact ⟨hzero, by omega⟩
      · intro h
        have hle := (h hchecks).2
        refine ⟨?_, ?_, ?_⟩
        · rw [hrun]
          exact fun _ h => nomatch h
        · intro lba n hlog
          rw [hsecond] at hlog
          cases hlog
          omega
        · intro lba n hlog
          rw [hsecond] at hlog
          cases hlog
          omega
  · obtain ⟨d', t, hrun⟩ := fatInitialize_rejects hM env hchecks
    refine ⟨fun _ h => (hchecks h).elim, fun _ => ⟨?_, ?_, ?_⟩⟩
    · rw [hrun]
      exact fun _ h => nomatch h
    · rw [hrun]
      exact fun _ _ h => nomatch h
    · rw [hrun]
      exact fun _ _ h => nomatch h

/-- The small volume goes well. -/
theorem fatInitialize_validates_sample :
    sampleMachine.Succeeds ∧ Validates sampleMachine sampleEnv sampleDriver () := by
  have hM : sampleMachine.Succeeds := fun _ _ _ _ => rfl
  refine ⟨hM, (fatInitialize_validates_iff hM sampleEnv sampleDriver ()).mpr fun _ => ?_⟩
  decide +kernel

/-- A disk of boot sectors with a signature and no other field. -/
def sampleBlank : Fat12.Image := fun _ => Block.pad 512 (List.replicate 38 0 ++ [0x29])

/-- **The defect.** A boot sector whose `BytesPerSector` is zero passes the
checks. -/
theorem fatInitialize_not_validated :
    (imageMachine sampleBlank loadingBar).Succeeds ∧
      ¬ Validates (imageMachine sampleBlank loadingBar) sampleEnv sampleDriver () := by
  have hM : (imageMachine sampleBlank loadingBar).Succeeds := fun _ _ _ _ => rfl
  obtain ⟨d', t, hrun⟩ := fatInitialize_goes_on (d := sampleDriver) (s := ()) hM sampleEnv
    ⟨by decide +kernel, by decide +kernel⟩
  rw [if_pos (by decide +kernel)] at hrun
  exact ⟨hM, fun h => h.noDivision _ hrun⟩

end Netclover.Stage2
