import Netclover.Stage2.Geometry
import Netclover.Stage2.Load
import Netclover.Stage2.Rewind

/-!
# Booting the kernel (`cmain`, `DISK_ReadSectors`)

Lines 50-62 of `cmain` on top of `DISK_ReadSectors`, which tries a BIOS read
three times and resets the drive in between. Neither the loop of `cmain` nor
`FAT_Read` looks at a status, so the kernel is what it should be if every
`DISK_ReadSectors` of the run succeeded (`cmain_starts_loaded`), and need not
be if one did not (`cmain_starts_damaged`).
-/

namespace Netclover.Stage2

open Proc Libc Fat12

variable {σ : Type}

/-! ## `DISK_ReadSectors` -/

/-- What the BIOS does with a drive: read sectors from a cylinder, head and
number on, or reset it. Both return a status, zero for success of a read. -/
structure Bios (σ : Type) where
  read : UInt8 → Chs → (n : Nat) → Sectors n → σ → (UInt16 × Sectors n) × σ
  reset : UInt8 → σ → UInt16 × σ

def diskReset (B : Bios σ) (disk : Disk) (s : σ) : UInt16 × σ :=
  let (status, s) := B.reset disk.id s
  (if status = 1 then 1 else 0, s)

/-- The loop over the attempts; `result` is that of the last one. -/
def readAttempts (B : Bios σ) (disk : Disk) (chs : Chs) (n : Nat) :
    Nat → UInt16 → Sectors n → σ → (UInt16 × Sectors n) × σ
  | 0, result, dataOut, s => ((result, dataOut), s)
  | attempts + 1, _, dataOut, s =>
    let ((result, dataOut), s) := B.read disk.id chs n dataOut s
    if result ≠ 0 then
      let (status, s) := diskReset B disk s
      if status = 1 then ((1, dataOut), s) else readAttempts B disk chs n attempts result dataOut s
    else ((result, dataOut), s)

def diskReadSectors (B : Bios σ) (disk : Disk) (lba : UInt32) (n : Nat) (dataOut : Sectors n)
    (s : σ) : (UInt16 × Sectors n) × σ :=
  readAttempts B disk (diskLba2Chs disk lba) n 3 0 dataOut s

/-- A BIOS that does not lie: a read inside the geometry that reports success
has delivered what the image has there. -/
def Bios.Honest (B : Bios σ) (disk : Disk) (img : Image) : Prop :=
  ∀ (chs : Chs) (n : Nat) (dataOut : Sectors n) (s : σ),
    chs.cylinder.toNat < disk.cylinders.toNat → chs.head.toNat < disk.heads.toNat →
    1 ≤ chs.sector.toNat → chs.sector.toNat ≤ disk.sectors.toNat →
    (B.read disk.id chs n dataOut s).1.1 = 0 →
    (B.read disk.id chs n dataOut s).1.2 = imageSectors img
      ((chs.cylinder.toNat * disk.heads.toNat + chs.head.toNat) * disk.sectors.toNat
        + chs.sector.toNat - 1) n

/-- A run of attempts that ends in success has read the sectors. -/
theorem readAttempts_delivers {B : Bios σ} {disk : Disk} {chs : Chs} {n : Nat} {bytes : Sectors n}
    (hread : ∀ dataOut s, (B.read disk.id chs n dataOut s).1.1 = 0 →
      (B.read disk.id chs n dataOut s).1.2 = bytes) :
    ∀ (attempts : Nat) (result : UInt16) (dataOut : Sectors n) (s : σ),
      (attempts = 0 → result ≠ 0) →
      (readAttempts B disk chs n attempts result dataOut s).1.1 = 0 →
      (readAttempts B disk chs n attempts result dataOut s).1.2 = bytes := by
  intro attempts
  induction attempts with
  | zero =>
    intro result dataOut s hresult hok
    exact absurd hok (hresult rfl)
  | succ attempts ih =>
    intro result dataOut s _ hok
    have hone := hread dataOut s
    rw [readAttempts] at hok ⊢
    rcases hr : B.read disk.id chs n dataOut s with ⟨⟨result', dataOut'⟩, s'⟩
    rw [hr] at hone hok
    dsimp only at hone hok ⊢
    by_cases hfail : result' ≠ 0
    · rw [if_pos hfail] at hok ⊢
      rcases hd : diskReset B disk s' with ⟨status, s''⟩
      rw [hd] at hok
      dsimp only at hok ⊢
      by_cases hreset : status = 1
      · -- a failed reset makes the whole call fail
        rw [if_pos hreset] at hok
        cases hok
      · rw [if_neg hreset] at hok ⊢
        exact ih result' dataOut' s'' (fun _ => hfail) hok
    · rw [if_neg hfail] at hok ⊢
      exact hone hok

/-- **`DISK_ReadSectors`** of a sector of the disk that returns zero has
stored that sector, whatever failed before. -/
theorem diskReadSectors_delivers {B : Bios σ} {disk : Disk} {img : Image} (hB : B.Honest disk img)
    {lba : UInt32} (hlba : lba.toNat < disk.capacity) {n : Nat} {dataOut : Sectors n} {s : σ}
    (hok : (diskReadSectors B disk lba n dataOut s).1.1 = 0) :
    (diskReadSectors B disk lba n dataOut s).1.2 = imageSectors img lba.toNat n := by
  obtain ⟨hcylinder, hhead, hfirst, hlast, hdenotes⟩ := diskLba2Chs_spec hlba
  apply readAttempts_delivers
  · intro dataOut s hread
    have h := hB _ n dataOut s hcylinder hhead hfirst hlast hread
    rw [hdenotes] at h
    exact h
  · intro hnone
    cases hnone
  · exact hok

/-! ## The disk as the driver sees it -/

/-- The driver's disk. Next to the BIOS it keeps a note of whether any
`DISK_ReadSectors` so far failed or was for a sector past the end of the
disk. -/
def biosMachine (B : Bios σ) (disk : Disk) (bar : UInt32 → UInt32 → Option UInt32) :
    Machine (σ × Bool) where
  readSectors lba n dataOut s :=
    let (r, t) := diskReadSectors B disk lba n dataOut s.1
    (r, t, s.2 || r.1 != 0 || decide (disk.capacity ≤ lba.toNat))
  loadingBar := bar

/-- While nothing has been noted, the disk serves the image. -/
theorem biosMachine_serves {B : Bios σ} {disk : Disk} {img : Image} (hB : B.Honest disk img)
    (bar : UInt32 → UInt32 → Option UInt32) :
    Serves (biosMachine B disk bar) img fun s => s.2 = true where
  keeps lba n dataOut s hs := by
    simp only [biosMachine, hs, Bool.true_or]
  reads lba n dataOut s hs := by
    simp only [biosMachine, Bool.or_eq_true, not_or, bne_iff_ne, ne_eq, not_not,
      decide_eq_true_eq, Nat.not_le] at hs ⊢
    obtain ⟨⟨-, hok⟩, hlba⟩ := hs
    exact Prod.ext hok (diskReadSectors_delivers hB hlba hok)

/-- Every `DISK_ReadSectors` of the run was for a sector of the disk and
succeeded. -/
def AllRead {α : Type} (r : Except (Stop × (σ × Bool)) (α × (σ × Bool))) : Prop :=
  (left r).2 = false

instance {α : Type} (r : Except (Stop × (σ × Bool)) (α × (σ × Bool))) : Decidable (AllRead r) :=
  inferInstanceAs (Decidable ((left r).2 = false))

/-! ## Lines 50-62 of `cmain` -/

/-- What `cmain` has when it calls `kernelStart`. -/
structure Boot where
  kernelfd : Option FilePtr
  memory : Nat → UInt8

/-- Up to the call of `kernelStart`. -/
def cmain (M : Machine σ) (envs : Nat → Env) (fuel : Nat) (d : Driver) (memory : Nat → UInt8) :
    Proc σ Stop Boot := do
  let (d, kernelfd) ← fatOpen M (envs 0) fuel d kernelPath
  let st ← loadLoop M envs fuel kernelfd ⟨d, memoryKernelAddr, memory, 1⟩
  let _ ← fatClose st.driver kernelfd
  return ⟨kernelfd, st.memory⟩

/-- The run calls `kernelStart` only with a handle and with the file in
memory. A run that faults in the loading bar, or is not over, has not called
it; one that goes on with a NULL handle or outside an array may do anything. -/
structure StartsLoaded (file : List UInt8) (r : Except (Stop × σ) (Boot × σ)) : Prop where
  loaded : ∀ boot s, r = .ok (boot, s) → boot.kernelfd ≠ none ∧
    ∀ (i : Nat) (h : i < file.length), boot.memory (memoryKernelAddr + i) = file[i]
  stopped : ∀ stop s, r = .error (stop, s) → stop = .divideError ∨ stop = .unfinished

/-! ## The kernel on the volume -/

/-- The key of `kernel.bin` in a directory. -/
def kernelKey : List UInt8 := [0x4B, 0x45, 0x52, 0x4E, 0x45, 0x4C, 0x20, 0x20, 0x42, 0x49, 0x4E]

/-- `kernel.bin` is record `j` of the root directory, a regular file with the
clusters `cs`. -/
structure HoldsKernel (img : Image) (v : Volume) (cs : List Nat) (j : Nat) : Prop where
  bytesPerSector : v.bytesPerSector = 512
  sectorsPerCluster : 1 ≤ v.sectorsPerCluster
  record : v.HasRecord j
  name : (v.rootEntry img j).name = kernelKey
  first : ∀ k, k < j → (v.rootEntry img k).name ≠ kernelKey
  regular : (v.rootEntry img j).isDirectory = false
  size : (v.rootEntry img j).size.toNat < 2 ^ 31
  chain : Chain v.fat (v.rootEntry img j).firstCluster.toNat cs

/-- The contents of `kernel.bin`. -/
def kernelFile (img : Image) (v : Volume) (cs : List Nat) (j : Nat) : List UInt8 :=
  (contents img v.layout cs).take (v.rootEntry img j).size.toNat

/-- Passes enough for the search in the root directory and for the loop: one for
each record up to that of `kernel.bin`, and one more than the 64 KiB pieces of
the file. -/
def EnoughPasses (img : Image) (v : Volume) (cs : List Nat) (j fuel : Nat) : Prop :=
  j < fuel ∧ ((kernelFile img v cs j).length + 65535) / 65536 < fuel

/-! ## A run whose reads succeed -/

section

variable {M : Machine σ} {img : Image} {Bad : σ → Prop} {halts : Stop → Prop} {cs : List Nat}
  {j : Nat} {d : Driver}

/-- What follows the `FAT_Open` keeps what the disk keeps. -/
theorem cmain_rest_keeps {F : σ → Prop} (hF : M.Keeps F) (envs : Nat → Env) (fuel : Nat)
    (memory : Nat → UInt8) (r : Driver × Option FilePtr) :
    Proc.Keeps F (do
      let st ← loadLoop M envs fuel r.2 ⟨r.1, memoryKernelAddr, memory, 1⟩
      let _ ← fatClose st.driver r.2
      return (⟨r.2, st.memory⟩ : Boot)) := by
  refine Keeps.bind (Keeps.iterate (loadPass_keeps hF envs r.2) fuel _) fun st => ?_
  exact Keeps.bind (fatClose_keeps _ _) fun _ => Keeps.pure _

theorem cmain_keeps {F : σ → Prop} (hF : M.Keeps F) (envs : Nat → Env) (fuel : Nat) (d : Driver)
    (memory : Nat → UInt8) : Proc.Keeps F (cmain M envs fuel d memory) :=
  Keeps.bind (fatOpen_keeps hF _ _ _) fun r => cmain_rest_keeps hF envs fuel memory r

theorem copyName_kernel (stack : Block 256) : ∃ name,
    copyName stack kernelPath.tail kernelPath.tail.length = some name ∧
      fatName (cstring name) = kernelKey := by
  have hempty : copyName (Block.pad 256 []) kernelPath.tail kernelPath.tail.length
      = some (Block.pad 256 kernelPath.tail) := by decide +kernel
  obtain ⟨name, hname⟩ := copyName_fits stack hempty
  have hbase : (0x2E : UInt8) ∉ [0x6B, 0x65, 0x72, 0x6E, 0x65, 0x6C] := by decide
  have hkey := key_of_three hbase rfl (by decide) hname
  refine ⟨name, hname, ?_⟩
  rw [hkey]
  decide

/-- Closing the root directory is not seen by `FAT_OpenEntry`. -/
theorem fatClose_atRecord_eq (i : Nat) : ∃ d', d'.vol = d.vol ∧ freeHandle d' = freeHandle d ∧
    (fatClose (d.atRecord img i) (some .root) : Proc σ Stop Driver) = pure d' := by
  rw [fatClose_eq_root (d.atRecord_numbered img i)]
  refine ⟨_, ?_, ?_, rfl⟩
  · rfl
  · rfl

variable (hM : Serves M img Bad) (hroot : d.rootDirectory = d.vol.rootFile (img d.vol.rootDirLba.toNat))
  (hk : HoldsKernel img d.vol cs j) (hv : d.vol.Mounted)
include hM hroot hk hv

/-- `FAT_Open` of the kernel finds it. -/
theorem fatOpen_kernel_ensures (hfree : freeHandle d ≠ none) {fuel : Nat}
    (hfuel : j < fuel ∨ halts .unfinished) (env : Env) :
    Ensures Bad halts (fatOpen M env fuel d kernelPath) fun r => ∃ p, r.2 = some p ∧
      OpenAt img d.vol cs (d.vol.rootEntry img j).size.toNat p 0 r.1 := by
  have hone : OneComponent kernelPath kernelPath.tail := ⟨by decide, by decide, .inr rfl⟩
  obtain ⟨name, hname, hkey⟩ := copyName_kernel env.stack
  have hstart : d.atRecord img 0 = d := by
    rw [Driver.atRecord, Volume.rootAt_zero, ← hroot]
    exact Driver.setFile_file _ .root
  have hfind : Ensures Bad halts
      (fatFindFile M env fuel (d.atRecord img 0) (some .root) (cstring name)) _ :=
    fatFindFile_hit hM hk.record (by rw [hkey, hk.name])
      (fun k hk' => by rw [hkey]; exact (hk.first k hk').symm) hfuel
  rw [hstart] at hfind
  rw [fatOpen_component hone, openComponent, hname]
  apply Ensures.bind hfind
  · intro r
    refine Keeps.bind (fatClose_keeps _ _) fun d' => ?_
    cases r.2 with
    | none => exact Keeps.pure _
    | some entry => exact fatOpenEntry_keeps hM.keeps d' entry
  · rintro r rfl
    obtain ⟨d', hvol, hfree', hclose⟩ : ∃ d', d'.vol = d.vol ∧ freeHandle d' = freeHandle d ∧
        (fatClose (d.atRecord img (j + 1)) (some .root) : Proc σ Stop Driver) = pure d' :=
      fatClose_atRecord_eq (j + 1)
    dsimp only
    rw [hclose]
    apply (fatOpenEntry_ensures hM hv hk.chain hvol hk.regular rfl).mono
    intro r hr
    obtain ⟨hsome, hopen⟩ := hr
    cases hp : r.2 with
    | none => exact absurd (hfree' ▸ hsome hp) hfree
    | some p => exact ⟨p, rfl, hopen p hp⟩

/-- Lines 50-62, as long as the disk serves the image. -/
theorem cmain_ensures (hbar : ∀ m b, M.loadingBar m b = none → halts .divideError)
    (hfree : freeHandle d ≠ none) {fuel : Nat}
    (hfuel : EnoughPasses img d.vol cs j fuel ∨ halts .unfinished) (envs : Nat → Env)
    (memory : Nat → UInt8) :
    Ensures Bad halts (cmain M envs fuel d memory) fun boot => boot.kernelfd ≠ none ∧
      boot.memory = memcpy memory memoryKernelAddr (kernelFile img d.vol cs j) := by
  have hopen := fatOpen_kernel_ensures hM hroot hk hv hfree (hfuel.imp_left And.left) (envs 0)
  refine Ensures.bind hopen (fun r => cmain_rest_keeps hM.keeps envs fuel memory r) ?_
  rintro ⟨d', kernelfd⟩ ⟨p, hp, hfile⟩
  dsimp only at hp hfile
  subst hp
  have hload : Ensures Bad halts
      (loadLoop M envs fuel (some p) ⟨d', memoryKernelAddr, memory, 1⟩) _ :=
    loadLoop_ensures hM hbar hv hk.chain hk.size hfile (hfuel.imp_left And.right)
  refine Ensures.bind hload (fun st => ?_) ?_
  · exact Keeps.bind (fatClose_keeps _ _) fun _ => Keeps.pure _
  rintro st ⟨hmemory, -, hnum⟩
  have hclose : ∃ d'', (fatClose st.driver (some p) : Proc σ Stop Driver) = pure d'' := by
    cases p with
    | root => exact ⟨_, fatClose_eq_root hnum⟩
    | slot i => exact ⟨_, fatClose_eq_slot hnum⟩
  obtain ⟨d'', hclose⟩ := hclose
  rw [hclose]
  exact Ensures.pure ⟨by simp, hmemory⟩

end

/-- **The kernel that is started is the one on the disk**: `kernel.bin` is a
regular file of the root directory, and every `DISK_ReadSectors` of the run
was for a sector of the disk and succeeded, however often the BIOS failed on
the way. -/
theorem cmain_starts_loaded {B : Bios σ} {disk : Disk} {img : Image} (hB : B.Honest disk img)
    {env₀ : Env} {d₀ d : Driver} {s₀ s : σ × Bool}
    (hinit : fatInitialize (biosMachine B disk loadingBar) env₀ d₀ s₀ = .ok ((d, 0), s))
    {cs : List Nat} {j : Nat} (hk : HoldsKernel img (Volume.mount img) cs j)
    {envs : Nat → Env} {fuel : Nat} {memory : Nat → UInt8}
    (hgood : AllRead (cmain (biosMachine B disk loadingBar) envs fuel d memory s)) :
    StartsLoaded (kernelFile img (Volume.mount img) cs j)
      (cmain (biosMachine B disk loadingBar) envs fuel d memory s) := by
  have hM := biosMachine_serves hB loadingBar
  -- a failure in `FAT_Initialize` would still be noted at the end
  have hs : ¬ s.2 = true := by
    intro hbad
    rw [AllRead, cmain_keeps hM.keeps envs fuel d memory s hbad] at hgood
    cases hgood
  obtain ⟨hvol, hroot, -⟩ := fatInitialize_mount hM hinit hs
  have hclosed := (fatInitialize_ok hinit).2
  obtain ⟨i, hi⟩ := freeHandle_exists ⟨firstSlot, hclosed firstSlot⟩
  rw [← hvol] at hk ⊢
  have hv : d.vol.Mounted := by
    rw [hvol] at hk ⊢
    exact Volume.mount_mounted hk.bytesPerSector hk.sectorsPerCluster
  have hensures : Ensures (fun s : σ × Bool => s.2 = true)
      (fun e => e = .divideError ∨ e = .unfinished)
      (cmain (biosMachine B disk loadingBar) envs fuel d memory) _ :=
    cmain_ensures hM hroot hk hv (fun _ _ _ => .inl rfl) (by rw [hi]; simp) (.inr (.inr rfl)) envs
      memory
  have h := hensures s fun hbad => by rw [AllRead, hbad] at hgood; cases hgood
  constructor
  · intro boot t hrun
    rw [hrun] at h
    obtain ⟨hfd, hmemory⟩ := h
    refine ⟨hfd, fun k hk' => ?_⟩
    rw [hmemory, memcpy_get _ _ _ hk', List.getD_eq_getElem _ _ hk']
  · intro stop t hrun
    rw [hrun] at h
    exact h

/-! ## The small volume on a floppy disk -/

def sampleDisk : Disk := ⟨0, 80, 2, 18⟩

/-- The small volume, in a drive whose `k`-th read may fail. -/
def sampleBios (succeeds : Nat → Chs → Bool) : Bios Nat where
  read _ chs n dataOut k :=
    if succeeds k chs then ((0, imageSectors sampleImage
      ((chs.cylinder.toNat * 2 + chs.head.toNat) * 18 + chs.sector.toNat - 1) n), k + 1)
    else ((4, dataOut), k + 1)
  reset _ k := (0, k)

theorem sampleBios_honest (succeeds : Nat → Chs → Bool) :
    (sampleBios succeeds).Honest sampleDisk sampleImage := by
  intro chs n dataOut k _ _ _ _ hok
  simp only [sampleBios] at hok ⊢
  split
  · rfl
  · rename_i hfail
    rw [if_neg hfail] at hok
    cases hok

theorem sample_holdsKernel : HoldsKernel sampleImage (Volume.mount sampleImage) [2, 3] 0 where
  bytesPerSector := by decide +kernel
  sectorsPerCluster := by decide +kernel
  record := ⟨by decide, .inr (by decide +kernel)⟩
  name := by decide +kernel
  first k hk := by cases hk
  regular := by decide +kernel
  size := by decide +kernel
  chain := by
    have hentry : (Volume.mount sampleImage).rootEntry sampleImage 0 = sampleKernelEntry := by
      decide +kernel
    rw [hentry]
    exact sample_chain

/-- A drive in which every first attempt fails boots the kernel. -/
theorem cmain_starts_loaded_sample : ∃ d s,
    fatInitialize (biosMachine (sampleBios fun k _ => k % 2 == 1) sampleDisk loadingBar)
      sampleEnv sampleDriver (0, false) = .ok ((d, 0), s) ∧
    StartsLoaded (kernelFile sampleImage (Volume.mount sampleImage) [2, 3] 0)
      (cmain (biosMachine (sampleBios fun k _ => k % 2 == 1) sampleDisk loadingBar)
        (fun _ => sampleEnv) 4 d (fun _ => 0) s) := by
  have hrun : passes (fun r s => r.2 == 0 && decide (AllRead (cmain (biosMachine
      (sampleBios fun k _ => k % 2 == 1) sampleDisk loadingBar) (fun _ => sampleEnv) 4 r.1
        (fun _ => 0) s)))
      (fatInitialize (biosMachine (sampleBios fun k _ => k % 2 == 1) sampleDisk loadingBar)
        sampleEnv sampleDriver (0, false)) = true := by decide +kernel
  obtain ⟨⟨d, status⟩, s, hinit, htest⟩ := of_passes hrun
  simp only [Bool.and_eq_true, beq_iff_eq, decide_eq_true_eq] at htest
  obtain ⟨rfl, hgood⟩ := htest
  have h := cmain_starts_loaded (sampleBios_honest _) hinit sample_holdsKernel hgood
  exact ⟨d, s, hinit, h⟩

/-- **The defect.** Where the second sector of the kernel cannot be read,
`FAT_Read` returns the 512 bytes it has, `cmain` takes them for a piece of
the file, and the next `FAT_Read` delivers the same sector once more. -/
theorem cmain_starts_damaged :
    (sampleBios fun _ chs => chs != ⟨0, 0, 5⟩).Honest sampleDisk sampleImage ∧
    HoldsKernel sampleImage (Volume.mount sampleImage) [2, 3] 0 ∧
    ∃ d s, fatInitialize (biosMachine (sampleBios fun _ chs => chs != ⟨0, 0, 5⟩) sampleDisk
        loadingBar) sampleEnv sampleDriver (0, false) = .ok ((d, 0), s) ∧
      ¬ StartsLoaded (kernelFile sampleImage (Volume.mount sampleImage) [2, 3] 0)
        (cmain (biosMachine (sampleBios fun _ chs => chs != ⟨0, 0, 5⟩) sampleDisk loadingBar)
          (fun _ => sampleEnv) 4 d (fun _ => 0) s) := by
  have hrun : passes (fun r s => r.2 == 0 &&
      passes (fun boot _ => boot.memory (memoryKernelAddr + 512) == 3)
        (cmain (biosMachine (sampleBios fun _ chs => chs != ⟨0, 0, 5⟩) sampleDisk loadingBar)
          (fun _ => sampleEnv) 4 r.1 (fun _ => 0) s))
      (fatInitialize (biosMachine (sampleBios fun _ chs => chs != ⟨0, 0, 5⟩) sampleDisk
        loadingBar) sampleEnv sampleDriver (0, false)) = true := by decide +kernel
  have hfile : (kernelFile sampleImage (Volume.mount sampleImage) [2, 3] 0)[512]? = some 4 := by
    decide +kernel
  obtain ⟨⟨d, status⟩, s, hinit, htest⟩ := of_passes hrun
  obtain ⟨hzero, hstart⟩ := (Bool.and_eq_true _ _).mp htest
  obtain rfl : status = 0 := by simpa using hzero
  obtain ⟨boot, t, hboot, hbyte⟩ := of_passes hstart
  refine ⟨sampleBios_honest _, sample_holdsKernel, d, s, hinit, fun hloaded => ?_⟩
  obtain ⟨hlt, hget⟩ := List.getElem?_eq_some_iff.mp hfile
  have hkernel := (hloaded.loaded boot t hboot).2 512 hlt
  rw [hget, beq_iff_eq.mp hbyte] at hkernel
  cases hkernel

end Netclover.Stage2
