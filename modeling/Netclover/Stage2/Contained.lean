import Netclover.Stage2.Initialize
import Netclover.Stage2.OpenPasses
import Netclover.Stage2.Walk

/-!
# Where `FAT_Read` looks

Which sectors `FAT_OpenEntry` and `FAT_Read` ask the disk for, and where
`FAT_NextCluster` looks into the FAT, is decided by two fields of an entry and
by what the FAT says. The driver compares each cluster with the end mark and
checks nothing else. `accesses_contained_iff` says which chains keep every
access of every run where it belongs.
-/

namespace Netclover.Stage2

open Proc Libc Orbit

variable {σ : Type} {M : Machine σ} {env : Env} {v : Volume}

/-! ## Accesses -/

/-- The driver looks up a cluster in the FAT, or reads a sector of one. -/
inductive Access where
  | lookup (cluster : UInt32)
  | read (place : Place)
  deriving DecidableEq

def Place.lba (v : Volume) (p : Place) : UInt32 := fatClusterToLba v p.cluster + p.sector

/-- The two bytes are in the FAT, whose size is that of the boot sector. -/
def LookupContained (v : Volume) (cluster : UInt32) : Prop :=
  (cluster * 3 / 2).toNat + 1 < v.bytesPerSector.toNat * v.sectorsPerFat.toNat

/-- The sector is that of a cluster from 2 on, and nothing wraps. -/
structure Place.Contained (v : Volume) (p : Place) : Prop where
  cluster : 2 ≤ p.cluster
  above : v.dataSectionLba ≤ p.lba v
  exact : (p.lba v).toNat = v.dataSectionLba.toNat
    + (p.cluster.toNat - 2) * v.sectorsPerCluster.toNat + p.sector.toNat

def Access.Contained (v : Volume) : Access → Prop
  | .lookup cluster => LookupContained v cluster
  | .read p => p.Contained v

/-- What the disk is asked for. -/
def Access.request (v : Volume) : Access → Option (UInt32 × Nat)
  | .lookup _ => none
  | .read p => some (p.lba v, 1)

/-- Lines 276-292 of `FAT_Read`: on from a place of a file. -/
def stepAccesses (v : Volume) (env : Env) (p : Place) : List Access :=
  (if p.sector + 1 ≥ v.sectorsPerCluster.toUInt32 then [.lookup p.cluster] else []) ++
    if (nextPlace v env p).cluster ≥ 0xFF8 then [] else [.read (nextPlace v env p)]

theorem lookup_mem_stepAccesses {p : Place}
    (h : p.sector + 1 ≥ v.sectorsPerCluster.toUInt32) :
    Access.lookup p.cluster ∈ stepAccesses v env p := by
  refine List.mem_append_left _ ?_
  rw [if_pos h]
  exact List.mem_singleton_self _

theorem read_mem_stepAccesses {p : Place} (h : ¬ (nextPlace v env p).IsEnd) :
    Access.read (nextPlace v env p) ∈ stepAccesses v env p := by
  refine List.mem_append_right _ ?_
  rw [if_neg (by exact h)]
  exact List.mem_singleton_self _

/-- What a pass of the loop accesses, if the file is not the root directory. -/
def passAccesses (v : Volume) (env : Env) (st : ReadState) : List Access :=
  if st.byteCount > 0 then
    match readTake st with
    | some (st, true) =>
      if st.fd.pub.handle = rootDirectoryHandle then [] else stepAccesses v env st.fd.place
    | _ => []
  else []

/-- What `FAT_OpenEntry` accesses. -/
def openAccesses (d : Driver) (entry : DirectoryEntry) : List Access :=
  match freeHandle d with
  | none => []
  | some _ => [.read ⟨entry.firstCluster, 0⟩]

/-! ## They are the code's -/

theorem stepAccesses_request (p : Place) : (stepAccesses v env p).filterMap (Access.request v) =
    if (nextPlace v env p).cluster ≥ 0xFF8 then [] else [((nextPlace v env p).lba v, 1)] := by
  have hlookup : (if p.sector + 1 ≥ v.sectorsPerCluster.toUInt32 then [.lookup p.cluster]
      else []).filterMap (Access.request v) = [] := by
    split
    · rfl
    · rfl
  rw [stepAccesses, List.filterMap_append, hlookup, List.nil_append]
  split
  · rfl
  · rfl

theorem readNext_recording {st : ReadState} (h : st.fd.pub.handle ≠ rootDirectoryHandle) (s : σ)
    (log : List (UInt32 × Nat)) :
    (left (readNext M.recording v env st (s, log))).2
      = log ++ (stepAccesses v env st.fd.place).filterMap (Access.request v) := by
  have hplace := @place_nextSector env v st.fd
  have hcluster : (nextSector v env st.fd).currentCluster
      = (nextPlace v env st.fd.place).cluster := congrArg Place.cluster hplace
  rw [stepAccesses_request]
  rcases UInt32.lt_or_le (nextSector v env st.fd).currentCluster 0xFF8 with hin | hend
  · rw [if_neg (by rw [← hcluster]; exact UInt32.not_le.mpr hin)]
    rcases hread : nextRead M.recording v env st.fd (s, log) with ⟨⟨status, buffer⟩, t⟩
    have hlog : (nextRead M.recording v env st.fd (s, log)).2.2
        = log ++ [((nextSector v env st.fd).place.lba v, 1)] := rfl
    rw [hread, hplace] at hlog
    rw [readNext_answered h hin hread, ← hlog]
    split
    · rfl
    · generalize M.recording.loadingBar _ _ = bar
      cases bar with
      | none => rfl
      | some column => rfl
  · rw [if_pos (by rw [← hcluster]; exact hend), readNext_end h hend]
    exact (List.append_nil log).symm

/-- **The reads** of a pass are those of its accesses: the disk is asked for
nothing else. -/
theorem readPass_recording {st : ReadState} (h : st.fd.pub.handle ≠ rootDirectoryHandle) (s : σ)
    (log : List (UInt32 × Nat)) :
    (left (readPass M.recording v env st (s, log))).2
      = log ++ (passAccesses v env st).filterMap (Access.request v) := by
  rw [readPass, passAccesses]
  by_cases hpos : st.byteCount > 0
  · rw [if_pos hpos, if_pos hpos]
    cases htake : readTake st with
    | none => exact (List.append_nil log).symm
    | some r =>
      obtain ⟨st₁, emptied⟩ := r
      cases emptied with
      | false => exact (List.append_nil log).symm
      | true =>
        have hroot : st₁.fd.pub.handle ≠ rootDirectoryHandle := by
          rw [(readTake_same htake).handle]
          exact h
        simp only [if_neg hroot]
        exact readNext_recording hroot s log
  · rw [if_neg hpos, if_neg hpos]
    exact (List.append_nil log).symm

/-- **The lookups** of a pass are those of its accesses: what lies elsewhere
in the FAT, or behind it, makes no difference. -/
theorem readPass_lookups {fat : List UInt8} {env' : Env} {st : ReadState}
    (h : st.fd.pub.handle ≠ rootDirectoryHandle)
    (hsame : ∀ c, Access.lookup c ∈ passAccesses v env st →
      fatByte { v with fat } env' (c * 3 / 2).toNat = fatByte v env (c * 3 / 2).toNat ∧
      fatByte { v with fat } env' ((c * 3 / 2).toNat + 1) = fatByte v env ((c * 3 / 2).toNat + 1)) :
    readPass M { v with fat } env' st = readPass M v env st := by
  rw [passAccesses] at hsame
  rw [readPass, readPass]
  by_cases hpos : st.byteCount > 0
  · rw [if_pos hpos] at hsame ⊢
    rw [if_pos hpos]
    cases htake : readTake st with
    | none => rfl
    | some r =>
      obtain ⟨st₁, emptied⟩ := r
      cases emptied with
      | false => simp only [Bool.false_eq_true, if_false]
      | true =>
        have hroot : st₁.fd.pub.handle ≠ rootDirectoryHandle := by
          rw [(readTake_same htake).handle]
          exact h
        rw [htake] at hsame
        simp only [if_neg hroot] at hsame
        have hspc : Volume.sectorsPerCluster { v with fat } = v.sectorsPerCluster := rfl
        have hnext : nextSector { v with fat } env' st₁.fd = nextSector v env st₁.fd := by
          simp only [nextSector, hspc]
          by_cases hlast : st₁.fd.currentSectorInCluster + 1 ≥ v.sectorsPerCluster.toUInt32
          · obtain ⟨hlow, hhigh⟩ := hsame st₁.fd.currentCluster
              (lookup_mem_stepAccesses (p := st₁.fd.place) hlast)
            have hcluster : fatNextCluster { v with fat } env' st₁.fd.currentCluster
                = fatNextCluster v env st₁.fd.currentCluster := by
              simp only [fatNextCluster, hlow, hhigh]
            rw [hcluster]
          · rw [if_neg hlast, if_neg hlast]
        have hlba : ∀ c, fatClusterToLba { v with fat } c = fatClusterToLba v c := fun _ => rfl
        simp only [if_true, readNext, hnext, hlba]
  · rw [if_neg hpos, if_neg hpos]

theorem fatOpenEntry_recording (d : Driver) (entry : DirectoryEntry) (s : σ)
    (log : List (UInt32 × Nat)) :
    (left (fatOpenEntry M.recording d entry (s, log))).2
      = log ++ (openAccesses d entry).filterMap (Access.request d.vol) := by
  rw [fatOpenEntry, openAccesses]
  cases freeHandle d with
  | none => exact (List.append_nil log).symm
  | some i =>
    have hlba : fatClusterToLba d.vol entry.firstCluster
        = Place.lba d.vol ⟨entry.firstCluster, 0⟩ := (UInt32.add_zero _).symm
    dsimp only
    rw [hlba]
    rcases hread : M.recording.readSectors (Place.lba d.vol ⟨entry.firstCluster, 0⟩) 1
      (d.openedFiles i).buffer (s, log) with ⟨⟨status, buffer⟩, t⟩
    have hlog : t.2 = log ++ [(Place.lba d.vol ⟨entry.firstCluster, 0⟩, 1)] := by
      rw [show t = (M.recording.readSectors (Place.lba d.vol ⟨entry.firstCluster, 0⟩) 1
        (d.openedFiles i).buffer (s, log)).2 by rw [hread]]
      rfl
    have hdisk : M.recording.diskReadSectors (Place.lba d.vol ⟨entry.firstCluster, 0⟩) 1
        (d.openedFiles i).buffer (s, log) = .ok ((status, buffer), t) := congrArg Except.ok hread
    rw [bind_ok hdisk]
    dsimp only
    split
    · exact hlog
    · exact hlog

/-! ## Runs -/

/-- A driver with a file opened from `entry`: straight after `FAT_OpenEntry`,
after any `FAT_Read` of it, and after whatever leaves it alone. -/
inductive FileRun (M : Machine σ) (v : Volume) (env : Env) (entry : DirectoryEntry) (p : FilePtr) :
    Driver → Prop
  | opened {d d' : Driver} {s t : σ} : d.vol = v →
      fatOpenEntry M d entry s = .ok ((d', some p), t) → FileRun M v env entry p d'
  | read {d d' : Driver} {n : UInt32} {out : List UInt8} {s t : σ} :
      FileRun M v env entry p d → fatRead M env d (some p) n s = .ok ((d', out), t) →
      FileRun M v env entry p d'
  | other {d d' : Driver} : FileRun M v env entry p d → d'.file p = d.file p → d'.vol = v →
      FileRun M v env entry p d'

/-- What a run accesses: `FAT_OpenEntry`, or a pass of a `FAT_Read` on a file
that was opened from `entry`. -/
inductive Accesses (M : Machine σ) (v : Volume) (env : Env) (entry : DirectoryEntry)
    (a : Access) : Prop
  | opening {d : Driver} : d.vol = v → a ∈ openAccesses d entry → Accesses M v env entry a
  | reading {d : Driver} {p : FilePtr} {n : UInt32} {s t : σ} {st : ReadState} :
      FileRun M v env entry p d →
      Visits (readPass M d.vol env) ⟨d.file p, readClamp (d.file p) n, 0, []⟩ s st t →
      a ∈ passAccesses d.vol env st → Accesses M v env entry a

/-! ## The chain of an entry -/

/-- Where a file is when `k` sectors have been emptied. -/
def chainPlace (v : Volume) (env : Env) (entry : DirectoryEntry) (k : Nat) : Place :=
  (nextPlace v env)^[k] ⟨entry.firstCluster, 0⟩

theorem chainPlace_succ {entry : DirectoryEntry} {k : Nat} :
    nextPlace v env (chainPlace v env entry k) = chainPlace v env entry (k + 1) :=
  (Function.iterate_succ_apply' _ _ _).symm

/-- The size in the entry lets `FAT_Read` come to this many bytes. -/
def DirectoryEntry.Covers (entry : DirectoryEntry) (n : Nat) : Prop :=
  (entry.isDirectory = true ∧ entry.size = 0) ∨
    n ≤ entry.size.toNat ∧ entry.size.toNat < 2 ^ 31

/-- `FAT_Read` steps on from the `k`-th sector: the size covers it, and the
chain has not ended before. -/
structure StepsOn (v : Volume) (env : Env) (entry : DirectoryEntry) (k : Nat) : Prop where
  covers : entry.Covers (512 * (k + 1))
  inside : ∀ j < k, ¬ (chainPlace v env entry (j + 1)).IsEnd

/-- The first cluster is one, near enough; where `FAT_Read` steps on to the
next, its number is in the FAT, and what is there is an end mark or a cluster
again. -/
structure ChainContained (v : Volume) (env : Env) (entry : DirectoryEntry) : Prop where
  first : 2 ≤ entry.firstCluster
  near : v.dataSectionLba.toNat + (entry.firstCluster.toNat - 2) * v.sectorsPerCluster.toNat
    < 2 ^ 32
  lookups : ∀ k, StepsOn v env entry k →
    (chainPlace v env entry k).sector + 1 ≥ v.sectorsPerCluster.toUInt32 →
    LookupContained v (chainPlace v env entry k).cluster
  clusters : ∀ k, StepsOn v env entry k → ¬ (chainPlace v env entry (k + 1)).IsEnd →
    2 ≤ (chainPlace v env entry (k + 1)).cluster

/-- What keeps a sector's LBA from wrapping. -/
theorem Place.contained_iff {p : Place} : p.Contained v ↔ 2 ≤ p.cluster ∧
    v.dataSectionLba.toNat + (p.cluster.toNat - 2) * v.sectorsPerCluster.toNat + p.sector.toNat
      < 2 ^ 32 := by
  constructor
  · intro h
    have hlt := (p.lba v).toNat_lt
    rw [h.exact] at hlt
    exact ⟨h.cluster, hlt⟩
  · rintro ⟨hcluster, hlt⟩
    have hsub : (p.cluster - 2).toNat = p.cluster.toNat - 2 :=
      UInt32.toNat_sub_of_le _ _ hcluster
    have hexact : (p.lba v).toNat = v.dataSectionLba.toNat
        + (p.cluster.toNat - 2) * v.sectorsPerCluster.toNat + p.sector.toNat := by
      rw [Place.lba, fatClusterToLba, UInt32.toNat_add, UInt32.toNat_add, UInt32.toNat_mul, hsub,
        UInt8.toNat_toUInt32]
      generalize (p.cluster.toNat - 2) * v.sectorsPerCluster.toNat = product at hlt
      omega
    refine ⟨hcluster, ?_, hexact⟩
    rw [UInt32.le_iff_toNat_le, hexact]
    omega

/-- **Behind the first cluster** nothing wraps: a number that is no end mark
is small. -/
theorem nextPlace_contained (hdata : v.dataSectionLba.toNat < 2 ^ 25) {p : Place}
    (hin : ¬ (nextPlace v env p).IsEnd) (hcluster : 2 ≤ (nextPlace v env p).cluster) :
    (nextPlace v env p).Contained v := by
  have hsector := @nextPlace_sector_lt env v p
  have hspc := v.sectorsPerCluster.toNat_lt
  have hlt : (nextPlace v env p).cluster.toNat < 0xFF8 :=
    UInt32.lt_iff_toNat_lt.mp (UInt32.not_le.mp hin)
  have hproduct : ((nextPlace v env p).cluster.toNat - 2) * v.sectorsPerCluster.toNat
      ≤ 0xFF8 * 256 := Nat.mul_le_mul (by omega) (by omega)
  refine Place.contained_iff.mpr ⟨hcluster, ?_⟩
  omega

/-! ## A file on its chain -/

/-- The file has emptied `k` sectors, and the chain has not ended. -/
structure AtStep (v : Volume) (env : Env) (entry : DirectoryEntry) (fd : FatFileData) (k : Nat) :
    Prop where
  place : fd.place = chainPlace v env entry k
  size : fd.pub.size = entry.size
  inside : ∀ j < k, ¬ (chainPlace v env entry (j + 1)).IsEnd
  position : fd.pub.position.toNat = (512 * k + fd.pub.position.toNat % 512) % 2 ^ 32
  covers : entry.Covers (512 * k + fd.pub.position.toNat % 512) ∨ k = 0 ∧ fd.pub.position = 0

/-- The file is on its chain, or at its end. -/
structure OnWalk (v : Volume) (env : Env) (entry : DirectoryEntry) (fd : FatFileData) : Prop where
  handle : fd.pub.handle ≠ rootDirectoryHandle
  isDirectory : fd.pub.isDirectory = entry.isDirectory
  walk : (∃ k, AtStep v env entry fd k) ∨ ¬ Endless fd ∧ fd.pub.size = fd.pub.position

section Walk

variable {entry : DirectoryEntry} {st st' : ReadState} {more : Bool} {total k t : Nat}

/-- What is asked for is covered by the size. -/
theorem AtStep.covers_byteCount (hat : AtStep v env entry st.fd k)
    (hdir : st.fd.pub.isDirectory = entry.isDirectory) (hb : Bounded total st) :
    entry.Covers (512 * k + st.fd.pub.position.toNat % 512 + st.byteCount.toNat) := by
  have hposition := hat.position
  have hsize := hat.size
  rcases hb.room with ⟨hdir', hzero⟩ | ⟨hle, hlt⟩
  · exact .inl ⟨hdir ▸ hdir', hsize ▸ hzero⟩
  · rw [UInt32.toNat_sub, hsize] at hle hlt
    have hsize' := entry.size.toNat_lt
    rcases hat.covers with (hend | ⟨hn, hmax⟩) | ⟨rfl, hstart⟩
    · exact .inl hend
    · exact .inr ⟨by omega, hmax⟩
    · have hposition' : st.fd.pub.position.toNat = 0 := congrArg UInt32.toNat hstart
      exact .inr ⟨by omega, by omega⟩

theorem DirectoryEntry.Covers.le {m n : Nat} (h : entry.Covers n) (hmn : m ≤ n) : entry.Covers m :=
  h.imp id fun hn => ⟨Nat.le_trans hmn hn.1, hn.2⟩

/-- **A pass of the loop**, on a file on its chain: it stays in its sector, or
steps on, or comes to the end. -/
theorem Takes.atStep (h : Takes v env st st' more t) (hat : AtStep v env entry st.fd k)
    (hroot : st.fd.pub.handle ≠ rootDirectoryHandle)
    (hdir : st.fd.pub.isDirectory = entry.isDirectory) (hb : Bounded total st) :
    t ≠ 512 - st.fd.pub.position.toNat % 512 ∧ AtStep v env entry st'.fd k ∨
    ¬ (chainPlace v env entry (k + 1)).IsEnd ∧ AtStep v env entry st'.fd (k + 1) ∨
    (chainPlace v env entry (k + 1)).IsEnd ∧ ¬ Endless st'.fd ∧
      st'.fd.pub.size = st'.fd.pub.position := by
  have hcount := h.count
  have hposition := h.position
  have hold := hat.position
  have hcovers : entry.Covers (512 * k + st.fd.pub.position.toNat % 512 + t) :=
    (hat.covers_byteCount hdir hb).le (by omega)
  have hnext : nextPlace v env st.fd.place = chainPlace v env entry (k + 1) := by
    rw [hat.place, chainPlace_succ]
  have hmoves := h.moves
  generalize hemptied : (t == 512 - st.fd.pub.position.toNat % 512) = emptied at hmoves
  cases hmoves with
  | stay hplace hsize =>
    have hne : t ≠ 512 - st.fd.pub.position.toNat % 512 := by simpa using hemptied
    have hrest : st'.fd.pub.position.toNat % 512 = st.fd.pub.position.toNat % 512 + t := by omega
    refine .inl ⟨hne, hplace.trans hat.place, hsize.trans hat.size, hat.inside, by omega, .inl ?_⟩
    rw [hrest, ← Nat.add_assoc]
    exact hcovers
  | root hh _ => exact (hroot hh).elim
  | last _ hend hsize =>
    rw [hnext] at hend
    have heq : t = 512 - st.fd.pub.position.toNat % 512 := by simpa using hemptied
    have hends : EndsIn v env ⟨entry.firstCluster, 0⟩ k := ⟨hend, hat.inside⟩
    have hk := hends.le
    refine .inr (.inr ⟨hend, ?_, hsize⟩)
    rintro ⟨-, hzero⟩
    rw [← hsize, hzero] at hposition
    have : (0 : UInt32).toNat = 0 := rfl
    omega
  | next _ hin hplace hsize =>
    rw [hnext] at hin hplace
    have heq : t = 512 - st.fd.pub.position.toNat % 512 := by simpa using hemptied
    have hrest : st'.fd.pub.position.toNat % 512 = 0 := by omega
    refine .inr (.inl ⟨hin, hplace, hsize.trans hat.size, fun j hj => ?_, by omega, .inl ?_⟩)
    · rcases Nat.lt_succ_iff_lt_or_eq.mp hj with hlt | rfl
      · exact hat.inside j hlt
      · exact hin
    · rw [hrest]
      exact hcovers.le (by omega)

theorem Takes.onWalk (h : Takes v env st st' more t) (hb : Bounded total st)
    (hpos : st.byteCount ≠ 0) (hw : OnWalk v env entry st.fd) : OnWalk v env entry st'.fd := by
  refine ⟨?_, h.same.isDirectory.symm ▸ hw.isDirectory, ?_⟩
  · rw [h.same.handle]
    exact hw.handle
  · rcases hw.walk with ⟨k, hat⟩ | ⟨hend, hsize⟩
    · rcases h.atStep hat hw.handle hw.isDirectory hb with ⟨-, hstay⟩ | ⟨-, hon⟩ | ⟨-, hdone⟩
      · exact .inl ⟨k, hstay⟩
      · exact .inl ⟨k + 1, hon⟩
      · exact .inr hdone
    · rcases hb.room with hendless | ⟨hle, -⟩
      · exact (hend hendless).elim
      · rw [hsize, UInt32.sub_self] at hle
        exact (hpos (UInt32.toNat_inj.mp (Nat.le_zero.mp hle))).elim

/-- The invariant of the loop: a count that `int` cannot hold ends in the
first copy. -/
def Chained (v : Volume) (env : Env) (entry : DirectoryEntry) (total : Nat) (st : ReadState) :
    Prop := OnWalk v env entry st.fd ∧ (Bounded total st ∨ 2 ^ 31 ≤ st.byteCount.toNat)

theorem Chained.pass {s u : σ} (h : Chained v env entry total st)
    (hrun : readPass M v env st s = .ok ((st', more), u)) :
    OnWalk v env entry st'.fd ∧ (more = true → Bounded total st') := by
  obtain ⟨hw, hcount⟩ := h
  have hb : Bounded total st := by
    refine hcount.resolve_right fun hlarge => ?_
    rcases readPass_ok hrun with ⟨hzero, -, -⟩ | ⟨_, _, -, htake, -⟩
    · rw [hzero] at hlarge
      exact absurd hlarge (by decide)
    · rw [readTake_none hlarge] at htake
      cases htake
  rcases hb.passes hrun with ⟨-, rfl, rfl⟩ | ⟨hpos, t, htakes⟩
  · exact ⟨hw, nofun⟩
  · refine ⟨htakes.onWalk hb hpos hw, ?_⟩
    rintro rfl
    exact hb.pass hrun

theorem Chained.start {fd : FatFileData} (hw : OnWalk v env entry fd) (n : UInt32) :
    Chained v env entry (readClamp fd n).toNat ⟨fd, readClamp fd n, 0, []⟩ := by
  refine ⟨hw, ?_⟩
  rcases Nat.lt_or_ge (readClamp fd n).toNat (2 ^ 31) with hlt | hge
  · exact .inl (.start hlt)
  · exact .inr hge

theorem readFile_onWalk {fd : FatFileData} {n : UInt32} {s u : σ} (hw : OnWalk v env entry fd)
    (h : readFile M v env fd n s = .ok (st, u)) : OnWalk v env entry st.fd :=
  iterate_ok (I := Chained v env entry (readClamp fd n).toNat)
    (Q := fun a => OnWalk v env entry a.fd)
    (fun _ _ _ _ ha hrun => ⟨(ha.pass hrun).1, .inl ((ha.pass hrun).2 rfl)⟩)
    (fun _ _ _ _ ha hrun => (ha.pass hrun).1) (.start hw n) h

/-- **Every file** that was opened from the entry is on its chain, or at its
end. -/
theorem FileRun.onWalk {p : FilePtr} {d : Driver} (h : FileRun M v env entry p d) :
    d.vol = v ∧ d.Numbered p ∧ OnWalk v env entry (d.file p) := by
  induction h with
  | @opened d d' s t hvol hopen =>
    obtain ⟨i, buffer, rfl, -, -, rfl⟩ := fatOpenEntry_some hopen
    rw [Driver.Numbered, Driver.file_setFile_self, Driver.setFile_vol]
    have hhandle : (i.val : Int) ≠ rootDirectoryHandle := by
      rw [rootDirectoryHandle]
      omega
    refine ⟨hvol, handleFile_slot i, hhandle, rfl, .inl ⟨0, rfl, rfl, ?_, rfl, .inr ⟨rfl, rfl⟩⟩⟩
    exact fun j hj => absurd hj (Nat.not_lt_zero j)
  | @read d d' n out s t _ hread ih =>
    obtain ⟨rfl, hnum, hw⟩ := ih
    obtain ⟨st, hst, rfl, -⟩ := fatRead_ok hnum hread
    rw [Driver.file_setFile_self, Driver.setFile_vol]
    exact ⟨rfl, hnum.setFile (readFile_same hst).handle, readFile_onWalk hw hst⟩
  | other _ hfile hvol ih =>
    rw [Driver.Numbered, hfile]
    exact ⟨hvol, ih.2⟩

/-! ## What a pass accesses -/

/-- A pass that empties the buffer steps on from where the file is. -/
theorem passAccesses_eq (hroot : st.fd.pub.handle ≠ rootDirectoryHandle)
    (hb : Bounded total st) (hpos : st.byteCount ≠ 0) : passAccesses v env st =
      if 512 - st.fd.pub.position.toNat % 512 ≤ st.byteCount.toNat then
        stepAccesses v env st.fd.place else [] := by
  obtain ⟨st₁, emptied, t, htake, ht, -, -, -, -, hemptied⟩ :=
    readTake_eq st (Nat.lt_of_le_of_lt (Nat.le_add_left _ _) (hb.count ▸ hb.lt))
  have hroot₁ : st₁.fd.pub.handle ≠ rootDirectoryHandle := by
    rw [(readTake_same htake).handle]
    exact hroot
  have hpos' : st.byteCount > 0 := UInt32.pos_iff_ne_zero.mpr hpos
  rw [passAccesses, if_pos hpos', htake]
  cases emptied with
  | true =>
    have hfull := hemptied.mp rfl
    rw [if_pos (by omega), ← readTake_place htake]
    exact if_neg hroot₁
  | false =>
    have hrest : t ≠ 512 - st.fd.pub.position.toNat % 512 := fun h => nomatch hemptied.mpr h
    rw [if_neg (by omega)]

/-- **Every access** of a pass is one of a step on the chain. -/
theorem Chained.accesses {a : Access} (h : Chained v env entry total st)
    (ha : a ∈ passAccesses v env st) :
    ∃ k, StepsOn v env entry k ∧ a ∈ stepAccesses v env (chainPlace v env entry k) := by
  obtain ⟨hw, hb | hlarge⟩ := h
  · have hpos : st.byteCount ≠ 0 := by
      intro hzero
      rw [passAccesses, if_neg (by rw [hzero]; decide)] at ha
      cases ha
    rw [passAccesses_eq hw.handle hb hpos] at ha
    split at ha
    · rename_i hfull
      rcases hw.walk with ⟨k, hat⟩ | ⟨hend, hsize⟩
      · refine ⟨k, ⟨?_, hat.inside⟩, hat.place ▸ ha⟩
        exact (hat.covers_byteCount hw.isDirectory hb).le (by omega)
      · rcases hb.room with hendless | ⟨hle, -⟩
        · exact (hend hendless).elim
        · rw [hsize, UInt32.sub_self] at hle
          exact (hpos (UInt32.toNat_inj.mp (Nat.le_zero.mp hle))).elim
    · cases ha
  · rw [passAccesses, readTake_none hlarge] at ha
    split at ha
    · cases ha
    · cases ha

/-- On a chain that is contained, so is every step that `FAT_Read` takes. -/
theorem ChainContained.step (h : ChainContained v env entry)
    (hdata : v.dataSectionLba.toNat < 2 ^ 25) (hstep : StepsOn v env entry k) {a : Access}
    (ha : a ∈ stepAccesses v env (chainPlace v env entry k)) : a.Contained v := by
  have hnext := @chainPlace_succ env v entry k
  rcases List.mem_append.mp ha with hlookup | hread
  · split at hlookup
    · rename_i hlast
      obtain rfl := List.mem_singleton.mp hlookup
      exact h.lookups k hstep hlast
    · cases hlookup
  · split at hread
    · cases hread
    · rename_i hin
      obtain rfl := List.mem_singleton.mp hread
      refine nextPlace_contained hdata hin ?_
      rw [hnext]
      exact h.clusters k hstep (hnext ▸ hin)

/-- **Every access** of every run, on any disk. -/
theorem ChainContained.accesses (h : ChainContained v env entry)
    (hdata : v.dataSectionLba.toNat < 2 ^ 25) {a : Access} (ha : Accesses M v env entry a) :
    a.Contained v := by
  cases ha with
  | @opening d hvol hopen =>
    rw [openAccesses] at hopen
    split at hopen
    · cases hopen
    · obtain rfl := List.mem_singleton.mp hopen
      exact Place.contained_iff.mpr ⟨h.first, h.near⟩
  | @reading d p n s t st hrun hvisit hpass =>
    obtain ⟨rfl, -, hw⟩ := hrun.onWalk
    have hst := hvisit.invariant (I := Chained d.vol env entry (readClamp (d.file p) n).toNat)
      (.start hw n) fun _ _ _ _ ha hbody => ⟨(ha.pass hbody).1, .inl ((ha.pass hbody).2 rfl)⟩
    obtain ⟨k, hstep, hmem⟩ := hst.accesses hpass
    exact h.step hdata hstep hmem

end Walk

/-! ## A run to every step -/

section Reach

variable {entry : DirectoryEntry} {d : Driver} {p : FilePtr} {k : Nat} {s : σ}

theorem fatOpenEntry_succeeds (hM : M.Succeeds) {i : Fin maxFileHandles}
    (hi : freeHandle d = some i) (entry : DirectoryEntry) (s : σ) :
    ∃ d' p t, fatOpenEntry M d entry s = .ok ((d', some p), t) := by
  obtain ⟨d', r, t, hopen, hsome⟩ := @fatOpenEntry_openable σ M d entry s
  obtain ⟨p, rfl⟩ := Option.ne_none_iff_exists'.mp (hsome.mpr ⟨i, hi, hM _ _ _ _⟩)
  exact ⟨d', p, t, hopen⟩

/-- Where the size covers one more sector, `FAT_Read` may be asked for it. -/
theorem AtStep.readClamp {fd : FatFileData} (hat : AtStep v env entry fd k)
    (hdir : fd.pub.isDirectory = entry.isDirectory) (hedge : fd.pub.position.toNat % 512 = 0)
    (hcovers : entry.Covers (512 * (k + 1))) : Stage2.readClamp fd 512 = 512 := by
  have hposition := hat.position
  have hsize := hat.size
  rcases hcovers with ⟨hdir', hzero⟩ | ⟨hle, hlt⟩
  · exact readClamp_of_endless ⟨hdir.trans hdir', hsize.trans hzero⟩ 512
  · have hleft : (fd.pub.size - fd.pub.position).toNat = entry.size.toNat - 512 * k := by
      rw [UInt32.toNat_sub, hsize]
      omega
    have hend : ¬ Endless fd := by
      rintro ⟨-, hzero⟩
      rw [hsize] at hzero
      rw [hzero] at hle
      exact absurd hle (by simp)
    rw [readClamp_of_not_endless hend, ← UInt32.toNat_inj, toNat_minInt (by decide) (by omega),
      hleft]
    show min 512 _ = 512
    omega

/-- And reads it, if the disk does not fail and the chain goes on. -/
theorem AtStep.read (hM : M.Succeeds) (hbar : ∀ m b, M.loadingBar m b ≠ none) {fd : FatFileData}
    (hat : AtStep v env entry fd k) (hroot : fd.pub.handle ≠ rootDirectoryHandle)
    (hdir : fd.pub.isDirectory = entry.isDirectory) (hedge : fd.pub.position.toNat % 512 = 0)
    (hcovers : entry.Covers (512 * (k + 1))) (hin : ¬ (chainPlace v env entry (k + 1)).IsEnd)
    (s : σ) :
    ∃ st t, readFile M v env fd 512 s = .ok (st, t) ∧ AtStep v env entry st.fd (k + 1) ∧
      st.fd.pub.position.toNat % 512 = 0 := by
  have hclamp := hat.readClamp hdir hedge hcovers
  have hlt : (Stage2.readClamp fd 512).toNat < 2 ^ 31 := by
    rw [hclamp]
    decide
  obtain ⟨st, t, hst⟩ := @readFile_returns σ M env v hM hbar fd 512 hlt s
  refine ⟨st, t, hst, ?_⟩
  have hb := Bounded.start hlt
  rw [readFile] at hst
  rw [hclamp] at hst hb
  rw [iterate_succ] at hst
  obtain ⟨⟨st₁, more⟩, s₁, hpass, hrest⟩ := of_bind_ok hst
  -- the first pass takes the sector
  rcases hb.passes hpass with ⟨hzero, -, -⟩ | ⟨-, taken, htakes⟩
  · cases hzero
  have htaken : taken = 512 := by
    have hcount := htakes.count
    dsimp only at hcount
    rw [hedge] at hcount
    exact hcount
  have hposition := htakes.position
  have hcount := htakes.byteCount
  dsimp only at hposition hcount
  have hnext : AtStep v env entry st₁.fd (k + 1) := by
    rcases htakes.atStep hat hroot hdir hb with ⟨hne, -⟩ | ⟨-, hnext⟩ | ⟨hend, -⟩
    · dsimp only at hne
      omega
    · exact hnext
    · exact (hin hend).elim
  -- the second has nothing to do
  have hsame : st = st₁ := by
    cases more with
    | false =>
      rcases readPass_stops hM hpass with ⟨hzero, -⟩ | ⟨-, hend⟩
      · cases hzero
      · rw [hat.place, chainPlace_succ] at hend
        exact (hin hend).elim
    | true =>
      have hrest' : iterate .unfinished (readPass M v env) (511 + 1) st₁ s₁ = .ok (st, t) := hrest
      rw [iterate_succ] at hrest'
      obtain ⟨⟨st₂, more₂⟩, s₂, hpass₂, hrest₂⟩ := of_bind_ok hrest'
      have hzero : st₁.byteCount = 0 := by
        rw [← UInt32.toNat_inj, hcount, htaken]
        rfl
      rcases (hb.pass hpass).passes hpass₂ with ⟨-, rfl, rfl⟩ | ⟨hpos, -⟩
      · cases hrest₂
        rfl
      · exact (hpos hzero).elim
  rw [hsame]
  exact ⟨hnext, by omega⟩

/-- **A run to every step**: on a disk that does not fail, a file comes to
each sector from which `FAT_Read` may step on. -/
theorem StepsOn.reached (hM : M.Succeeds) (hbar : ∀ m b, M.loadingBar m b ≠ none)
    (hfree : ∃ i, (d.openedFiles i).opened = false) (s : σ) (h : StepsOn d.vol env entry k) :
    ∃ p d', FileRun M d.vol env entry p d' ∧ AtStep d.vol env entry (d'.file p) k ∧
      (d'.file p).pub.position.toNat % 512 = 0 := by
  induction k with
  | zero =>
    obtain ⟨i, hi⟩ := freeHandle_exists hfree
    obtain ⟨d', p, t, hopen⟩ := fatOpenEntry_succeeds hM hi entry s
    refine ⟨p, d', .opened rfl hopen, ?_⟩
    obtain ⟨i, buffer, rfl, -, -, rfl⟩ := fatOpenEntry_some hopen
    rw [Driver.file_setFile_self]
    exact ⟨⟨rfl, rfl, fun j hj => absurd hj (Nat.not_lt_zero j), rfl, .inr ⟨rfl, rfl⟩⟩, rfl⟩
  | succ k ih =>
    have hbefore : StepsOn d.vol env entry k :=
      ⟨h.covers.le (by omega), fun j hj => h.inside j (Nat.lt_succ_of_lt hj)⟩
    obtain ⟨p, d', hrun, hat, hedge⟩ := ih hbefore
    obtain ⟨hvol, hnum, hw⟩ := hrun.onWalk
    obtain ⟨st, t, hst, hnext, hedge'⟩ := hat.read hM hbar hw.handle hw.isDirectory hedge
      hbefore.covers (h.inside k (Nat.lt_succ_self k)) s
    have hread : fatRead M env d' (some p) 512 s = .ok ((d'.setFile p st.fd, st.out), t) := by
      rw [fatRead_eq hnum, hvol, bind_ok hst]
      rfl
    refine ⟨p, _, hrun.read hread, ?_⟩
    rw [Driver.file_setFile_self]
    exact ⟨hnext, hedge'⟩

/-- What it accesses there is what the step does. -/
theorem StepsOn.accesses (hM : M.Succeeds) (hbar : ∀ m b, M.loadingBar m b ≠ none)
    (hfree : ∃ i, (d.openedFiles i).opened = false) (s : σ) (h : StepsOn d.vol env entry k)
    {a : Access} (ha : a ∈ stepAccesses d.vol env (chainPlace d.vol env entry k)) :
    Accesses M d.vol env entry a := by
  obtain ⟨p, d', hrun, hat, hedge⟩ := h.reached hM hbar hfree s
  obtain ⟨hvol, -, hw⟩ := hrun.onWalk
  have hclamp := hat.readClamp hw.isDirectory hedge h.covers
  have hb : Bounded 512 ⟨d'.file p, 512, 0, []⟩ := by
    have hstart := @Bounded.start (d'.file p) 512 (by rw [hclamp]; decide)
    rw [hclamp] at hstart
    exact hstart
  have hstart : Visits (readPass M d'.vol env) ⟨d'.file p, readClamp (d'.file p) 512, 0, []⟩ s
      ⟨d'.file p, readClamp (d'.file p) 512, 0, []⟩ s := .start
  have hne : (512 : UInt32) ≠ 0 := by decide
  refine .reading hrun hstart ?_
  rw [hclamp, hvol, passAccesses_eq hw.handle hb hne, if_pos ?_, hat.place]
  · exact ha
  · show 512 - _ ≤ 512
    omega

end Reach

/-! ## When every access is contained -/

/-- **Which contents stay contained**: for every boot sector that
`FAT_Initialize` accepts and every entry and FAT, all lookups and reads of all
runs on all disks are where they belong if and only if the entry's chain is
contained, as far as its size lets `FAT_Read` follow it. -/
theorem accesses_contained_iff {M₀ : Machine σ} {env₀ : Env} {d₀ d : Driver} {s t : σ}
    (h : fatInitialize M₀ env₀ d₀ s = .ok ((d, 0), t)) (env : Env) (entry : DirectoryEntry) :
    (∀ (τ : Type) (M : Machine τ) (a : Access), Accesses M d.vol env entry a →
      a.Contained d.vol) ↔ ChainContained d.vol env entry := by
  have hinit := fatInitialize_initialized h
  constructor
  · intro hall
    have hfree : ∃ i, (d.openedFiles i).opened = false := ⟨firstSlot, hinit.closed firstSlot⟩
    have hM : (imageMachine sampleImage fun _ _ => some 0).Succeeds := fun _ _ _ _ => rfl
    have hstep : ∀ {k a}, StepsOn d.vol env entry k →
        a ∈ stepAccesses d.vol env (chainPlace d.vol env entry k) → a.Contained d.vol :=
      fun hk ha => hall Unit _ _ (hk.accesses hM (fun _ _ => nofun) hfree () ha)
    obtain ⟨i, hi⟩ := freeHandle_exists hfree
    have hopen : (Access.read ⟨entry.firstCluster, 0⟩).Contained d.vol := by
      refine hall Unit sampleMachine _ (.opening rfl ?_)
      rw [openAccesses, hi]
      exact List.mem_singleton_self _
    obtain ⟨hfirst, hnear⟩ := Place.contained_iff.mp hopen
    refine ⟨hfirst, hnear, fun k hk hlast => ?_, fun k hk hin => ?_⟩
    · exact hstep hk (lookup_mem_stepAccesses hlast)
    · have hread : (Access.read (chainPlace d.vol env entry (k + 1))).Contained d.vol := by
        rw [← chainPlace_succ] at hin ⊢
        exact hstep hk (read_mem_stepAccesses hin)
      exact hread.cluster
  · exact fun hchain τ M a ha => hchain.accesses hinit.dataSectionLba_lt ha

/-- The file in clusters 2 and 3 has two sectors to step on from. -/
theorem sample_stepsOn {k : Nat} (h : StepsOn sampleMounted.vol sampleEnv sampleKernelEntry k) :
    k = 0 ∨ k = 1 := by
  have hfile : sampleKernelEntry.isDirectory = false := by decide
  have hsize : sampleKernelEntry.size.toNat = 1024 := by decide
  rcases h.covers with ⟨hdir, -⟩ | ⟨hle, -⟩
  · exact absurd (hdir.symm.trans hfile) (by decide)
  · omega

theorem accesses_contained_iff_sample :
    ChainContained sampleMounted.vol sampleEnv sampleKernelEntry ∧
      ∀ (τ : Type) (M : Machine τ) (a : Access),
        Accesses M sampleMounted.vol sampleEnv sampleKernelEntry a →
          a.Contained sampleMounted.vol := by
  have hchain : ChainContained sampleMounted.vol sampleEnv sampleKernelEntry := by
    refine ⟨by decide +kernel, by decide +kernel, fun k hk _ => ?_, fun k hk hin => ?_⟩
    · rcases sample_stepsOn hk with rfl | rfl
      · show _ < _
        decide +kernel
      · show _ < _
        decide +kernel
    · rcases sample_stepsOn hk with rfl | rfl
      · decide +kernel
      · have hend : (chainPlace sampleMounted.vol sampleEnv sampleKernelEntry 2).cluster
            ≥ 0xFF8 := by
          decide +kernel
        exact absurd hend hin
  exact ⟨hchain, (accesses_contained_iff sample_initialize sampleEnv sampleKernelEntry).mpr hchain⟩

/-- An empty file: it has no cluster, and its entry says 0. -/
def sampleEmptyEntry : DirectoryEntry := Block.pad 32 <|
  [0x45] ++ List.replicate 10 0x20 ++ [0x20]

/-- **The defect.** An empty file is opened, and a sector is read that lies
in front of the data. -/
theorem fatOpenEntry_reads_before_data : ¬ ∀ (M : Machine Unit) (env : Env) (d₀ d : Driver)
    (entry : DirectoryEntry), fatInitialize M env d₀ () = .ok ((d, 0), ()) →
    ∀ a, Accesses M d.vol env entry a → a.Contained d.vol := by
  intro h
  have hread : Accesses sampleMachine sampleMounted.vol sampleEnv sampleEmptyEntry
      (.read ⟨0, 0⟩) := by
    refine .opening (d := sampleMounted) rfl ?_
    decide +kernel
  have hcontained := h sampleMachine sampleEnv sampleDriver sampleMounted sampleEmptyEntry
    sample_initialize _ hread
  have hcluster : (2 : UInt32) ≤ 0 := hcontained.cluster
  exact absurd hcluster (by decide)

end Netclover.Stage2
