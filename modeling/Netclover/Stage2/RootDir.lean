import Netclover.Stage2.Client

/-!
# The root directory

The root directory is one file of the driver, read 32 bytes at a time by every
lookup. `Volume.rootAt` is that file in front of record `i`; a lookup goes
from `rootAt 0` to the record behind the one it finds. Closing it rewinds the
position but not the buffer.
-/

namespace Netclover.Stage2

open Proc Libc Fat12

variable {σ : Type} {M : Machine σ} {env : Env}

/-! ## Records -/

/-- The root directory in front of record `i`. -/
def Volume.rootAt (v : Volume) (img : Image) (i : Nat) : FatFileData :=
  { v.rootFile (img (v.layout.rootLba + i / 16)) with
    pub := ⟨rootDirectoryHandle, true, UInt32.ofNat (32 * i), v.rootDirSize⟩
    currentCluster := UInt32.ofNat (v.layout.rootLba + i / 16) }

theorem length_rootRecord (img : Image) (lay : Layout) (i : Nat) :
    (rootRecord img lay i).length = 32 := by
  rw [rootRecord, List.length_take, List.length_drop, Block.length_bytes]
  omega

/-- Record `i` of the root directory, as `FAT_ReadEntry` stores it. -/
def Volume.rootEntry (v : Volume) (img : Image) (i : Nat) : DirectoryEntry :=
  ⟨rootRecord img v.layout i, length_rootRecord img v.layout i⟩

/-- There is a record `i` to read. A root directory of size zero has no end. -/
def Volume.HasRecord (v : Volume) (i : Nat) : Prop :=
  i < 2 ^ 20 ∧ (v.dirEntryCount = 0 ∨ i < v.dirEntryCount.toNat)

theorem Volume.rootAt_zero (v : Volume) (img : Image) :
    v.rootAt img 0 = v.rootFile (img v.rootDirLba.toNat) := by
  rw [Volume.rootAt, Volume.rootFile, v.toNat_rootDirLba, Nat.zero_div, Nat.add_zero,
    ← v.toNat_rootDirLba, UInt32.ofNat_toNat]
  rfl

theorem Volume.rootDirSize_eq_zero {v : Volume} : v.rootDirSize = 0 ↔ v.dirEntryCount = 0 := by
  have hsize := v.toNat_rootDirSize
  have hent : v.layout.dirEntries = v.dirEntryCount.toNat := rfl
  rw [← UInt32.toNat_inj, ← UInt16.toNat_inj]
  show v.rootDirSize.toNat = 0 ↔ v.dirEntryCount.toNat = 0
  omega

theorem toNat_ofNat_position {i : Nat} (h : i ≤ 2 ^ 20) : (UInt32.ofNat (32 * i)).toNat = 32 * i := by
  rw [UInt32.toNat_ofNat']
  omega

/-- What `FAT_ReadEntry` asks for in front of a record is all there. -/
theorem toNat_readClamp_root {v : Volume} (img : Image) {i : Nat} (h : v.HasRecord i) :
    (readClamp (v.rootAt img i) 32).toNat = 32 := by
  obtain ⟨hi, hrecord⟩ := h
  have hsize := v.toNat_rootDirSize
  have hent : v.layout.dirEntries = v.dirEntryCount.toNat := rfl
  have hlt := v.dirEntryCount.toNat_lt
  have hpos := toNat_ofNat_position (Nat.le_of_lt hi)
  rcases hrecord with hzero | hrecord
  · rw [readClamp, if_neg]
    · rfl
    · simp [Volume.rootAt, Volume.rootDirSize_eq_zero.mpr hzero]
  · have hsub : (v.rootDirSize - UInt32.ofNat (32 * i)).toNat
        = 32 * v.dirEntryCount.toNat - 32 * i := by
      rw [UInt32.toNat_sub_of_le _ _ (by rw [UInt32.le_iff_toNat_le]; omega), hpos, hsize, hent]
    have hne : v.rootDirSize ≠ 0 := by
      rw [ne_eq, ← UInt32.toNat_inj]
      show ¬ v.rootDirSize.toNat = 0
      omega
    rw [readClamp, if_pos (by simp [Volume.rootAt, hne])]
    show (minInt 32 (v.rootDirSize - UInt32.ofNat (32 * i))).toNat = 32
    rw [toNat_minInt (by decide) (by omega), hsub]
    show min 32 _ = 32
    omega

/-- In front of the end of a root directory nothing is taken. -/
theorem readFile_root_end {v : Volume} {img : Image} (h : v.dirEntryCount ≠ 0) :
    readFile M v env (v.rootAt img v.dirEntryCount.toNat) 32
      = pure ⟨v.rootAt img v.dirEntryCount.toNat, 0, 0, []⟩ := by
  have hlt := v.dirEntryCount.toNat_lt
  have hsize := v.toNat_rootDirSize
  have hent : v.layout.dirEntries = v.dirEntryCount.toNat := rfl
  have hpos := toNat_ofNat_position (i := v.dirEntryCount.toNat) (by omega)
  have hend : v.rootDirSize - UInt32.ofNat (32 * v.dirEntryCount.toNat) = 0 := by
    rw [← UInt32.toNat_inj, UInt32.toNat_sub_of_le _ _ (by rw [UInt32.le_iff_toNat_le]; omega)]
    show _ - _ = 0
    omega
  have hclamp : readClamp (v.rootAt img v.dirEntryCount.toNat) 32 = 0 := by
    have hne : v.rootDirSize ≠ 0 := fun e => h (Volume.rootDirSize_eq_zero.mp e)
    rw [readClamp, if_pos (by simp [Volume.rootAt, hne])]
    show minInt 32 (v.rootDirSize - UInt32.ofNat (32 * v.dirEntryCount.toNat)) = 0
    rw [hend]
    decide
  rw [readFile, hclamp]
  rfl

/-- The copy of a record out of the buffer. -/
theorem readTake_record {k : Nat} {st : ReadState} (hp : st.fd.pub.position.toNat = 32 * k)
    (hb : st.byteCount.toNat = 32) (hout : st.out = []) :
    ∃ st' emptied, readTake st = some (st', emptied) ∧ st'.byteCount = 0 ∧
      st'.out = (st.fd.buffer.bytes.drop (32 * (k % 16))).take 32 ∧
      st'.fd = { st.fd with pub.position := UInt32.ofNat (32 * (k + 1)) } ∧
      (emptied = true ↔ k % 16 = 15) := by
  obtain ⟨st', emptied, t, htake, ht, hcount, hout', hfd, hposition, hemptied⟩ :=
    readTake_eq st (by omega)
  rw [hp] at ht hout' hposition hemptied
  -- a sector holds sixteen records, so none crosses its end
  obtain rfl : t = 32 := by omega
  have hnext : st'.fd.pub.position = UInt32.ofNat (32 * (k + 1)) := by
    rw [← UInt32.toNat_inj, hposition, UInt32.toNat_ofNat']
    omega
  refine ⟨st', emptied, htake, ?_, ?_, ?_, ?_⟩
  · rw [← UInt32.toNat_inj, hcount, hb]
    rfl
  · rw [hout', hout, List.nil_append, show 32 * k % 512 = 32 * (k % 16) by omega]
  · rw [hfd, hnext]
  · rw [hemptied]
    omega

/-- A read whose first pass takes all there is to take. -/
theorem readFile_of_readPass {Bad : σ → Prop} {halts : Stop → Prop} (hM : M.Keeps Bad)
    {v : Volume} {fd : FatFileData} {n : UInt32} {Q : ReadState → Prop}
    (hpos : 0 < (readClamp fd n).toNat)
    (h : Ensures Bad halts (readPass M v env ⟨fd, readClamp fd n, 0, []⟩) fun r =>
      r.1.byteCount = 0 ∧ Q r.1) :
    Ensures Bad halts (readFile M v env fd n) Q := by
  refine Ensures.iterate
    (I := fun st => st = ⟨fd, readClamp fd n, 0, []⟩ ∨ (st.byteCount = 0 ∧ Q st))
    (fun st => st.byteCount.toNat) (fun st => readPass_keeps hM v st) ?_ _ _ (.inl rfl)
    (.inl (Nat.lt_succ_self _))
  rintro st (rfl | ⟨hzero, hst⟩)
  · refine h.mono fun r hr => ?_
    split
    · refine ⟨.inr hr, ?_⟩
      rw [hr.1]
      exact hpos
    · exact hr.2
  · rw [readPass, if_neg (by rw [hzero]; decide)]
    exact Ensures.pure hst

section

variable {img : Image} {Bad : σ → Prop} {halts : Stop → Prop} {v : Volume}
  (hM : Serves M img Bad)
include hM

/-- The pass that takes the record, and goes on to the next sector if the
record was the last of its own. -/
theorem readPass_root_ensures {i : Nat} (h : v.HasRecord i) {st : ReadState}
    (hfd : st.fd = v.rootAt img i) (hb : st.byteCount.toNat = 32) (hout : st.out = []) :
    Ensures Bad halts (readPass M v env st) fun r => r.2 = true ∧ r.1.byteCount = 0 ∧
      r.1.out = rootRecord img v.layout i ∧ r.1.fd = v.rootAt img (i + 1) := by
  have hi := h.1
  have hrootLba := v.rootLba_le
  have hp : st.fd.pub.position.toNat = 32 * i := by
    rw [hfd]
    exact toNat_ofNat_position (Nat.le_of_lt hi)
  obtain ⟨st', emptied, htake, hdone, hrecord, hfd', hemptied⟩ :=
    readTake_record hp hb hout
  rw [hfd] at hrecord hfd'
  rw [readPass, if_pos (by show 0 < st.byteCount.toNat; omega), htake]
  cases emptied with
  | false =>
    have hmid : i % 16 ≠ 15 := by simpa using hemptied
    dsimp only
    rw [if_neg (by simp)]
    refine Ensures.pure ⟨rfl, hdone, hrecord, ?_⟩
    rw [hfd', Volume.rootAt, Volume.rootAt, show (i + 1) / 16 = i / 16 by omega]
  | true =>
    -- the record was the last of its sector
    have hedge : i % 16 = 15 := hemptied.mp rfl
    have hlba : (UInt32.ofNat (v.layout.rootLba + i / 16) + 1).toNat
        = v.layout.rootLba + (i + 1) / 16 := by
      rw [UInt32.toNat_add, UInt32.toNat_ofNat']
      show (_ + 1) % _ = _
      omega
    have hcluster : st'.fd.currentCluster + 1
        = UInt32.ofNat (v.layout.rootLba + (i + 1) / 16) := by
      rw [hfd', ← UInt32.toNat_inj, UInt32.toNat_ofNat']
      show (UInt32.ofNat (v.layout.rootLba + i / 16) + 1).toNat = _
      omega
    have hroot : st'.fd.pub.handle = rootDirectoryHandle := by
      rw [hfd']
      rfl
    dsimp only
    rw [if_pos rfl, readNext, if_pos hroot]
    refine Ensures.bind (diskReadSectors_ensures hM _ 1 _) (fun _ => Keeps.pure _) ?_
    rintro r rfl
    refine Ensures.pure ⟨rfl, hdone, hrecord, ?_⟩
    dsimp only
    rw [imageSectors_one, hcluster, UInt32.toNat_ofNat', hfd', Volume.rootAt, Volume.rootAt]
    rw [Nat.mod_eq_of_lt (by omega)]
    rfl

/-- **`FAT_ReadEntry` on the root directory** stores the next record and
stands in front of the one behind it. -/
theorem readFile_root_ensures {i : Nat} (h : v.HasRecord i) :
    Ensures Bad halts (readFile M v env (v.rootAt img i) 32) fun st =>
      st.out = rootRecord img v.layout i ∧ st.fd = v.rootAt img (i + 1) := by
  have hclamp := toNat_readClamp_root img h
  refine readFile_of_readPass hM.keeps (by omega) ?_
  exact (readPass_root_ensures hM h rfl hclamp rfl).mono fun r hr => hr.2

end

/-! ## Lookups -/

/-- The driver with the root directory in front of record `i`. -/
def Driver.atRecord (d : Driver) (img : Image) (i : Nat) : Driver :=
  d.setFile .root (d.vol.rootAt img i)

theorem Driver.atRecord_numbered (d : Driver) (img : Image) (i : Nat) :
    (d.atRecord img i).Numbered .root := rfl

section

variable {img : Image} {Bad : σ → Prop} {halts : Stop → Prop} {d : Driver}
  (hM : Serves M img Bad)

include hM in
/-- **`FAT_ReadEntry`** delivers the next record. -/
theorem fatReadEntry_root_ensures {i : Nat} (h : d.vol.HasRecord i) :
    Ensures Bad halts (fatReadEntry M env (d.atRecord img i) (some .root)) fun r =>
      r = (d.atRecord img (i + 1), some (d.vol.rootEntry img i)) := by
  rw [fatReadEntry, fatRead_eq (d.atRecord_numbered img i)]
  refine Ensures.bind (Q := fun r => r = (d.atRecord img (i + 1), rootRecord img d.vol.layout i))
    ?_ (fun _ => Keeps.pure _) ?_
  · refine Ensures.bind (readFile_root_ensures hM (v := d.vol) h) (fun _ => Keeps.pure _) ?_
    rintro st ⟨hout, hfd⟩
    refine Ensures.pure ?_
    rw [hout, hfd, Driver.atRecord, Driver.setFile_setFile]
    rfl
  · rintro r rfl
    refine Ensures.pure ?_
    rw [dif_pos (length_rootRecord img d.vol.layout i)]
    rfl

/-- Behind the last record it delivers none. -/
theorem fatReadEntry_root_end (hd : d.vol.dirEntryCount ≠ 0) :
    fatReadEntry M env (d.atRecord img d.vol.dirEntryCount.toNat) (some .root)
      = pure (d.atRecord img d.vol.dirEntryCount.toNat, none) := by
  have hfile : readFile M (d.atRecord img d.vol.dirEntryCount.toNat).vol env
      ((d.atRecord img d.vol.dirEntryCount.toNat).file .root) 32 = _ := readFile_root_end hd
  rw [fatReadEntry, fatRead_eq (d.atRecord_numbered img _), hfile]
  rfl

include hM in
/-- One pass of `FAT_FindFile` compares the next record. -/
theorem findPass_ensures {i : Nat} (h : d.vol.HasRecord i) (key : List UInt8)
    (entry : Option DirectoryEntry) :
    Ensures Bad halts (findPass M env (some .root) key (d.atRecord img i, entry)) fun r =>
      r = if key = (d.vol.rootEntry img i).name
        then ((d.atRecord img (i + 1), some (d.vol.rootEntry img i)), false)
        else ((d.atRecord img (i + 1), none), true) := by
  refine Ensures.bind (fatReadEntry_root_ensures hM h) (fun r => ?_) ?_
  · obtain ⟨d₁, entry₁⟩ := r
    cases entry₁ with
    | none => exact Keeps.pure _
    | some e =>
      dsimp only
      split
      · exact Keeps.pure _
      · exact Keeps.pure _
  · rintro r rfl
    dsimp only
    split
    · exact Ensures.pure rfl
    · exact Ensures.pure rfl

/-- A pass in front of the end of the directory ends the search. -/
theorem findPass_end (hd : d.vol.dirEntryCount ≠ 0) (key : List UInt8)
    (entry : Option DirectoryEntry) :
    findPass M env (some .root) key (d.atRecord img d.vol.dirEntryCount.toNat, entry)
      = pure ((d.atRecord img d.vol.dirEntryCount.toNat, none), false) := by
  rw [findPass, fatReadEntry_root_end hd]
  rfl

include hM in
/-- **A lookup that finds** stops behind the first record with the key. -/
theorem fatFindFile_hit {j : Nat} (hj : d.vol.HasRecord j) {name : List UInt8}
    (hkey : fatName name = (d.vol.rootEntry img j).name)
    (hfirst : ∀ k, k < j → fatName name ≠ (d.vol.rootEntry img k).name) {fuel : Nat}
    (hfuel : j < fuel ∨ halts .unfinished) :
    Ensures Bad halts (fatFindFile M env fuel (d.atRecord img 0) (some .root) name) fun r =>
      r = (d.atRecord img (j + 1), some (d.vol.rootEntry img j)) := by
  refine Ensures.iterate_down (I := fun k r => ∃ i, i + k = j ∧ r = (d.atRecord img i, none))
    (findPass_keeps hM.keeps _ _) ?_ fuel j _ ⟨0, Nat.zero_add j, rfl⟩ hfuel
  rintro k r ⟨i, hij, rfl⟩
  have hle : i ≤ j := by omega
  have hi : d.vol.HasRecord i := ⟨Nat.lt_of_le_of_lt hle hj.1, hj.2.imp id fun h => by omega⟩
  refine (findPass_ensures hM hi _ _).mono fun r hr => ?_
  by_cases hlast : i = j
  · subst hlast
    rw [if_pos hkey] at hr
    rw [hr]
    simp
  · rw [if_neg (hfirst i (by omega))] at hr
    rw [hr]
    exact ⟨k - 1, by omega, i + 1, by omega, rfl⟩

include hM in
/-- **A lookup that misses** goes through the directory to its end. -/
theorem fatFindFile_miss (hd : d.vol.dirEntryCount ≠ 0) {name : List UInt8}
    (hnone : ∀ k, k < d.vol.dirEntryCount.toNat → fatName name ≠ (d.vol.rootEntry img k).name)
    {fuel : Nat} (hfuel : d.vol.dirEntryCount.toNat < fuel ∨ halts .unfinished) :
    Ensures Bad halts (fatFindFile M env fuel (d.atRecord img 0) (some .root) name) fun r =>
      r = (d.atRecord img d.vol.dirEntryCount.toNat, none) := by
  have hlt := d.vol.dirEntryCount.toNat_lt
  refine Ensures.iterate_down
    (I := fun k r => ∃ i, i + k = d.vol.dirEntryCount.toNat ∧ r = (d.atRecord img i, none))
    (findPass_keeps hM.keeps _ _) ?_ fuel _ _ ⟨0, Nat.zero_add _, rfl⟩ hfuel
  rintro k r ⟨i, hi, rfl⟩
  by_cases hend : i = d.vol.dirEntryCount.toNat
  · subst hend
    rw [findPass_end hd]
    exact Ensures.pure (by simp)
  · refine (findPass_ensures hM ⟨by omega, .inr (by omega)⟩ _ _).mono fun r hr => ?_
    rw [if_neg (hnone i (by omega))] at hr
    rw [hr]
    exact ⟨k - 1, by omega, i + 1, by omega, rfl⟩

end

end Netclover.Stage2
