import Netclover.Stage2.Fat

/-!
# What each driver function may change

One lemma per function of `fat.c`. Two kinds: what a function does to the
state of the disk is made of disk reads (`Keeps`), and what a returning call
does to the driver is confined to the file data it was asked to work on.
-/

namespace Netclover.Stage2

open Proc

variable {σ : Type} {M : Machine σ} {env : Env}

/-! ## File data behind pointers -/

section
variable (d : Driver) (fd : FatFileData)

@[simp] theorem Driver.setFile_vol (p : FilePtr) : (d.setFile p fd).vol = d.vol := by
  cases p <;> rfl

@[simp] theorem Driver.file_setFile_self (p : FilePtr) : (d.setFile p fd).file p = fd := by
  cases p <;> simp [Driver.setFile, Driver.file]

theorem Driver.file_setFile_ne {p q : FilePtr} (h : q ≠ p) : (d.setFile p fd).file q = d.file q := by
  cases p <;> cases q <;> simp_all [Driver.setFile, Driver.file, Function.update]

@[simp] theorem Driver.openedFiles_setFile_self (i : Fin maxFileHandles) :
    (d.setFile (.slot i) fd).openedFiles i = fd := d.file_setFile_self fd (.slot i)

theorem Driver.openedFiles_setFile_ne {i j : Fin maxFileHandles} (h : i ≠ j) :
    (d.setFile (.slot j) fd).openedFiles i = d.openedFiles i :=
  d.file_setFile_ne fd (p := .slot j) (q := .slot i) (by simpa using h)

@[simp] theorem Driver.setFile_setFile (p : FilePtr) (fd' : FatFileData) :
    (d.setFile p fd).setFile p fd' = d.setFile p fd' := by
  cases p <;> simp [Driver.setFile]

@[simp] theorem Driver.setFile_file (p : FilePtr) : d.setFile p (d.file p) = d := by
  cases p <;> simp [Driver.setFile, Driver.file]

end

@[simp] theorem handleFile_root : handleFile rootDirectoryHandle = some .root := rfl

@[simp] theorem handleFile_slot (i : Fin maxFileHandles) :
    handleFile (i.val : Int) = some (.slot i) := by
  have h : ¬ (i.val : Int) = rootDirectoryHandle := by
    rw [rootDirectoryHandle]
    omega
  rw [handleFile, if_neg h, dif_pos ⟨by omega, by simp⟩]
  simp

/-- The handle field of a file says where the file is. -/
def Driver.Numbered (d : Driver) (p : FilePtr) : Prop :=
  handleFile (d.file p).pub.handle = some p

/-! ## The disk is only read -/

section Keeps

variable {F : σ → Prop}

/-- No disk read loses the fact `F` of the disk's state. -/
def Machine.Keeps (M : Machine σ) (F : σ → Prop) : Prop :=
  ∀ lba n buf s, F s → F (M.readSectors lba n buf s).2

variable (hM : M.Keeps F)
include hM

theorem diskReadSectors_keeps (lba : UInt32) (n : Nat) (buf : Sectors n) :
    Proc.Keeps F (M.diskReadSectors lba n buf) := Keeps.act (hM lba n buf)

theorem readNext_keeps (v : Volume) (st : ReadState) : Proc.Keeps F (readNext M v env st) := by
  unfold readNext
  split
  · exact Keeps.bind (diskReadSectors_keeps hM _ _ _) fun _ => Keeps.pure _
  · dsimp only
    split
    · exact Keeps.pure _
    · refine Keeps.bind (diskReadSectors_keeps hM _ _ _) fun r => ?_
      split
      · exact Keeps.pure _
      · split
        · exact Keeps.halt _
        · exact Keeps.pure _

theorem readPass_keeps (v : Volume) (st : ReadState) : Proc.Keeps F (readPass M v env st) := by
  unfold readPass
  split
  · split
    · exact Keeps.halt _
    · split
      · exact readNext_keeps hM v _
      · exact Keeps.pure _
  · exact Keeps.pure _

theorem readFile_keeps (v : Volume) (fd : FatFileData) (n : UInt32) :
    Proc.Keeps F (readFile M v env fd n) := Keeps.iterate (readPass_keeps hM v) _ _

theorem fatRead_keeps (d : Driver) (file : Option FilePtr) (n : UInt32) :
    Proc.Keeps F (fatRead M env d file n) := by
  unfold fatRead
  split
  · exact Keeps.halt _
  · split
    · exact Keeps.halt _
    · exact Keeps.bind (readFile_keeps hM _ _ _) fun _ => Keeps.pure _

theorem fatReadEntry_keeps (d : Driver) (file : Option FilePtr) :
    Proc.Keeps F (fatReadEntry M env d file) :=
  Keeps.bind (fatRead_keeps hM d file 32) fun _ => Keeps.pure _

theorem findPass_keeps (file : Option FilePtr) (key : List UInt8)
    (r : Driver × Option DirectoryEntry) : Proc.Keeps F (findPass M env file key r) := by
  refine Keeps.bind (fatReadEntry_keeps hM _ file) fun ⟨d, entry⟩ => ?_
  cases entry with
  | none => exact Keeps.pure _
  | some entry =>
    dsimp only
    split
    · exact Keeps.pure _
    · exact Keeps.pure _

theorem fatFindFile_keeps (fuel : Nat) (d : Driver) (file : Option FilePtr) (name : List UInt8) :
    Proc.Keeps F (fatFindFile M env fuel d file name) :=
  Keeps.iterate (findPass_keeps hM file (fatName name)) _ _

theorem fatOpenEntry_keeps (d : Driver) (entry : DirectoryEntry) :
    Proc.Keeps F (fatOpenEntry M d entry) := by
  unfold fatOpenEntry
  split
  · exact Keeps.pure _
  · refine Keeps.bind (diskReadSectors_keeps hM _ _ _) fun r => ?_
    dsimp only
    split
    · exact Keeps.pure _
    · exact Keeps.pure _

omit hM in
theorem fatClose_keeps (d : Driver) (file : Option FilePtr) :
    Proc.Keeps F (fatClose d file : Proc σ Stop Driver) := by
  unfold fatClose
  split
  · exact Keeps.halt _
  · split
    · exact Keeps.halt _
    · exact Keeps.pure _
    · exact Keeps.pure _

theorem openLoop_keeps (fuel n : Nat) (name : Block 256) (d : Driver) (current : Option FilePtr)
    (path : List UInt8) : Proc.Keeps F (openLoop M env fuel n name d current path) := by
  induction n generalizing name d current path with
  | zero =>
    rw [openLoop]
    split
    · exact Keeps.pure _
    · exact Keeps.halt _
  | succ n ih =>
    rw [openLoop]
    split
    · exact Keeps.pure _
    · dsimp only
      split
      · exact Keeps.halt _
      · refine Keeps.bind (fatFindFile_keeps hM _ _ _ _) fun r => ?_
        refine Keeps.bind (fatClose_keeps _ _) fun d => ?_
        split
        · exact Keeps.pure _
        · split
          · exact Keeps.pure _
          · exact Keeps.bind (fatOpenEntry_keeps hM _ _) fun r => ih _ _ _ _

theorem fatOpen_keeps (fuel : Nat) (d : Driver) (path : List UInt8) :
    Proc.Keeps F (fatOpen M env fuel d path) := openLoop_keeps hM _ _ _ _ _ _

end Keeps

/-! ## A disk whose answers do not change -/

/-- What a disk read returns depends on what is asked for only. -/
def Machine.Stateless (M : Machine σ) : Prop :=
  ∀ lba n buf s s', (M.readSectors lba n buf s).1 = (M.readSectors lba n buf s').1

theorem readNext_oblivious (hM : M.Stateless) (v : Volume) (st : ReadState) :
    Oblivious (readNext M v env st) := by
  unfold readNext
  split
  · exact Oblivious.bind (Oblivious.act (hM _ _ _)) fun _ => Oblivious.pure _
  · dsimp only
    split
    · exact Oblivious.pure _
    · refine Oblivious.bind (Oblivious.act (hM _ _ _)) fun r => ?_
      split
      · exact Oblivious.pure _
      · split
        · exact Oblivious.halt _
        · exact Oblivious.pure _

theorem readPass_oblivious (hM : M.Stateless) (v : Volume) (st : ReadState) :
    Oblivious (readPass M v env st) := by
  unfold readPass
  split
  · split
    · exact Oblivious.halt _
    · split
      · exact readNext_oblivious hM v _
      · exact Oblivious.pure _
  · exact Oblivious.pure _

theorem readFile_oblivious (hM : M.Stateless) (v : Volume) (fd : FatFileData) (n : UInt32) :
    Oblivious (readFile M v env fd n) := Oblivious.iterate (readPass_oblivious hM v) _ _

/-! ## The step to the next sector

Three ways it goes on any file but the root directory: the chain ends, the
sector cannot be read, or it is read and the bar is drawn. -/

theorem nextSector_pub (v : Volume) (env : Env) (fd : FatFileData) :
    (nextSector v env fd).pub = fd.pub := by
  simp only [nextSector]
  split
  · rfl
  · rfl

theorem nextSector_buffer (v : Volume) (env : Env) (fd : FatFileData) :
    (nextSector v env fd).buffer = fd.buffer := by
  simp only [nextSector]
  split
  · rfl
  · rfl

/-- The walk to the next sector does not look at the public part. -/
theorem nextSector_setPub (v : Volume) (env : Env) (fd : FatFileData) (pub : FatFile) :
    nextSector v env { fd with pub } = { nextSector v env fd with pub } := by
  simp only [nextSector]
  split
  · rfl
  · rfl

/-- What the disk answers when the next sector is asked for. -/
def nextRead (M : Machine σ) (v : Volume) (env : Env) (fd : FatFileData) (s : σ) :
    (UInt16 × Sectors 1) × σ :=
  let next := nextSector v env fd
  M.readSectors (fatClusterToLba v next.currentCluster + next.currentSectorInCluster) 1 fd.buffer s

theorem nextRead_setPub (v : Volume) (fd : FatFileData) (pub : FatFile) (s : σ) :
    nextRead M v env { fd with pub } s = nextRead M v env fd s := by
  simp only [nextRead, nextSector_setPub]

/-- The state of the loop with an answer of the disk in the buffer. -/
def ReadState.answered (st : ReadState) (v : Volume) (env : Env) (buffer : Sectors 1) :
    ReadState :=
  { st with
    fd := { nextSector v env st.fd with buffer }
    maxSector := if st.maxSector = 0 then st.byteCount / 512 else st.maxSector }

section Step

variable {v : Volume} {st : ReadState} {s : σ}

theorem answered_maxSector {buffer : Sectors 1} (h : st.maxSector = 0) :
    (st.answered v env buffer).maxSector = st.byteCount / 512 := if_pos h

/-- The root directory's sectors lie behind each other. -/
theorem readNext_root (h : st.fd.pub.handle = rootDirectoryHandle) :
    ∃ buffer more t, readNext M v env st s = .ok (({ st with
      fd := { st.fd with currentCluster := st.fd.currentCluster + 1, buffer } }, more), t) := by
  rw [readNext, if_pos h]
  exact ⟨_, _, _, rfl⟩

theorem readNext_end (h : st.fd.pub.handle ≠ rootDirectoryHandle)
    (hend : (nextSector v env st.fd).currentCluster ≥ 0xFF8) :
    readNext M v env st s = .ok (({ st with
      fd := { nextSector v env st.fd with pub.size := st.fd.pub.position } }, false), s) := by
  have hposition : (nextSector v env st.fd).pub.position = st.fd.pub.position := by
    rw [nextSector_pub]
  rw [readNext, if_neg h, if_pos hend, hposition]
  rfl

theorem readNext_answered (h : st.fd.pub.handle ≠ rootDirectoryHandle)
    (hin : (nextSector v env st.fd).currentCluster < 0xFF8) {status : UInt16} {buffer : Sectors 1}
    {t : σ} (hread : nextRead M v env st.fd s = ((status, buffer), t)) :
    readNext M v env st s =
      if status ≠ 0 then .ok ((st.answered v env buffer, false), t)
      else match M.loadingBar (st.answered v env buffer).maxSector st.byteCount with
        | none => .error (.divideError, t)
        | some _ => .ok ((st.answered v env buffer, true), t) := by
  have hdisk : M.diskReadSectors (fatClusterToLba v (nextSector v env st.fd).currentCluster
      + (nextSector v env st.fd).currentSectorInCluster) 1 (nextSector v env st.fd).buffer s
      = .ok ((status, buffer), t) := by
    rw [nextSector_buffer]
    exact congrArg Except.ok hread
  rw [readNext, if_neg h, if_neg (UInt32.not_le.mpr hin), bind_ok hdisk]
  dsimp only [ReadState.answered]
  split
  · rfl
  · generalize M.loadingBar _ _ = bar
    cases bar with
    | none => rfl
    | some column => rfl

/-- **What a step that returns has done.** -/
theorem readNext_cases {st' : ReadState} {more : Bool} {t : σ}
    (h : readNext M v env st s = .ok ((st', more), t)) :
    (∃ buffer, st' = { st with
        fd := { st.fd with currentCluster := st.fd.currentCluster + 1, buffer } }) ∨
    (more = false ∧ st' = { st with
        fd := { nextSector v env st.fd with pub.size := st.fd.pub.position } }) ∨
    ∃ buffer, st' = st.answered v env buffer := by
  by_cases hroot : st.fd.pub.handle = rootDirectoryHandle
  · obtain ⟨buffer, more, t, hrun⟩ := @readNext_root σ M env v st s hroot
    rw [hrun] at h
    cases h
    exact .inl ⟨buffer, rfl⟩
  · rcases UInt32.lt_or_le (nextSector v env st.fd).currentCluster 0xFF8 with hin | hend
    · rw [readNext_answered hroot hin rfl] at h
      split at h
      · cases h
        exact .inr (.inr ⟨_, rfl⟩)
      · generalize M.loadingBar _ _ = bar at h
        cases bar with
        | none => cases h
        | some column =>
          cases h
          exact .inr (.inr ⟨_, rfl⟩)
    · rw [readNext_end hroot hend] at h
      cases h
      exact .inr (.inl ⟨rfl, rfl⟩)

end Step

/-! ## What a returning call leaves alone -/

/-- The fields of a file that reading it does not touch. -/
structure SameFile (fd fd' : FatFileData) : Prop where
  handle : fd'.pub.handle = fd.pub.handle
  isDirectory : fd'.pub.isDirectory = fd.pub.isDirectory
  opened : fd'.opened = fd.opened
  firstCluster : fd'.firstCluster = fd.firstCluster

theorem SameFile.refl (fd : FatFileData) : SameFile fd fd := ⟨rfl, rfl, rfl, rfl⟩

theorem SameFile.trans {a b c : FatFileData} (hab : SameFile a b) (hbc : SameFile b c) :
    SameFile a c :=
  ⟨hbc.handle.trans hab.handle, hbc.isDirectory.trans hab.isDirectory,
    hbc.opened.trans hab.opened, hbc.firstCluster.trans hab.firstCluster⟩

theorem readTake_same {st st' : ReadState} {emptied : Bool}
    (h : readTake st = some (st', emptied)) : SameFile st.fd st'.fd := by
  simp only [readTake] at h
  split at h
  · cases h
    exact ⟨rfl, rfl, rfl, rfl⟩
  · cases h

theorem nextSector_same (v : Volume) (env : Env) (fd : FatFileData) :
    SameFile fd (nextSector v env fd) := by
  simp only [nextSector]
  split
  · exact ⟨rfl, rfl, rfl, rfl⟩
  · exact ⟨rfl, rfl, rfl, rfl⟩

theorem readNext_same {v : Volume} {st st' : ReadState} {more : Bool} {s t : σ}
    (h : readNext M v env st s = .ok ((st', more), t)) : SameFile st.fd st'.fd := by
  have hnext := nextSector_same v env st.fd
  rcases readNext_cases h with ⟨buffer, rfl⟩ | ⟨-, rfl⟩ | ⟨buffer, rfl⟩
  · exact ⟨rfl, rfl, rfl, rfl⟩
  · exact ⟨hnext.handle, hnext.isDirectory, hnext.opened, hnext.firstCluster⟩
  · exact ⟨hnext.handle, hnext.isDirectory, hnext.opened, hnext.firstCluster⟩

theorem readPass_same {v : Volume} {st st' : ReadState} {more : Bool} {s t : σ}
    (h : readPass M v env st s = .ok ((st', more), t)) : SameFile st.fd st'.fd := by
  unfold readPass at h
  split at h
  · cases htake : readTake st with
    | none =>
      rw [htake] at h
      cases h
    | some r =>
      obtain ⟨st₁, emptied⟩ := r
      rw [htake] at h
      cases emptied with
      | true => exact (readTake_same htake).trans (readNext_same h)
      | false =>
        cases h
        exact readTake_same htake
  · cases h
    exact .refl _

theorem readFile_same {v : Volume} {fd : FatFileData} {n : UInt32} {st : ReadState} {s t : σ}
    (h : readFile M v env fd n s = .ok (st, t)) : SameFile fd st.fd :=
  iterate_chain (R := fun a b : ReadState => SameFile a.fd b.fd)
    (fun _ _ _ => SameFile.trans) (fun _ _ _ _ _ => readPass_same) h

/-- A read of a file that carries its own number works on that file. -/
theorem fatRead_eq {d : Driver} {p : FilePtr} (hp : d.Numbered p) (n : UInt32) :
    fatRead M env d (some p) n = readFile M d.vol env (d.file p) n >>= fun st =>
      pure (d.setFile p st.fd, st.out) := by
  rw [Driver.Numbered] at hp
  simp only [fatRead, hp]

theorem fatRead_ok {d d' : Driver} {p : FilePtr} {n : UInt32} {out : List UInt8} {s t : σ}
    (hp : d.Numbered p) (h : fatRead M env d (some p) n s = .ok ((d', out), t)) :
    ∃ st, readFile M d.vol env (d.file p) n s = .ok (st, t) ∧
      d' = d.setFile p st.fd ∧ out = st.out := by
  rw [fatRead_eq hp] at h
  obtain ⟨st, s', hst, h⟩ := of_bind_ok h
  cases h
  exact ⟨st, hst, rfl, rfl⟩

/-- What working on the file `p` may do to the driver: only that file's data
change, and of these not what makes it the file it is. -/
def Touches (p : FilePtr) (d d' : Driver) : Prop :=
  d.Numbered p → ∃ fd, SameFile (d.file p) fd ∧ d' = d.setFile p fd

/-- Working on one file leaves every file its number. -/
theorem Driver.Numbered.setFile {d : Driver} {p q : FilePtr} {fd : FatFileData}
    (h : d.Numbered q) (hfd : fd.pub.handle = (d.file p).pub.handle) :
    (d.setFile p fd).Numbered q := by
  rw [Driver.Numbered] at h ⊢
  by_cases hqp : q = p
  · subst hqp
    rw [Driver.file_setFile_self, hfd]
    exact h
  · rw [Driver.file_setFile_ne _ _ hqp]
    exact h

theorem Touches.trans {p : FilePtr} {a b c : Driver} (hab : Touches p a b) (hbc : Touches p b c) :
    Touches p a c := by
  intro ha
  obtain ⟨fd, hfd, rfl⟩ := hab ha
  obtain ⟨fd', hfd', rfl⟩ := hbc (ha.setFile hfd.handle)
  rw [Driver.file_setFile_self] at hfd'
  exact ⟨fd', hfd.trans hfd', by simp⟩

theorem fatRead_touches {d d' : Driver} {p : FilePtr} {n : UInt32} {out : List UInt8} {s t : σ}
    (h : fatRead M env d (some p) n s = .ok ((d', out), t)) : Touches p d d' := by
  intro hp
  obtain ⟨st, hst, rfl, -⟩ := fatRead_ok hp h
  exact ⟨st.fd, readFile_same hst, rfl⟩

theorem findPass_touches {p : FilePtr} {key : List UInt8} {r r' : Driver × Option DirectoryEntry}
    {more : Bool} {s t : σ} (h : findPass M env (some p) key r s = .ok ((r', more), t)) :
    Touches p r.1 r'.1 := by
  obtain ⟨⟨d, entry⟩, s', hread, h⟩ := of_bind_ok h
  obtain ⟨⟨d', out⟩, s'', hread, hentry⟩ := of_bind_ok hread
  cases hentry
  have htouch := fatRead_touches hread
  by_cases hout : out.length = 32
  · simp only [dif_pos hout] at h
    split at h
    · cases h
      exact htouch
    · cases h
      exact htouch
  · simp only [dif_neg hout] at h
    cases h
    exact htouch

theorem fatFindFile_touches {fuel : Nat} {d d' : Driver} {p : FilePtr} {name : List UInt8}
    {entry : Option DirectoryEntry} {s t : σ}
    (h : fatFindFile M env fuel d (some p) name s = .ok ((d', entry), t)) : Touches p d d' :=
  iterate_chain (R := fun a b : Driver × Option DirectoryEntry => Touches p a.1 b.1)
    (fun _ _ _ => Touches.trans) (fun _ _ _ _ _ => findPass_touches) h

theorem fatFindFile_none {fuel : Nat} {d : Driver} {name : List UInt8} {s : σ}
    {r : (Driver × Option DirectoryEntry) × σ} :
    fatFindFile M env fuel d none name s ≠ .ok r := by
  intro h
  cases fuel with
  | zero => cases h
  | succ n => cases h

/-- **What a search that returned has done**: it read an entry, or found none
to read, and stopped there or went on behind it. -/
theorem fatFindFile_ok {fuel : Nat} {d d' : Driver} {file : Option FilePtr} {name : List UInt8}
    {found : Option DirectoryEntry} {s t : σ}
    (h : fatFindFile M env (fuel + 1) d file name s = .ok ((d', found), t)) :
    (found = none ∧ fatReadEntry M env d file s = .ok ((d', none), t)) ∨
    ∃ e d₁ s₁, fatReadEntry M env d file s = .ok ((d₁, some e), s₁) ∧
      ((fatName name = e.name ∧ found = some e ∧ d' = d₁ ∧ t = s₁) ∨
        (fatName name ≠ e.name ∧
          fatFindFile M env fuel d₁ file name s₁ = .ok ((d', found), t))) := by
  rw [fatFindFile, iterate_succ] at h
  obtain ⟨⟨⟨d₁, out⟩, more⟩, s₁, hpass, hrest⟩ := of_bind_ok h
  obtain ⟨⟨d₂, entry⟩, s₂, hread, hentry⟩ := of_bind_ok hpass
  cases entry with
  | none =>
    cases hentry
    cases hrest
    exact .inl ⟨rfl, hread⟩
  | some e =>
    refine .inr ⟨e, d₂, s₂, hread, ?_⟩
    dsimp only at hentry
    split at hentry
    · rename_i hkey
      cases hentry
      cases hrest
      exact .inl ⟨hkey, rfl, rfl, rfl⟩
    · rename_i hkey
      cases hentry
      exact .inr ⟨hkey, hrest⟩

theorem freeHandle_some {d : Driver} {i : Fin maxFileHandles} (h : freeHandle d = some i) :
    (d.openedFiles i).opened = false := by
  have := List.find?_some h
  simpa using this

theorem freeHandle_exists {d : Driver} (h : ∃ i, (d.openedFiles i).opened = false) :
    ∃ j, freeHandle d = some j := by
  obtain ⟨i, hi⟩ := h
  rw [← Option.isSome_iff_exists, freeHandle, List.find?_isSome]
  exact ⟨i, List.mem_finRange i, by simp [hi]⟩

/-- `FAT_OpenEntry` either finds no slot and does nothing, or fills a slot
that was free. -/
theorem fatOpenEntry_ok {d d' : Driver} {entry : DirectoryEntry} {r : Option FilePtr} {s t : σ}
    (h : fatOpenEntry M d entry s = .ok ((d', r), t)) :
    (d' = d ∧ r = none) ∨
    ∃ i fd, (d.openedFiles i).opened = false ∧ d' = d.setFile (.slot i) fd ∧
      fd.pub.handle = i.val ∧
      ((r = none ∧ fd.opened = false) ∨ (r = some (.slot i) ∧ fd.opened = true)) := by
  unfold fatOpenEntry at h
  cases hi : freeHandle d with
  | none =>
    rw [hi] at h
    cases h
    exact .inl ⟨rfl, rfl⟩
  | some i =>
    rw [hi] at h
    have hfree := freeHandle_some hi
    refine .inr ⟨i, ?_⟩
    obtain ⟨⟨status, buffer⟩, s', -, h⟩ := of_bind_ok h
    dsimp only at h
    split at h
    · cases h
      exact ⟨_, hfree, rfl, rfl, .inl ⟨rfl, hfree⟩⟩
    · cases h
      exact ⟨_, hfree, rfl, rfl, .inr ⟨rfl, rfl⟩⟩

/-- `FAT_OpenEntry` has nothing to do with the root directory. -/
theorem fatOpenEntry_rootDirectory {d d' : Driver} {entry : DirectoryEntry} {r : Option FilePtr}
    {s t : σ} (h : fatOpenEntry M d entry s = .ok ((d', r), t)) :
    d'.rootDirectory = d.rootDirectory ∧ r ≠ some .root := by
  rcases fatOpenEntry_ok h with ⟨rfl, rfl⟩ | ⟨j, fd, -, rfl, -, ⟨rfl, -⟩ | ⟨rfl, -⟩⟩
  · exact ⟨rfl, by simp⟩
  · exact ⟨rfl, by simp⟩
  · exact ⟨rfl, by simp⟩

theorem fatClose_eq_root {d : Driver} (h : d.Numbered .root) :
    (fatClose d (some .root) : Proc σ Stop Driver) = pure { d with rootDirectory :=
      { d.rootDirectory with
        pub.position := 0, currentCluster := d.rootDirectory.firstCluster } } := by
  rw [Driver.Numbered] at h
  simp only [fatClose, h]
  rfl

theorem fatClose_eq_slot {d : Driver} {i : Fin maxFileHandles} (h : d.Numbered (.slot i)) :
    (fatClose d (some (.slot i)) : Proc σ Stop Driver)
      = pure (d.setFile (.slot i) { d.openedFiles i with opened := false }) := by
  rw [Driver.Numbered] at h
  simp only [fatClose, h]

/-! ## `FAT_Open` balances its handles -/

/-- `d'` is `d` in the middle of, or after, a `FAT_Open` that is at `current`:
the files open in `d` are untouched, and nothing else is open but `current`. -/
structure Opening (d d' : Driver) (current : Option FilePtr) : Prop where
  vol : d'.vol = d.vol
  root : d'.Numbered .root
  kept : ∀ i, (d.openedFiles i).opened → d'.openedFiles i = d.openedFiles i
  handles : ∀ i, d'.Numbered (.slot i) ∨
    (d'.openedFiles i).pub.handle = (d.openedFiles i).pub.handle
  opened : ∀ i, (d'.openedFiles i).opened ↔
    (d.openedFiles i).opened ∨ current = some (.slot i)
  fresh : ∀ i, current = some (.slot i) → ¬ (d.openedFiles i).opened ∧ d'.Numbered (.slot i)

namespace Opening

variable {d d' d'' : Driver} {current : Option FilePtr}

theorem start (h : d.Numbered .root) : Opening d d (some .root) where
  vol := rfl
  root := h
  kept _ _ := rfl
  handles _ := .inr rfl
  opened i := by simp
  fresh i hi := by simp at hi

/-- The file being searched is the root directory or a slot of its own. -/
theorem numbered {p : FilePtr} (h : Opening d d' (some p)) : d'.Numbered p := by
  cases p with
  | root => exact h.root
  | slot i => exact (h.fresh i rfl).2

/-- A slot that was free at the start gets new contents; afterwards it is the
current file, or there is none. -/
theorem setSlot {fd : FatFileData} {j : Fin maxFileHandles} {r : Option FilePtr}
    (h : Opening d d' current) (hclosed : ¬ (d.openedFiles j).opened)
    (hnum : (d'.setFile (.slot j) fd).Numbered (.slot j))
    (hcurrent : ∀ i, current = some (.slot i) → i = j) (hr : ∀ i, r = some (.slot i) → i = j)
    (hopened : fd.opened ↔ r = some (.slot j)) : Opening d (d'.setFile (.slot j) fd) r where
  vol := h.vol
  root := h.root
  kept i hi := by
    have hij : i ≠ j := fun e => hclosed (e ▸ hi)
    rw [Driver.openedFiles_setFile_ne _ _ hij, h.kept i hi]
  handles i := by
    by_cases hij : i = j
    · exact .inl (hij ▸ hnum)
    · rw [Driver.Numbered, Driver.file, Driver.openedFiles_setFile_ne _ _ hij]
      exact h.handles i
  opened i := by
    by_cases hij : i = j
    · subst hij
      rw [Driver.openedFiles_setFile_self, hopened]
      exact ⟨.inr, fun ho => ho.resolve_left hclosed⟩
    · rw [Driver.openedFiles_setFile_ne _ _ hij, h.opened i]
      have hwas : current ≠ some (.slot i) := fun e => hij (hcurrent i e)
      have his : r ≠ some (.slot i) := fun e => hij (hr i e)
      simp [hwas, his]
  fresh i hi := by
    obtain rfl := hr i hi
    exact ⟨hclosed, hnum⟩

theorem touches {p : FilePtr} (h : Opening d d' (some p)) (ht : Touches p d' d'') :
    Opening d d'' (some p) := by
  obtain ⟨fd, hfd, rfl⟩ := ht h.numbered
  cases p with
  | root => exact ⟨h.vol, h.root.setFile hfd.handle, h.kept, h.handles, h.opened, h.fresh⟩
  | slot j =>
    refine h.setSlot (h.fresh j rfl).1 (h.numbered.setFile hfd.handle) ?_ ?_ ?_
    · rintro i ⟨⟩
      rfl
    · rintro i ⟨⟩
      rfl
    · have hopen : (d'.openedFiles j).opened := (h.opened j).mpr (.inr rfl)
      rw [hfd.opened]
      exact ⟨fun _ => rfl, fun _ => hopen⟩

/-- Closing the file that was searched leaves the slots as they were. -/
theorem close {s t : σ} (h : Opening d d' current)
    (hclose : fatClose d' current s = .ok (d'', t)) : Opening d d'' none := by
  rcases current with - | - | j
  · cases hclose
  · rw [fatClose_eq_root h.root] at hclose
    cases hclose
    exact ⟨h.vol, h.root, h.kept, h.handles, fun i => by simpa using h.opened i, by simp⟩
  · have hnum := h.numbered
    rw [fatClose_eq_slot hnum] at hclose
    cases hclose
    refine h.setSlot (h.fresh j rfl).1 (hnum.setFile rfl) ?_ ?_ ?_
    · rintro i ⟨⟩
      rfl
    · rintro i ⟨⟩
    · simp

/-- Opening an entry takes a slot that was free at the start, or none. -/
theorem openEntry {entry : DirectoryEntry} {r : Option FilePtr} {s t : σ}
    (h : Opening d d' none) (hopen : fatOpenEntry M d' entry s = .ok ((d'', r), t)) :
    Opening d d'' r := by
  rcases fatOpenEntry_ok hopen with ⟨rfl, rfl⟩ | ⟨j, fd, hfree, rfl, hhandle, hr⟩
  · exact h
  -- what was open at the start is open still, and `j` is not
  have hclosed : ¬ (d.openedFiles j).opened := by
    intro ho
    have := (h.opened j).mpr (.inl ho)
    simp [hfree] at this
  have hnum : (d'.setFile (.slot j) fd).Numbered (.slot j) := by
    rw [Driver.Numbered, Driver.file_setFile_self, hhandle, handleFile_slot]
  refine h.setSlot hclosed hnum ?_ ?_ ?_
  · rintro i ⟨⟩
  · rintro i rfl
    rcases hr with ⟨hnone, -⟩ | ⟨hsome, -⟩
    · cases hnone
    · cases hsome
      rfl
  · rcases hr with ⟨rfl, ho⟩ | ⟨rfl, ho⟩
    · simp [ho]
    · simp [ho]

end Opening

/-- **What a loop of `FAT_Open` that returned has done**: nothing at the end of
the path; else it looked up a name and closed what it had searched, and gave up
or opened what it had found and went on. -/
theorem openLoop_ok {fuel n : Nat} {name : Block 256} {d d' : Driver} {current r : Option FilePtr}
    {path : List UInt8} {s t : σ}
    (hrun : openLoop M env fuel n name d current path s = .ok ((d', r), t)) :
    (path = [] ∧ d' = d ∧ r = current) ∨
    ∃ m name' d₁ entry s₁ d₂ s₂, n = m + 1 ∧ path ≠ [] ∧
      copyName name path ((Libc.strchr path 0x2F).getD path.length) = some name' ∧
      fatFindFile M env fuel d current (cstring name') s = .ok ((d₁, entry), s₁) ∧
      fatClose d₁ current s₁ = .ok (d₂, s₂) ∧
      ((d' = d₂ ∧ r = none) ∨
        ∃ e d₃ current' path' s₃, entry = some e ∧
          fatOpenEntry M d₂ e s₂ = .ok ((d₃, current'), s₃) ∧
          openLoop M env fuel m name' d₃ current' path' s₃ = .ok ((d', r), t)) := by
  by_cases hpath : path = []
  · cases n with
    | zero =>
      rw [openLoop, if_pos hpath] at hrun
      cases hrun
      exact .inl ⟨hpath, rfl, rfl⟩
    | succ m =>
      rw [openLoop, if_pos hpath] at hrun
      cases hrun
      exact .inl ⟨hpath, rfl, rfl⟩
  cases n with
  | zero =>
    rw [openLoop, if_neg hpath] at hrun
    cases hrun
  | succ m =>
    rw [openLoop, if_neg hpath] at hrun
    dsimp only at hrun
    cases hname : copyName name path ((Libc.strchr path 0x2F).getD path.length) with
    | none =>
      rw [hname] at hrun
      cases hrun
    | some name' =>
      rw [hname] at hrun
      obtain ⟨⟨d₁, entry⟩, s₁, hfind, hrun⟩ := of_bind_ok hrun
      obtain ⟨d₂, s₂, hclose, hrun⟩ := of_bind_ok hrun
      refine .inr ⟨m, name', d₁, entry, s₁, d₂, s₂, rfl, hpath, rfl, hfind, hclose, ?_⟩
      cases entry with
      | none =>
        cases hrun
        exact .inl ⟨rfl, rfl⟩
      | some e =>
        dsimp only at hrun
        split at hrun
        · -- more of the path follows a file that is no directory
          cases hrun
          exact .inl ⟨rfl, rfl⟩
        · obtain ⟨⟨d₃, current'⟩, s₃, hopen, hrun⟩ := of_bind_ok hrun
          exact .inr ⟨e, d₃, current', _, s₃, rfl, hopen, hrun⟩

/-- **`FAT_Open`'s loop** keeps the balance, over any number of components
and through each of its exits. -/
theorem openLoop_opening {fuel n : Nat} {name : Block 256} {d d' d'' : Driver}
    {current r : Option FilePtr} {path : List UInt8} {s t : σ} (h : Opening d d' current)
    (hrun : openLoop M env fuel n name d' current path s = .ok ((d'', r), t)) :
    Opening d d'' r := by
  induction n generalizing name d' current path s with
  | zero =>
    rcases openLoop_ok hrun with ⟨-, rfl, rfl⟩ | ⟨m, _, _, _, _, _, _, hm, -⟩
    · exact h
    · cases hm
  | succ n ih =>
    rcases openLoop_ok hrun with ⟨-, rfl, rfl⟩ | ⟨m, name', d₁, entry, s₁, d₂, s₂, hm, -, -, hfind,
      hclose, hend⟩
    · exact h
    · cases hm
      cases current with
      | none => exact (fatFindFile_none hfind).elim
      | some p =>
        have h₂ := (h.touches (fatFindFile_touches hfind)).close hclose
        rcases hend with ⟨rfl, rfl⟩ | ⟨e, d₃, current', path', s₃, -, hopen, hrun⟩
        · exact h₂
        · exact ih (h₂.openEntry hopen) hrun

/-- Away from the root directory, `FAT_Open` does not touch it. -/
theorem openLoop_rootDirectory {fuel n : Nat} {name : Block 256} {d d' d'' : Driver}
    {current r : Option FilePtr} {path : List UInt8} {s t : σ} (h : Opening d d' current)
    (hcurrent : current ≠ some .root)
    (hrun : openLoop M env fuel n name d' current path s = .ok ((d'', r), t)) :
    d''.rootDirectory = d'.rootDirectory := by
  induction n generalizing name d' current path s with
  | zero =>
    rcases openLoop_ok hrun with ⟨-, rfl, -⟩ | ⟨m, _, _, _, _, _, _, hm, -⟩
    · rfl
    · cases hm
  | succ n ih =>
    rcases openLoop_ok hrun with ⟨-, rfl, -⟩ | ⟨m, name', d₁, entry, s₁, d₂, s₂, hm, -, -, hfind,
      hclose, hend⟩
    · rfl
    · cases hm
      rcases current with - | - | i
      · exact (fatFindFile_none hfind).elim
      · exact (hcurrent rfl).elim
      · have htouch := fatFindFile_touches hfind
        have h₁ := h.touches htouch
        have h₂ := h₁.close hclose
        -- a lookup in a slot and its close change that slot
        have hroot : d₂.rootDirectory = d'.rootDirectory := by
          obtain ⟨fd, -, rfl⟩ := htouch h.numbered
          rw [fatClose_eq_slot h₁.numbered] at hclose
          cases hclose
          rfl
        rcases hend with ⟨rfl, -⟩ | ⟨e, d₃, current', path', s₃, -, hopen, hrun⟩
        · exact hroot
        · have hroot₃ := fatOpenEntry_rootDirectory hopen
          rw [ih (h₂.openEntry hopen) hroot₃.2 hrun, hroot₃.1, hroot]

/-- **`FAT_Open`**: whatever the path and whatever fails, the slots open
afterwards are those open before, untouched, and the one returned. -/
theorem fatOpen_opening {fuel : Nat} {d d' : Driver} {path : List UInt8} {r : Option FilePtr}
    {s t : σ} (hroot : d.Numbered .root)
    (h : fatOpen M env fuel d path s = .ok ((d', r), t)) : Opening d d' r :=
  openLoop_opening (.start hroot) h

end Netclover.Stage2
