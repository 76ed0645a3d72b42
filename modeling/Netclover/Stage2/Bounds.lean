import Netclover.Stage2.Mount

/-!
# The bounds of `FAT_Read`

`FAT_Read` clamps what it is asked for with `min`, which compares as `int`.
Below `2 ^ 31` every copy stays in the sector buffer and in the destination
(`Bounded` is the invariant of the loop); from there on the first copy of the
call leaves the buffer. `fatRead_inBounds_iff` says which calls are which, for
any file that `FAT_OpenEntry` opened and any reads before.
-/

namespace Netclover.Stage2

open Proc Libc

variable {σ : Type} {M : Machine σ} {env : Env}

/-! ## The copy out of the buffer -/

/-- What one copy takes: what is asked for, or what is left in the buffer. -/
theorem readTake_eq (st : ReadState) (hb : st.byteCount.toNat < 2 ^ 31) :
    ∃ st' emptied t, readTake st = some (st', emptied) ∧
      t = min st.byteCount.toNat (512 - st.fd.pub.position.toNat % 512) ∧
      st'.byteCount.toNat = st.byteCount.toNat - t ∧
      st'.out = st.out ++ (st.fd.buffer.bytes.drop (st.fd.pub.position.toNat % 512)).take t ∧
      st'.fd = { st.fd with pub.position := st'.fd.pub.position } ∧
      st'.fd.pub.position.toNat = (st.fd.pub.position.toNat + t) % 2 ^ 32 ∧
      (emptied = true ↔ t = 512 - st.fd.pub.position.toNat % 512) := by
  have hoff : (st.fd.pub.position % 512).toNat = st.fd.pub.position.toNat % 512 := by
    rw [UInt32.toNat_mod]
    rfl
  have hleft : (512 - st.fd.pub.position % 512).toNat
      = 512 - st.fd.pub.position.toNat % 512 := by
    rw [UInt32.toNat_sub_of_le _ _ ?_, hoff]
    · rfl
    · rw [UInt32.le_iff_toNat_le, hoff]
      show _ ≤ 512
      omega
  have htake : (minInt st.byteCount (512 - st.fd.pub.position % 512)).toNat
      = min st.byteCount.toNat (512 - st.fd.pub.position.toNat % 512) := by
    rw [toNat_minInt hb (by omega), hleft]
  have hin : (st.fd.pub.position % 512).toNat
      + (minInt st.byteCount (512 - st.fd.pub.position % 512)).toNat ≤ 512 := by
    rw [hoff, htake]
    omega
  simp only [readTake, if_pos hin]
  refine ⟨_, _, _, rfl, rfl, ?_, ?_, ?_, ?_, ?_⟩
  · dsimp only
    rw [UInt32.toNat_sub_of_le _ _ (by rw [UInt32.le_iff_toNat_le, htake]; omega), htake]
  · dsimp only
    rw [hoff, htake]
  · rfl
  · dsimp only
    rw [UInt32.toNat_add, htake]
  · rw [beq_iff_eq, ← UInt32.toNat_inj, hleft, htake]
    omega

/-- A count that is negative as an `int` is taken as it is. -/
theorem readTake_none {st : ReadState} (hb : 2 ^ 31 ≤ st.byteCount.toNat) : readTake st = none := by
  have htake : 2 ^ 31 ≤ (minInt st.byteCount (512 - st.fd.pub.position % 512)).toNat :=
    le_toNat_minInt (.inl hb)
  rw [readTake, if_neg]
  omega

/-! ## What a pass that returned did -/

/-- What the step to the next sector leaves of the read. -/
structure Stepped (st st' : ReadState) (more : Bool) : Prop where
  out : st'.out = st.out
  byteCount : st'.byteCount = st.byteCount
  position : st'.fd.pub.position = st.fd.pub.position
  isDirectory : st'.fd.pub.isDirectory = st.fd.pub.isDirectory
  size : st'.fd.pub.size = st.fd.pub.size ∨
    more = false ∧ st'.fd.pub.size = st'.fd.pub.position

theorem readNext_ok {v : Volume} {st st' : ReadState} {more : Bool} {s t : σ}
    (h : readNext M v env st s = .ok ((st', more), t)) : Stepped st st' more := by
  have hsame := (readNext_same h).isDirectory
  have hpub := nextSector_pub v env st.fd
  have hposition := congrArg FatFile.position hpub
  have hsize := congrArg FatFile.size hpub
  rcases readNext_cases h with ⟨buffer, rfl⟩ | ⟨rfl, rfl⟩ | ⟨buffer, rfl⟩
  · exact ⟨rfl, rfl, rfl, rfl, .inl rfl⟩
  · exact ⟨rfl, rfl, hposition, hsame, .inr ⟨rfl, hposition.symm⟩⟩
  · exact ⟨rfl, rfl, hposition, hsame, .inl hsize⟩

/-- A pass either finds nothing left to read, or copies, and steps to the next
sector if that emptied the buffer. -/
theorem readPass_ok {v : Volume} {st st' : ReadState} {more : Bool} {s t : σ}
    (h : readPass M v env st s = .ok ((st', more), t)) :
    (st.byteCount = 0 ∧ st' = st ∧ more = false) ∨
    ∃ st₁ emptied, 0 < st.byteCount.toNat ∧ readTake st = some (st₁, emptied) ∧
      (emptied = false ∧ st' = st₁ ∧ more = true ∨
        emptied = true ∧ readNext M v env st₁ s = .ok ((st', more), t)) := by
  unfold readPass at h
  split at h
  · rename_i hpos
    cases htake : readTake st with
    | none =>
      rw [htake] at h
      cases h
    | some r =>
      obtain ⟨st₁, emptied⟩ := r
      rw [htake] at h
      refine .inr ⟨st₁, emptied, hpos, rfl, ?_⟩
      cases emptied with
      | true => exact .inr ⟨rfl, h⟩
      | false =>
        cases h
        exact .inl ⟨rfl, rfl, rfl⟩
  · rename_i hpos
    cases h
    refine .inl ⟨?_, rfl, rfl⟩
    rw [← UInt32.toNat_inj]
    have : ¬ 0 < st.byteCount.toNat := hpos
    show st.byteCount.toNat = 0
    omega

/-! ## The clamp -/

/-- A directory whose size is not known: reads of it are not clamped. -/
def Endless (fd : FatFileData) : Prop := fd.pub.isDirectory = true ∧ fd.pub.size = 0

/-- What is left of the file is no negative `int`, if it is known at all. -/
def Measured (fd : FatFileData) : Prop :=
  Endless fd ∨ (fd.pub.size - fd.pub.position).toNat < 2 ^ 31

theorem readClamp_of_endless {fd : FatFileData} (h : Endless fd) (n : UInt32) :
    readClamp fd n = n := by
  rw [readClamp, if_neg]
  simp [h.1, h.2]

theorem readClamp_of_not_endless {fd : FatFileData} (h : ¬ Endless fd) (n : UInt32) :
    readClamp fd n = minInt n (fd.pub.size - fd.pub.position) := by
  rw [readClamp, if_pos]
  cases hdir : fd.pub.isDirectory with
  | false => simp
  | true =>
    have hsize : fd.pub.size ≠ 0 := fun e => h ⟨hdir, e⟩
    simp [hsize]

/-- **The clamp** gives a count that `int` can hold if both the file and the
caller do. -/
theorem readClamp_lt_iff {fd : FatFileData} {n : UInt32} :
    (readClamp fd n).toNat < 2 ^ 31 ↔ Measured fd ∧ n.toNat < 2 ^ 31 := by
  by_cases hend : Endless fd
  · rw [readClamp_of_endless hend]
    exact ⟨fun h => ⟨.inl hend, h⟩, fun h => h.2⟩
  · rw [readClamp_of_not_endless hend, Measured]
    constructor
    · intro h
      by_contra hnot
      have := le_toNat_minInt (a := n) (b := fd.pub.size - fd.pub.position) (by omega)
      omega
    · rintro ⟨hleft | hleft, hn⟩
      · exact (hend hleft).elim
      · rw [toNat_minInt hn hleft]
        omega

theorem readClamp_le {fd : FatFileData} {n : UInt32} (h : (readClamp fd n).toNat < 2 ^ 31) :
    (readClamp fd n).toNat ≤ n.toNat ∧
      (Endless fd ∨ (readClamp fd n).toNat ≤ (fd.pub.size - fd.pub.position).toNat ∧
        (fd.pub.size - fd.pub.position).toNat < 2 ^ 31) := by
  obtain ⟨hfd, hn⟩ := readClamp_lt_iff.mp h
  by_cases hend : Endless fd
  · rw [readClamp_of_endless hend]
    exact ⟨Nat.le_refl _, .inl hend⟩
  · have hleft := hfd.resolve_left hend
    rw [readClamp_of_not_endless hend, toNat_minInt hn hleft]
    exact ⟨Nat.min_le_left _ _, .inr ⟨Nat.min_le_right _ _, hleft⟩⟩

/-! ## The loop -/

/-- The invariant of the loop of a call that reads `total` bytes at most. -/
structure Bounded (total : Nat) (st : ReadState) : Prop where
  count : st.out.length + st.byteCount.toNat = total
  lt : total < 2 ^ 31
  room : Endless st.fd ∨ st.byteCount.toNat ≤ (st.fd.pub.size - st.fd.pub.position).toNat ∧
    (st.fd.pub.size - st.fd.pub.position).toNat < 2 ^ 31

namespace Bounded

variable {total : Nat} {st st' : ReadState}

/-- **Every copy** stays in the buffer, and what it stores is counted. -/
theorem take (h : Bounded total st) :
    ∃ st' emptied, readTake st = some (st', emptied) ∧ Bounded total st' := by
  have hcount := h.count
  have hlt := h.lt
  obtain ⟨st', emptied, t, htake, ht, hbyteCount, hout, hfd, hposition, -⟩ :=
    readTake_eq st (by omega)
  refine ⟨st', emptied, htake, ?_, hlt, ?_⟩
  · rw [hout, List.length_append, List.length_take, List.length_drop, Block.length_bytes]
    omega
  · rcases h.room with hend | ⟨hle, hroom⟩
    · left
      rw [hfd]
      exact hend
    · right
      have hsize : st'.fd.pub.size = st.fd.pub.size := by rw [hfd]
      rw [UInt32.toNat_sub] at hle hroom ⊢
      rw [hsize, hposition]
      have h₁ := st.fd.pub.position.toNat_lt
      have h₂ := st.fd.pub.size.toNat_lt
      omega

theorem taken {emptied : Bool} (h : Bounded total st) (htake : readTake st = some (st', emptied)) :
    Bounded total st' := by
  obtain ⟨st₁, emptied₁, htake₁, h₁⟩ := h.take
  rw [htake] at htake₁
  cases htake₁
  exact h₁

theorem measured (h : Bounded total st) : Measured st.fd := h.room.imp id And.right

/-- The step to the next sector keeps the invariant if it is not the last. -/
theorem next {v : Volume} {more : Bool} {s t : σ} (h : Bounded total st)
    (hrun : readNext M v env st s = .ok ((st', more), t)) :
    (more = true → Bounded total st') ∧ st'.out.length ≤ total ∧ Measured st'.fd := by
  have hcount := h.count
  have hstep := readNext_ok hrun
  have hout : st'.out.length ≤ total := by
    rw [hstep.out]
    omega
  rcases hstep.size with hsize | ⟨rfl, hsize⟩
  · have hnext : Bounded total st' := by
      refine ⟨by rw [hstep.out, hstep.byteCount]; exact hcount, h.lt, ?_⟩
      rw [Endless, hstep.isDirectory, hsize, hstep.position, hstep.byteCount]
      exact h.room
    exact ⟨fun _ => hnext, hout, hnext.measured⟩
  · refine ⟨fun hmore => (by cases hmore), hout, .inr ?_⟩
    rw [hsize, UInt32.sub_self]
    decide

/-- **A pass that goes on** keeps the invariant. -/
theorem pass {v : Volume} {s t : σ} (h : Bounded total st)
    (hrun : readPass M v env st s = .ok ((st', true), t)) : Bounded total st' := by
  rcases readPass_ok hrun with ⟨-, -, hmore⟩ | ⟨st₁, emptied, -, htake, hrest⟩
  · cases hmore
  · rcases hrest with ⟨-, rfl, -⟩ | ⟨-, hnext⟩
    · exact h.taken htake
    · exact ((h.taken htake).next hnext).1 rfl

/-- What the last pass leaves. -/
theorem last {v : Volume} {s t : σ} (h : Bounded total st)
    (hrun : readPass M v env st s = .ok ((st', false), t)) :
    st'.out.length ≤ total ∧ Measured st'.fd := by
  rcases readPass_ok hrun with ⟨-, rfl, -⟩ | ⟨st₁, emptied, -, htake, hrest⟩
  · have hcount := h.count
    exact ⟨by omega, h.measured⟩
  · rcases hrest with ⟨-, -, hmore⟩ | ⟨-, hnext⟩
    · cases hmore
    · exact ((h.taken htake).next hnext).2

theorem start {fd : FatFileData} {n : UInt32} (h : (readClamp fd n).toNat < 2 ^ 31) :
    Bounded (readClamp fd n).toNat ⟨fd, readClamp fd n, 0, []⟩ :=
  ⟨by simp, h, (readClamp_le h).2⟩

end Bounded

/-- A call that returns was asked for a count that `int` can hold. -/
theorem readFile_lt {v : Volume} {fd : FatFileData} {n : UInt32} {st : ReadState} {s t : σ}
    (h : readFile M v env fd n s = .ok (st, t)) : (readClamp fd n).toNat < 2 ^ 31 := by
  by_contra hge
  rw [readFile, iterate_succ] at h
  obtain ⟨⟨st', more⟩, s', hpass, -⟩ := of_bind_ok h
  rcases readPass_ok hpass with ⟨hzero, -, -⟩ | ⟨st₁, emptied, -, htake, -⟩
  · dsimp only at hzero
    rw [hzero] at hge
    exact hge (by decide)
  · rw [readTake_none (by dsimp only; omega)] at htake
    cases htake

theorem readFile_bounded {v : Volume} {fd : FatFileData} {n : UInt32} {st : ReadState} {s t : σ}
    (h : readFile M v env fd n s = .ok (st, t)) :
    st.out.length ≤ (readClamp fd n).toNat ∧ Measured st.fd :=
  iterate_ok (I := Bounded (readClamp fd n).toNat) (fun _ _ _ _ ha => ha.pass)
    (fun _ _ _ _ ha => ha.last) (.start (readFile_lt h)) h

/-! ## Files that `FAT_OpenEntry` opened -/

/-- What `FAT_OpenEntry` leaves of an entry it opened. -/
theorem fatOpenEntry_some {d d' : Driver} {entry : DirectoryEntry} {p : FilePtr} {s t : σ}
    (h : fatOpenEntry M d entry s = .ok ((d', some p), t)) :
    ∃ i buffer, p = .slot i ∧ freeHandle d = some i ∧
      M.diskReadSectors (fatClusterToLba d.vol entry.firstCluster) 1 (d.openedFiles i).buffer s
        = .ok ((0, buffer), t) ∧
      d' = d.setFile (.slot i) ⟨buffer, ⟨i.val, entry.isDirectory, 0, entry.size⟩, true,
        entry.firstCluster, entry.firstCluster, 0⟩ := by
  unfold fatOpenEntry at h
  cases hi : freeHandle d with
  | none =>
    rw [hi] at h
    cases h
  | some i =>
    rw [hi] at h
    obtain ⟨⟨status, buffer⟩, s', hread, h⟩ := of_bind_ok h
    dsimp only at h hread
    split at h
    · cases h
    · rename_i hstatus
      have hzero : status = 0 := by simpa using hstatus
      subst hzero
      cases h
      exact ⟨i, buffer, rfl, rfl, hread, rfl⟩

/-- The file opened from `entry` in slot `i`: straight after `FAT_OpenEntry`,
after any `FAT_Read` of it, and after whatever leaves its file data alone. -/
inductive Reached (M : Machine σ) (entry : DirectoryEntry) (i : Fin maxFileHandles) :
    Driver → Prop
  | opened {d d' : Driver} {s t : σ} :
      fatOpenEntry M d entry s = .ok ((d', some (.slot i)), t) → Reached M entry i d'
  | read {d d' : Driver} {env : Env} {n : UInt32} {out : List UInt8} {s t : σ} :
      Reached M entry i d → fatRead M env d (some (.slot i)) n s = .ok ((d', out), t) →
      Reached M entry i d'
  | other {d d' : Driver} : Reached M entry i d → d'.openedFiles i = d.openedFiles i →
      Reached M entry i d'

section

variable {entry : DirectoryEntry} {i : Fin maxFileHandles} {d : Driver}

theorem Reached.numbered (h : Reached M entry i d) : d.Numbered (.slot i) := by
  induction h with
  | opened hopen =>
    obtain ⟨j, buffer, hj, -, -, rfl⟩ := fatOpenEntry_some hopen
    cases hj
    rw [Driver.Numbered, Driver.file_setFile_self, handleFile_slot]
  | read _ hread ih =>
    obtain ⟨fd, hfd, rfl⟩ := fatRead_touches hread ih
    exact ih.setFile hfd.handle
  | other _ hsame ih =>
    rw [Driver.Numbered, Driver.file] at ih ⊢
    rw [hsame]
    exact ih

/-- A file that is too large for `int` is never read: it stays at its start. -/
theorem Reached.measured_iff (h : Reached M entry i d) :
    Measured (d.openedFiles i) ↔ entry.size.toNat < 2 ^ 31 := by
  have hinv : (entry.size.toNat < 2 ^ 31 → Measured (d.openedFiles i)) ∧
      (2 ^ 31 ≤ entry.size.toNat → ¬ Measured (d.openedFiles i)) := by
    induction h with
    | opened hopen =>
      obtain ⟨j, buffer, hj, -, -, rfl⟩ := fatOpenEntry_some hopen
      cases hj
      rw [Driver.openedFiles_setFile_self, Measured]
      dsimp only
      rw [UInt32.sub_zero]
      refine ⟨.inr, fun hsize => ?_⟩
      rintro (⟨-, hzero⟩ | hlt)
      · dsimp only at hzero
        rw [hzero] at hsize
        exact absurd hsize (by decide)
      · omega
    | read hd hread ih =>
      obtain ⟨st, hst, rfl, -⟩ := fatRead_ok hd.numbered hread
      obtain ⟨hmeasured, -⟩ := readClamp_lt_iff.mp (readFile_lt hst)
      rw [Driver.openedFiles_setFile_self]
      exact ⟨fun _ => (readFile_bounded hst).2, fun hsize => (ih.2 hsize hmeasured).elim⟩
    | other _ hsame ih =>
      rw [hsame]
      exact ih
  rcases Nat.lt_or_ge entry.size.toNat (2 ^ 31) with hsize | hsize
  · exact ⟨fun _ => hsize, hinv.1⟩
  · exact ⟨fun hm => (hinv.2 hsize hm).elim, fun hlt => by omega⟩

/-! ## Calls within bounds -/

/-- The call copies within the sector buffer and stores `n` bytes at most, in
every pass of its loop and in all. -/
structure InBounds (M : Machine σ) (env : Env) (d : Driver) (p : FilePtr) (n : UInt32) (s : σ) :
    Prop where
  copies : ∀ st t,
    Visits (readPass M d.vol env) ⟨d.file p, readClamp (d.file p) n, 0, []⟩ s st t →
    st.byteCount > 0 → ∃ st' emptied, readTake st = some (st', emptied) ∧
      st'.out.length ≤ n.toNat
  returns : ∀ d' out t, fatRead M env d (some p) n s = .ok ((d', out), t) → out.length ≤ n.toNat

/-- A call is within bounds exactly if its count is one that `int` can hold. -/
theorem inBounds_iff (h : d.Numbered (.slot i)) (n : UInt32) (s : σ) :
    InBounds M env d (.slot i) n s ↔ (readClamp (d.openedFiles i) n).toNat < 2 ^ 31 := by
  constructor
  · intro hin
    by_contra hge
    have hpos : readClamp (d.openedFiles i) n > 0 := by
      show 0 < (readClamp (d.openedFiles i) n).toNat
      omega
    obtain ⟨st', emptied, htake, -⟩ := hin.copies _ _ .start hpos
    have hnone : readTake ⟨d.openedFiles i, readClamp (d.openedFiles i) n, 0, []⟩ = none :=
      readTake_none (by dsimp only; omega)
    rw [Driver.file, hnone] at htake
    cases htake
  · intro hlt
    have hle := (readClamp_le hlt).1
    constructor
    · intro st t hvisit _
      have hst := hvisit.invariant (I := Bounded (readClamp (d.openedFiles i) n).toNat)
        (.start hlt) fun _ _ _ _ ha => ha.pass
      obtain ⟨st', emptied, htake, hst'⟩ := hst.take
      have hcount := hst'.count
      exact ⟨st', emptied, htake, by omega⟩
    · intro d' out t hread
      obtain ⟨st, hst, -, rfl⟩ := fatRead_ok h hread
      have hout := (readFile_bounded hst).1
      exact Nat.le_trans hout hle

/-- **The bounds of `FAT_Read`**: a call on a file that was opened from
`entry` is within bounds if `int` can hold both the size in the entry and the
number of bytes asked for, and in no other case. -/
theorem fatRead_inBounds_iff (h : Reached M entry i d) (env : Env) (n : UInt32) (s : σ) :
    InBounds M env d (.slot i) n s ↔ entry.size.toNat < 2 ^ 31 ∧ n.toNat < 2 ^ 31 := by
  rw [inBounds_iff h.numbered, readClamp_lt_iff, h.measured_iff]

end

/-! ## The small volume -/

/-- An entry like the kernel's, of `2 ^ 31` bytes. -/
def sampleLargeEntry : DirectoryEntry :=
  Block.pad 32 (sampleKernelEntry.bytes.take 28 ++ [0x00, 0x00, 0x00, 0x80])

/-- The small volume with the file of an entry open in the first slot. -/
def sampleOpened (entry : DirectoryEntry) : Driver :=
  sampleMounted.setFile (.slot firstSlot)
    ⟨imageSectors sampleImage (fatClusterToLba sampleMounted.vol entry.firstCluster).toNat 1,
      ⟨0, entry.isDirectory, 0, entry.size⟩, true, entry.firstCluster, entry.firstCluster, 0⟩

theorem sample_openEntry (bar : UInt32 → UInt32 → Option UInt32) (entry : DirectoryEntry) :
    fatOpenEntry (imageMachine sampleImage bar) sampleMounted entry ()
      = .ok ((sampleOpened entry, some (.slot firstSlot)), ()) := by
  have hfree : freeHandle sampleMounted = some firstSlot := by decide +kernel
  simp only [fatOpenEntry, hfree]
  rfl

theorem sample_reached (bar : UInt32 → UInt32 → Option UInt32) (entry : DirectoryEntry) :
    Reached (imageMachine sampleImage bar) entry firstSlot (sampleOpened entry) :=
  .opened (sample_openEntry bar entry)

/-- The kernel can be asked for in one piece. -/
theorem fatRead_inBounds_sample :
    Reached sampleMachine sampleKernelEntry firstSlot (sampleOpened sampleKernelEntry) ∧
    InBounds sampleMachine sampleEnv (sampleOpened sampleKernelEntry) (.slot firstSlot) 1024 () := by
  have hd := sample_reached (fun _ _ => some 0) sampleKernelEntry
  exact ⟨hd, (fatRead_inBounds_iff hd sampleEnv 1024 ()).mpr (by decide +kernel)⟩

/-- **The defect.** One byte of a file of `2 ^ 31` bytes is asked for, and the
copy leaves the sector buffer. -/
theorem fatRead_leaves_buffer :
    Reached sampleMachine sampleLargeEntry firstSlot (sampleOpened sampleLargeEntry) ∧
    ¬ InBounds sampleMachine sampleEnv (sampleOpened sampleLargeEntry) (.slot firstSlot) 1 () := by
  have hd := sample_reached (fun _ _ => some 0) sampleLargeEntry
  refine ⟨hd, fun hin => ?_⟩
  have hlt := (inBounds_iff hd.numbered 1 ()).mp hin
  exact absurd hlt (by decide +kernel)

end Netclover.Stage2
