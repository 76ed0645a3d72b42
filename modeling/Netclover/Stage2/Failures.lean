import Netclover.Stage2.Chain

/-!
# Reads that fail

The disk may refuse any read. A call of `FAT_Read` that is refused one stops
with the bytes it has, and what it has is right. But it stops behind the step
to the next sector: the position is on that sector, the buffer is not. So the
delivered bytes are the file's as long as nothing was refused before the last
call (`fatReads_coherent`), and the call after may deliver a sector twice.
-/

namespace Netclover.Stage2

open Proc Libc Fat12

variable {σ : Type} {M : Machine σ} {env : Env}

/-! ## Disks that may refuse -/

/-- What a read delivers is the image's, if it succeeds. -/
def Machine.Honest (M : Machine σ) (img : Image) : Prop :=
  ∀ lba n buf s, (M.readSectors lba n buf s).1.1 = 0 →
    (M.readSectors lba n buf s).1.2 = imageSectors img lba.toNat n

/-- The same disk, with a note of whether any read failed so far. -/
def Machine.noting (M : Machine σ) : Machine (σ × Bool) where
  readSectors lba n buf s :=
    let (r, t) := M.readSectors lba n buf s.1
    (r, t, s.2 || r.1 != 0)
  loadingBar := M.loadingBar

theorem Machine.Honest.noting {img : Image} (hM : M.Honest img) : M.noting.Honest img :=
  fun lba n buf s => hM lba n buf s.1

/-- While nothing has been noted, the disk serves the image. -/
theorem Machine.Honest.serves {img : Image} (hM : M.Honest img) :
    Serves M.noting img fun s => s.2 = true where
  keeps lba n buf s hs := by
    simp only [Machine.noting, hs, Bool.true_or]
  reads lba n buf s hs := by
    simp only [Machine.noting, Bool.or_eq_true, not_or, bne_iff_ne, ne_eq, not_not] at hs ⊢
    exact Prod.ext hs.2 (hM lba n buf s.1 hs.2)

theorem Machine.Honest.nextRead_ok {img : Image} (hM : M.Honest img) {v : Volume}
    {fd : FatFileData} {status : UInt16} {buffer : Sectors 1} {s t : σ}
    (hread : nextRead M v env fd s = ((status, buffer), t)) (hzero : status = 0) :
    buffer = imageSectors img (fatClusterToLba v (nextSector v env fd).currentCluster
      + (nextSector v env fd).currentSectorInCluster).toNat 1 := by
  have hdata : (nextRead M v env fd s).1.1 = 0 → (nextRead M v env fd s).1.2 = _ :=
    hM _ 1 fd.buffer s
  rw [hread] at hdata
  exact hdata hzero

/-! ## One call -/

section

variable {img : Image} (hM : M.Honest img)
include hM

/-- A step to the next sector that goes on is one of the plain disk. -/
theorem readNext_plain {v : Volume} {st st' : ReadState} {s t : σ}
    (hhandle : st.fd.pub.handle ≠ rootDirectoryHandle)
    (h : readNext M v env st s = .ok ((st', true), t)) :
    readNext (imageMachine img M.loadingBar) v env st () = .ok ((st', true), ()) := by
  rcases UInt32.lt_or_le (nextSector v env st.fd).currentCluster 0xFF8 with hin | hend
  · cases hread : nextRead M v env st.fd s with
    | mk r t₁ =>
      obtain ⟨status, buffer⟩ := r
      rw [readNext_answered hhandle hin hread] at h
      by_cases hstatus : status = 0
      · have hplain : nextRead (imageMachine img M.loadingBar) v env st.fd ()
            = ((0, buffer), ()) := by
          rw [hM.nextRead_ok hread hstatus]
          rfl
        have hbar : (imageMachine img M.loadingBar).loadingBar = M.loadingBar := rfl
        rw [if_neg (by simpa using hstatus)] at h
        rw [readNext_answered hhandle hin hplain, if_neg (by simp), hbar]
        generalize M.loadingBar _ _ = tval at h ⊢
        cases tval with
        | none => cases h
        | some tval =>
          cases h
          rfl
      · rw [if_pos hstatus] at h
        cases h
  · rw [readNext_end hhandle hend] at h
    cases h

/-- And so is a pass that goes on. -/
theorem readPass_plain {v : Volume} {st st' : ReadState} {s t : σ}
    (hhandle : st.fd.pub.handle ≠ rootDirectoryHandle)
    (h : readPass M v env st s = .ok ((st', true), t)) :
    readPass (imageMachine img M.loadingBar) v env st () = .ok ((st', true), ()) := by
  rcases readPass_ok h with ⟨-, -, hmore⟩ | ⟨st₁, emptied, hpos, htake, hrest⟩
  · cases hmore
  · rw [readPass, if_pos (by exact hpos), htake]
    rcases hrest with ⟨rfl, rfl, -⟩ | ⟨rfl, hnext⟩
    · rfl
    · refine readNext_plain hM ?_ hnext
      rw [(readTake_same htake).handle]
      exact hhandle

end

section

variable {img : Image} {v : Volume} {cs : List Nat} {first : Nat} {size p n : Nat}
  (hcs : Chain v.fat first cs) (hn : p + n ≤ size) (hsize : size < 2 ^ 31)
include hcs hn hsize

/-- **A pass that goes on** keeps the invariant of the loop, on a disk that
may refuse. -/
theorem Reading.pass (hM : M.Honest img) (hv : v.Mounted) {st st' : ReadState} {s t : σ}
    (h : Reading img v cs size p n st) (hrun : readPass M v env st s = .ok ((st', true), t)) :
    Reading img v cs size p n st' := by
  have hserves := (imageMachine_holds img M.loadingBar).serves
  have hensures : Ensures (fun _ => False) (fun _ => True)
      (readPass (imageMachine img M.loadingBar) v env st) _ :=
    readPass_ensures hserves (fun _ _ _ => trivial) hv hcs hn hsize h
  exact (hensures.of_ok (readPass_plain hM h.file.handle hrun) id).1

/-- **The last pass**, however it ends, has stored a slice of the file, and
the position is behind it. -/
theorem Reading.last {st st' : ReadState} {s t : σ} (h : Reading img v cs size p n st)
    (hrun : readPass M v env st s = .ok ((st', false), t)) :
    st'.out = ((contents img v.layout cs).drop p).take st'.out.length ∧ st'.out.length ≤ n ∧
      st'.fd.pub.position.toNat = p + st'.out.length := by
  have hcount := h.count
  rcases readPass_ok hrun with ⟨-, rfl, -⟩ | ⟨st₁, emptied, -, htake, hrest⟩
  · exact ⟨h.out, by omega, h.file.position⟩
  · rcases hrest with ⟨-, -, hmore⟩ | ⟨-, hnext⟩
    · cases hmore
    · have hstep := readNext_ok hnext
      obtain ⟨st₂, emptied₂, t, htake₂, ht, -, hlength, hbytes, -, hposition, -⟩ :=
        h.take hcs hn hsize
      rw [htake] at htake₂
      cases htake₂
      rw [hstep.out, hstep.position]
      exact ⟨hbytes, by omega, hposition⟩

omit hn in
/-- **`FAT_Read` on a disk that may refuse** delivers bytes of the file, and
leaves the position behind them. -/
theorem readFile_prefix (hM : M.Honest img) (hv : v.Mounted) {fd : FatFileData} {p : Nat}
    (h : FileAt img v cs size p fd) {n : UInt32} {st : ReadState} {s t : σ}
    (hrun : readFile M v env fd n s = .ok (st, t)) :
    st.out <+: ((contents img v.layout cs).take size).drop p ∧
      st.fd.pub.position.toNat = p + st.out.length := by
  have hb := (readClamp_lt_iff.mp (readFile_lt hrun)).2
  obtain ⟨hle, ⟨hfile, hfs⟩ | ⟨hended, hend⟩⟩ := h
  · have hclamp := toNat_readClamp hfile.toRegularFile hfile.position hfs hle hsize hb
    have hinv : Reading img v cs size p (min n.toNat (size - p)) ⟨fd, readClamp fd n, 0, []⟩ :=
      ⟨by simpa using hclamp, by simp, by simpa using hfile, hfs⟩
    obtain ⟨hout, hlen, hposition⟩ := iterate_ok
      (I := Reading img v cs size p (min n.toNat (size - p)))
      (fun _ _ _ _ ha => ha.pass hcs (by omega) hsize hM hv)
      (fun _ _ _ _ ha => ha.last hcs (by omega) hsize) hinv hrun
    refine ⟨?_, hposition⟩
    rw [List.drop_take, hout]
    exact List.take_prefix_take_left (by omega)
  · rw [readFile, hended.readClamp (by omega) hb] at hrun
    cases hrun
    exact ⟨List.nil_prefix, hended.position⟩

end

/-! ## Sequences of calls -/

/-- Calls that returned were asked for counts that `int` can hold. -/
theorem fatReads_counts {p : FilePtr} {calls : List (Env × UInt32)} {d d' : Driver}
    {outs : List (List UInt8)} {s t : σ} (hp : d.Numbered p)
    (h : fatReads M (some p) calls d s = .ok ((d', outs), t)) :
    ∀ c ∈ calls, c.2.toNat < 2 ^ 31 := by
  induction calls generalizing d s d' outs t with
  | nil => simp
  | cons call calls ih =>
    obtain ⟨⟨d₁, out⟩, s₁, hread, h⟩ := of_bind_ok h
    obtain ⟨⟨d₂, rest⟩, s₂, hrest, -⟩ := of_bind_ok h
    obtain ⟨fd, hfd, hd₁⟩ := fatRead_touches hread hp
    obtain ⟨st, hst, -, -⟩ := fatRead_ok hp hread
    have hp₁ : d₁.Numbered p := by
      rw [hd₁]
      exact hp.setFile hfd.handle
    intro c hc
    rcases List.mem_cons.mp hc with rfl | hc
    · exact (readClamp_lt_iff.mp (readFile_lt hst)).2
    · exact ih hp₁ hrest c hc

section

variable {img : Image} {v : Volume} {cs : List Nat} {first : Nat} {size : Nat} {p : FilePtr}
  {d : Driver}

/-- A file that was read from its start is small enough for `int`. -/
theorem OpenAt.size_lt (hv : v.Mounted) (hcs : Chain v.fat first cs)
    (h : OpenAt img v cs size p 0 d) {n : UInt32} {d' : Driver} {out : List UInt8} {s t : σ}
    (hread : fatRead M env d (some p) n s = .ok ((d', out), t)) : size < 2 ^ 31 := by
  obtain ⟨st, hst, -, -⟩ := fatRead_ok h.numbered hread
  have hmeasured := (readClamp_lt_iff.mp (readFile_lt hst)).1
  obtain ⟨-, ⟨hfile, hsize⟩ | ⟨-, hend⟩⟩ := h.file
  · rcases hmeasured with ⟨hdir, -⟩ | hlt
    · rw [hfile.isDirectory] at hdir
      cases hdir
    · have hzero := hfile.position
      rw [UInt32.toNat_sub, hsize, hzero] at hlt
      have := (d.file p).pub.size.toNat_lt
      omega
  · have hspc : 1 ≤ v.layout.sectorsPerCluster := UInt8.le_iff_toNat_le.mp hv.sectorsPerCluster
    have hpos := Nat.mul_pos hcs.nonempty hspc
    rw [chainBytes] at hend
    omega

/-- **Reads that fail**: as long as no disk read failed in the calls before,
what a call delivers is the file's, at the position it is delivered for,
whatever fails in the call itself. -/
theorem fatReads_coherent (hM : M.Honest img) (hv : v.Mounted) (hcs : Chain v.fat first cs)
    (hopen : OpenAt img v cs size p 0 d) {calls : List (Env × UInt32)} {d₁ : Driver}
    {outs : List (List UInt8)} {s s₁ : σ}
    (hcalls : fatReads M.noting (some p) calls d (s, false) = .ok ((d₁, outs), (s₁, false)))
    {n : UInt32} {d₂ : Driver} {out : List UInt8} {r : σ × Bool}
    (hlast : fatRead M.noting env d₁ (some p) n (s₁, false) = .ok ((d₂, out), r)) :
    outs.flatten ++ out <+: (contents img v.layout cs).take size ∧
      (d₁.file p).pub.position.toNat = outs.flatten.length ∧
      (d₂.file p).pub.position.toNat = (outs.flatten ++ out).length := by
  -- a call on a larger file leaves the buffer, so one that returned had a size to read
  have hsize : size < 2 ^ 31 := by
    cases calls with
    | nil =>
      cases hcalls
      exact hopen.size_lt hv hcs hlast
    | cons call calls =>
      obtain ⟨⟨d', out'⟩, s', hread, -⟩ := of_bind_ok hcalls
      exact hopen.size_lt hv hcs hread
  have hensures : Ensures (fun s : σ × Bool => s.2 = true) (fun _ => True)
      (fatReads M.noting (some p) calls d) _ :=
    fatReads_ensures hM.serves (fun _ _ _ => trivial) hv hcs hsize calls
      (fatReads_counts hopen.numbered hcalls) hopen
  obtain ⟨houts, h₁⟩ := hensures.of_ok hcalls (by simp)
  dsimp only at houts h₁
  rw [List.drop_zero] at houts
  have hfront : outs.flatten <+: (contents img v.layout cs).take size := by
    rw [houts, slices_flatten]
    exact List.take_prefix _ _
  obtain ⟨st, hst, hd₂, hout⟩ := fatRead_ok h₁.numbered hlast
  rw [h₁.vol] at hst
  obtain ⟨hpart, hposition⟩ := readFile_prefix hcs hsize hM.noting hv h₁.file hst
  rw [Nat.zero_add] at hpart hposition
  refine ⟨?_, ?_, ?_⟩
  · rw [← List.prefix_iff_eq_append.mp hfront, hout]
    exact (List.prefix_append_right_inj _).mpr hpart
  · rw [h₁.position, Nat.zero_add]
  · rw [hd₂, Driver.file_setFile_self, hposition, hout, List.length_append]

end

/-! ## The small volume -/

/-- The small volume on a disk that refuses one sector. -/
def sampleFailing (bad : UInt32) : Machine Unit where
  readSectors lba n buf s :=
    (if lba = bad then (4, buf) else (0, imageSectors sampleImage lba.toNat n), s)
  loadingBar := loadingBar

theorem sampleFailing_honest (bad : UInt32) : (sampleFailing bad).Honest sampleImage := by
  intro lba n buf s hok
  simp only [sampleFailing] at hok ⊢
  split
  · rename_i hbad
    rw [if_pos hbad] at hok
    cases hok
  · rfl

theorem sample_openAt : OpenAt sampleImage (Volume.mount sampleImage) [2, 3] 1024
    (.slot firstSlot) 0 (sampleOpened sampleKernelEntry) := by
  have hM := (imageMachine_holds sampleImage loadingBar).serves
  have hopen : Ensures (fun _ => False) (fun _ => True)
      (fatOpenEntry (imageMachine sampleImage loadingBar) sampleMounted sampleKernelEntry) _ :=
    fatOpenEntry_ensures hM sample_mounted sample_chain rfl (by decide +kernel) rfl
  have h := (hopen.of_ok (sample_openEntry loadingBar sampleKernelEntry) id).2 _ rfl
  have hsize : sampleKernelEntry.size.toNat = 1024 := by decide +kernel
  rw [hsize] at h
  exact h

/-- A hundred bytes of the kernel, and then as many as there are before the
sector that cannot be read. -/
theorem fatReads_coherent_sample : ∃ d₁ outs s₁ d₂ out r,
    fatReads (sampleFailing 4).noting (some (.slot firstSlot)) [(sampleEnv, 100)]
      (sampleOpened sampleKernelEntry) ((), false) = .ok ((d₁, outs), (s₁, false)) ∧
    fatRead (sampleFailing 4).noting sampleEnv d₁ (some (.slot firstSlot)) 1024 (s₁, false)
      = .ok ((d₂, out), r) ∧
    outs.flatten ++ out <+:
      (contents sampleImage (Volume.mount sampleImage).layout [2, 3]).take 1024 := by
  have hrun : passes (fun r s => !s.2 &&
      passes (fun _ _ => true) (fatRead (sampleFailing 4).noting sampleEnv r.1
        (some (.slot firstSlot)) 1024 (s.1, false)))
      (fatReads (sampleFailing 4).noting (some (.slot firstSlot)) [(sampleEnv, 100)]
        (sampleOpened sampleKernelEntry) ((), false)) = true := by decide +kernel
  obtain ⟨⟨d₁, outs⟩, ⟨s₁, failed⟩, hcalls, htest⟩ := of_passes hrun
  obtain ⟨hgood, hlast⟩ := (Bool.and_eq_true _ _).mp htest
  obtain rfl : failed = false := by simpa using hgood
  obtain ⟨⟨d₂, out⟩, r, hlast, -⟩ := of_passes hlast
  exact ⟨d₁, outs, s₁, d₂, out, r, hcalls, hlast, (fatReads_coherent (sampleFailing_honest 4)
    sample_mounted sample_chain sample_openAt hcalls hlast).1⟩

/-- **The defect.** Where the second sector of the kernel cannot be read, two
calls for 512 bytes deliver the first sector twice. -/
theorem fatReads_repeats_sector :
    (sampleFailing 4).Honest sampleImage ∧
    OpenAt sampleImage (Volume.mount sampleImage) [2, 3] 1024 (.slot firstSlot) 0
      (sampleOpened sampleKernelEntry) ∧
    ∃ d outs, fatReads (sampleFailing 4) (some (.slot firstSlot))
        [(sampleEnv, 512), (sampleEnv, 512)] (sampleOpened sampleKernelEntry) ()
          = .ok ((d, outs), ()) ∧
      ¬ outs.flatten <+:
        (contents sampleImage (Volume.mount sampleImage).layout [2, 3]).take 1024 := by
  have hrun : passes (fun r _ => r.2.flatten[512]? == some 3)
      (fatReads (sampleFailing 4) (some (.slot firstSlot))
        [(sampleEnv, 512), (sampleEnv, 512)] (sampleOpened sampleKernelEntry) ()) = true := by
    decide +kernel
  have hfile : ((contents sampleImage (Volume.mount sampleImage).layout [2, 3]).take 1024)[512]?
      = some 4 := by decide +kernel
  obtain ⟨⟨d, outs⟩, s, hcalls, hbyte⟩ := of_passes hrun
  refine ⟨sampleFailing_honest 4, sample_openAt, d, outs, hcalls, fun hpart => ?_⟩
  have hout := beq_iff_eq.mp hbyte
  obtain ⟨rest, hrest⟩ := hpart
  rw [← hrest, List.getElem?_append_left (List.getElem?_eq_some_iff.mp hout).1, hout] at hfile
  cases hfile

end Netclover.Stage2
