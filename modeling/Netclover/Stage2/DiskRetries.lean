import Netclover.Lib.Retry
import Netclover.Stage2.Boot
import Netclover.Stage2.RealMode

/-!
# Disk retries (`DISK_ReadSectors` over its stubs)

`DISK_ReadSectors` on a BIOS that is called through `diskRead16` and
`diskReset16`. It reads once to three times, as it should, with one reset in
between; but `diskReset16` resets the drive that the return address names
(`diskReadSectors_retries_iff`).
-/

namespace Netclover.Stage2

open I386 Asm

variable {σ : Type}

/-! ## The stubs as a BIOS -/

/-- Where C code calls the stubs from: the processor there, whatever state the
world is in, and what stands behind the calls. -/
structure Caller (σ : Type) where
  cpu : σ → Cpu
  behindRead : Bytes
  behindReset : Bytes
  behindBootReset : Bytes

/-- The two stubs, on a BIOS with a log. They always return
(`stubBios_read`, `stubBios_reset`). -/
def stubBios (int13 : Handler σ) (caller : Caller σ) (dataOut : UInt32) :
    Bios (σ × List (Retry.Event Int13 Int13)) where
  read drive chs n buffer w :=
    match calll caller.behindRead (X86.diskRead16 (Stage1.logging int13)) (X86.pushArgs
        (caller.cpu w.1) (X86.readArgs drive chs (UInt8.ofNat n) dataOut), w) with
    | .ok (_, c, t) => (((c.regs .ax).word, Block.ofMem _ fun i => c.mem (dataOut.toNat + i)), t)
    | .error (_, _, t) => ((1, buffer), t)
  reset drive w :=
    match calll caller.behindReset (X86.diskReset16 (Stage1.logging int13) caller.behindBootReset)
        (X86.pushArgs (caller.cpu w.1) [X86.int8Arg drive], w) with
    | .ok (_, c, t) => ((c.regs .ax).word, t)
    | .error (_, _, t) => (1, t)

/-- What the BIOS documents: it keeps `ebp`, and a read reports status 0 in
`ah` if it clears the carry flag, and only then. -/
structure Conventional (int13 : Handler σ) : Prop where
  bp : ∀ c s, (int13 c s).1.regs .bp = c.regs .bp
  status : ∀ c s, c.byte .ah = 0x02 →
    (((int13 c s).1.regs .ax).h = 0 ↔ (int13 c s).1.cf = false)

theorem stubBios_read {int13 : Handler σ} (hint : Conventional int13) (caller : Caller σ)
    (drive : UInt8) (chs : Chs) (count : UInt8) (dataOut : UInt32) (buffer : Sectors count.toNat)
    (w : σ × List (Retry.Event Int13 Int13)) :
    let r := (stubBios int13 caller dataOut).read drive chs count.toNat buffer w
    ∃ ok, r.2.2 = w.2 ++ [.attempt (diskRead16 drive chs count dataOut) ok] ∧
      (r.1.1 = 0 ↔ ok = true) := by
  have hruns : Runs (calll caller.behindRead (X86.diskRead16 (Stage1.logging int13)))
      (X86.pushArgs (caller.cpu w.1) (X86.readArgs drive chs count dataOut)) w fun _ c' t =>
      ∃ ok, t.2 = w.2 ++ [.attempt (diskRead16 drive chs count dataOut) ok] ∧
        ((c'.regs .ax).word = 0 ↔ ok = true) := by
    apply X86.diskRead16_runs
    · intro x v
      exact hint.bp x v.1
    · intro x a t c' hrequest hanswer hax _
      have hlog := Stage1.logging_log hanswer
      rw [hrequest] at hlog
      refine ⟨!a.cf, hlog, ?_⟩
      have hah : x.byte .ah = 0x02 := congrArg (fun r => r.ax.h) hrequest
      have hstatus := hint.status x w.1 hah
      have ha : (int13 x w.1).1 = a := congrArg Prod.fst hanswer
      rw [ha] at hstatus
      rw [hax, Bool.not_eq_true', ← hstatus]
      generalize (a.regs .ax).h = ah
      constructor
      · intro h
        rw [← UInt8.toNat_inj, ← UInt8.toNat_toUInt16, h]
        rfl
      · rintro rfl
        rfl
  obtain ⟨⟨⟩, c', t, hrun, ok, hlog, hstatus⟩ := hruns
  refine ⟨ok, ?_, ?_⟩
  · simp only [stubBios, UInt8.ofNat_toNat, hrun]
    exact hlog
  · simp only [stubBios, UInt8.ofNat_toNat, hrun]
    exact hstatus

theorem stubBios_reset (int13 : Handler σ) (caller : Caller σ) (dataOut : UInt32) (disk : Disk)
    (w : σ × List (Retry.Event Int13 Int13)) :
    let x := diskReset (stubBios int13 caller dataOut) disk w
    ∃ r ok, x.2.2 = w.2 ++ [.reset r ok] ∧ (r.ax.h = 0 ∧ r.dx.l = caller.behindReset.b2) ∧
      (x.1 = 1 ↔ ok = false) := by
  have hruns : Runs (calll caller.behindReset
      (X86.diskReset16 (Stage1.logging int13) caller.behindBootReset))
      (X86.pushArgs (caller.cpu w.1) [X86.int8Arg disk.id]) w fun _ c' t =>
      ∃ r ok, t.2 = w.2 ++ [.reset r ok] ∧ (r.ax.h = 0 ∧ r.dx.l = caller.behindReset.b2) ∧
        ((c'.regs .ax).word = 1 ↔ ok = false) := by
    apply X86.diskReset16_runs
    intro x a t c' hah hdl hanswer hax
    have hlog := Stage1.logging_log hanswer
    refine ⟨Stage1.request x, !a.cf, ?_, ⟨hah, hdl⟩, ?_⟩
    · rw [hlog, Stage1.diskEvent, if_pos (by exact hah)]
    · rw [hax]
      cases a.cf <;> decide
  obtain ⟨⟨⟩, c', t, hrun, r, ok, hlog, hr, hstatus⟩ := hruns
  refine ⟨r, ok, ?_, hr, ?_⟩
  · simp only [diskReset, stubBios, hrun]
    exact hlog
  · simp only [diskReset, stubBios, hrun]
    rw [← hstatus]
    split
    · rename_i hone
      simp [hone]
    · rename_i hother
      simp [hother]

/-! ## The loop -/

/-- The attempts are those of a client that resets the drive in between; it
makes one only if that succeeds. -/
theorem readAttempts_retries {int13 : Handler σ} (hint : Conventional int13) (caller : Caller σ)
    (disk : Disk) (chs : Chs) (count : UInt8) (dataOut : UInt32) (attempts : Nat) :
    ∀ (result : UInt16) (buffer : Sectors count.toNat) (w : σ × List (Retry.Event Int13 Int13)),
      (attempts = 0 → result ≠ 0) →
      let r := readAttempts (stubBios int13 caller dataOut) disk chs count.toNat attempts result
        buffer w
      ∃ log o, r.2.2 = w.2 ++ log ∧
        Retry.Retries (· = diskRead16 disk.id chs count dataOut)
          (fun r => r.ax.h = 0 ∧ r.dx.l = caller.behindReset.b2) attempts log o ∧
        (r.1.1 = 0 ↔ o = .done) ∧
        (attempts ≠ 0 → (((stubBios int13 caller dataOut).read disk.id chs count.toNat buffer
          w).1.1 = 0 ↔ log = [.attempt (diskRead16 disk.id chs count dataOut) true])) := by
  induction attempts with
  | zero =>
    intro result buffer w hresult
    refine ⟨[], .exhausted, (List.append_nil _).symm, .exhausted, ?_, fun h => absurd rfl h⟩
    simpa [readAttempts] using hresult rfl
  | succ attempts ih =>
    intro result buffer w _
    obtain ⟨ok, hlog, hok⟩ := stubBios_read hint caller disk.id chs count dataOut buffer w
    rw [readAttempts]
    rcases hr : (stubBios int13 caller dataOut).read disk.id chs count.toNat buffer w with
      ⟨⟨result', buffer'⟩, w'⟩
    rw [hr] at hlog hok
    dsimp only at hlog hok ⊢
    by_cases hzero : result' = 0
    · rw [if_neg (not_not.mpr hzero)]
      obtain rfl := hok.mp hzero
      exact ⟨_, .done, hlog, .done rfl, by simp [hzero], by simp [hzero]⟩
    · rw [if_pos hzero]
      obtain rfl : ok = false := by
        cases ok
        · rfl
        · exact absurd (hok.mpr rfl) hzero
      obtain ⟨r, ok', hlog', hr', hok'⟩ := stubBios_reset int13 caller dataOut disk w'
      rcases hreset : diskReset (stubBios int13 caller dataOut) disk w' with ⟨status, w''⟩
      rw [hreset] at hlog' hok'
      dsimp only at hlog' hok' ⊢
      by_cases hstuck : status = 1
      · rw [if_pos hstuck]
        obtain rfl := hok'.mp hstuck
        refine ⟨_, .stuck, ?_, .stuck rfl hr', by simp, by simp [hzero]⟩
        rw [hlog', hlog, List.append_assoc]
        rfl
      · rw [if_neg hstuck]
        obtain rfl : ok' = true := by
          cases ok'
          · exact absurd (hok'.mpr rfl) hstuck
          · rfl
        obtain ⟨log, o, hrest, hretries, hstatus, -⟩ := ih result' buffer' w'' (fun _ => hzero)
        refine ⟨_, o, ?_, .again rfl hr' hretries, hstatus, by simp [hzero]⟩
        rw [hrest, hlog', hlog, List.append_assoc, List.append_assoc]
        rfl

/-! ## `DISK_ReadSectors` -/

/-- `DISK_ReadSectors`, or nothing where `DISK_LBA2CHS` divides by zero. -/
def diskReadSectorsOrFault (B : Bios σ) (disk : Disk) (lba : UInt32) (n : Nat) (dataOut : Sectors n)
    (s : σ) : Option ((UInt16 × Sectors n) × σ) :=
  if disk.sectors = 0 ∨ disk.heads = 0 then none else some (diskReadSectors B disk lba n dataOut s)

/-- One to three reads, all alike, with one reset between two of them that
succeeded; every reset is for the drive, and the result is 0 if the last read
succeeded. -/
structure ReadsOnDrive (disk : Disk) (lba : UInt32) (count : UInt8) (dataOut : UInt32)
    (log : List (Retry.Event Int13 Int13)) (result : UInt16) : Prop where
  attempts : 1 ≤ log.countP Retry.Event.isAttempt ∧ log.countP Retry.Event.isAttempt ≤ 3
  alike : ∀ r ok, Retry.Event.attempt r ok ∈ log →
    r = diskRead16 disk.id (diskLba2Chs disk lba) count dataOut
  between : ∀ before mid after r ok r' ok',
    log = before ++ .attempt r ok :: (mid ++ .attempt r' ok' :: after) →
    (∀ e ∈ mid, e.isAttempt = false) → ∃ b, mid = [.reset b true]
  drive : ∀ r ok, Retry.Event.reset r ok ∈ log → r.ax.h = 0 ∧ r.dx.l = disk.id
  last : ∀ before r ok after, log = before ++ .attempt r ok :: after →
    (∀ e ∈ after, e.isAttempt = false) → (result = 0 ↔ ok = true)

/-- Where the resets are for the right drive, the log says it all. -/
theorem readsOnDrive_of_retries {disk : Disk} {lba : UInt32} {count : UInt8} {dataOut : UInt32}
    {log : List (Retry.Event Int13 Int13)} {result : UInt16} {R : Int13 → Prop} {o : Retry.Outcome}
    (h : Retry.Retries (· = diskRead16 disk.id (diskLba2Chs disk lba) count dataOut) R 3 log o)
    (hresult : result = 0 ↔ o = .done)
    (hdrive : ∀ r ok, Retry.Event.reset r ok ∈ log → r.ax.h = 0 ∧ r.dx.l = disk.id) :
    ReadsOnDrive disk lba count dataOut log result where
  attempts := ⟨h.attempts_pos (by decide), h.attempts_le⟩
  alike _ _ hmem := h.attempt_mem hmem
  between _ _ _ _ _ _ _ hlog hmid := by
    obtain ⟨b, -, hb⟩ := h.between hlog hmid
    exact ⟨b, hb⟩
  drive := hdrive
  last _ _ _ _ hlog hafter := hresult.trans (h.last_attempt hlog hafter)

/-- The first read succeeds. -/
def FirstReadSucceeds (int13 : Handler σ) (caller : Caller σ) (disk : Disk) (lba : UInt32)
    (count : UInt8) (dataOut : UInt32) (buffer : Sectors count.toNat) (s : σ) : Prop :=
  ((stubBios int13 caller dataOut).read disk.id (diskLba2Chs disk lba) count.toNat buffer
    (s, [])).1.1 = 0

/-- What `DISK_ReadSectors` does is a retry of three attempts. -/
theorem diskReadSectors_retries {int13 : Handler σ} (hint : Conventional int13)
    (caller : Caller σ) (disk : Disk) (lba dataOut : UInt32) (count : UInt8)
    (buffer : Sectors count.toNat) (s : σ) :
    let r := diskReadSectors (stubBios int13 caller dataOut) disk lba count.toNat buffer (s, [])
    ∃ o, Retry.Retries (· = diskRead16 disk.id (diskLba2Chs disk lba) count dataOut)
        (fun r => r.ax.h = 0 ∧ r.dx.l = caller.behindReset.b2) 3 r.2.2 o ∧
      (r.1.1 = 0 ↔ o = .done) ∧
      (FirstReadSucceeds int13 caller disk lba count dataOut buffer s ↔
        r.2.2 = [.attempt (diskRead16 disk.id (diskLba2Chs disk lba) count dataOut) true]) := by
  obtain ⟨log, o, hlog, hretries, hresult, hfirst⟩ := readAttempts_retries hint caller disk
    (diskLba2Chs disk lba) count dataOut 3 0 buffer (s, []) (by decide)
  intro r
  have hall : r.2.2 = log := hlog
  rw [hall]
  exact ⟨o, hretries, hresult, hfirst (by decide)⟩

/-- **`DISK_ReadSectors` retries on the drive** if the first read succeeds, or
the drive number happens to be the third byte of the address behind the call of
`diskReset16`; and in no other case. -/
theorem diskReadSectors_retries_iff {int13 : Handler σ} (hint : Conventional int13)
    (caller : Caller σ) (disk : Disk) (lba dataOut : UInt32) (count : UInt8)
    (buffer : Sectors count.toNat) (s : σ) :
    (∃ r, diskReadSectorsOrFault (stubBios int13 caller dataOut) disk lba count.toNat buffer
        (s, []) = some r ∧ ReadsOnDrive disk lba count dataOut r.2.2 r.1.1) ↔
    (disk.sectors ≠ 0 ∧ disk.heads ≠ 0) ∧
      (FirstReadSucceeds int13 caller disk lba count dataOut buffer s ∨
        caller.behindReset.b2 = disk.id) := by
  obtain ⟨o, hretries, hresult, hfirst⟩ :=
    diskReadSectors_retries hint caller disk lba dataOut count buffer s
  rw [diskReadSectorsOrFault]
  generalize diskReadSectors (stubBios int13 caller dataOut) disk lba count.toNat buffer (s, []) = r
    at hretries hresult hfirst
  split
  · rename_i hzero
    constructor
    · rintro ⟨r, hrun, -⟩
      cases hrun
    · rintro ⟨⟨hsectors, hheads⟩, -⟩
      exact (hzero.elim hsectors hheads).elim
  · rename_i hgeometry
    rw [not_or] at hgeometry
    constructor
    · rintro ⟨r', hrun, hreads⟩
      obtain rfl := Option.some.inj hrun
      refine ⟨hgeometry, ?_⟩
      by_cases hreset : ∃ b ok, Retry.Event.reset b ok ∈ r.2.2
      · obtain ⟨b, ok, hmem⟩ := hreset
        exact .inr ((hretries.reset_mem hmem).2.symm.trans (hreads.drive b ok hmem).2)
      · obtain ⟨a, rfl, hone⟩ := hretries.no_reset (by decide)
          (fun b ok hmem => hreset ⟨b, ok, hmem⟩)
        exact .inl (hfirst.mpr hone)
    · rintro ⟨-, hcond⟩
      refine ⟨r, rfl, readsOnDrive_of_retries hretries hresult ?_⟩
      intro b ok hmem
      rcases hcond with hgood | hdrive
      · rw [hfirst.mp hgood] at hmem
        simp at hmem
      · exact hdrive ▸ hretries.reset_mem hmem

/-! ## A drive that fails once -/

/-- A BIOS on which the `k`-th call fails or not, with status 4. -/
def sampleDrive (fails : Nat → Bool) : Handler Nat := fun c k =>
  (⟨Function.update c.regs .ax ⟨0, 0, if fails k then 4 else 0, 0⟩, fails k, false, c.mem⟩, k + 1)

theorem sampleDrive_conventional (fails : Nat → Bool) : Conventional (sampleDrive fails) where
  bp _ _ := rfl
  status c k _ := by
    show (if fails k then (4 : UInt8) else 0) = 0 ↔ fails k = false
    cases fails k <;> decide

/-- Calls from the first 64 KiB. -/
def sampleCaller : Caller Nat :=
  ⟨fun _ => Stage1.sampleCpu fun _ => ⟨0, 0, 0, 0⟩, ⟨0, 0, 0x90, 0x10⟩, ⟨0, 0, 0x8F, 0x40⟩,
    ⟨0, 0, 0x80, 0x30⟩⟩

/-- On drive 0 the retries are as they should be. -/
theorem diskReadSectors_retries_iff_sample :
    ∃ r, diskReadSectorsOrFault (stubBios (sampleDrive (· == 0)) sampleCaller 0x30000)
        ⟨0, 80, 2, 18⟩ 4 1 (Block.pad 512 []) (0, []) = some r ∧
      ReadsOnDrive ⟨0, 80, 2, 18⟩ 4 1 0x30000 r.2.2 r.1.1 :=
  (diskReadSectors_retries_iff (sampleDrive_conventional (· == 0)) sampleCaller ⟨0, 80, 2, 18⟩ 4
    0x30000 1 (Block.pad 512 []) 0).mpr ⟨by decide, .inr rfl⟩

/-- **The defect.** On the second floppy drive the reset behind the first read
goes to the first one. -/
theorem diskReadSectors_resets_other :
    Conventional (sampleDrive (· == 0)) ∧
    ∃ r, diskReadSectorsOrFault (stubBios (sampleDrive (· == 0)) sampleCaller 0x30000)
        ⟨1, 80, 2, 18⟩ 4 1 (Block.pad 512 []) (0, []) = some r ∧
      ¬ ReadsOnDrive ⟨1, 80, 2, 18⟩ 4 1 0x30000 r.2.2 r.1.1 := by
  have hreset : (diskReadSectors (stubBios (sampleDrive (· == 0)) sampleCaller 0x30000)
      ⟨1, 80, 2, 18⟩ 4 1 (Block.pad 512 []) (0, [])).2.2[1]?
        = some (.reset ⟨⟨0, 0⟩, 0, ⟨0, 0⟩, ⟨0, 0⟩, 0⟩ true) := by decide +kernel
  refine ⟨sampleDrive_conventional _, _, rfl, fun h => ?_⟩
  have hdrive := h.drive _ _ (List.mem_of_getElem? hreset)
  exact absurd hdrive.2 (by decide)

end Netclover.Stage2
