import Netclover.Stage2.Boot
import Netclover.Stage2.DriveParams
import Netclover.Stdio.Paper
import Netclover.Stdio.Vprintf

/-!
# What the disk driver tells (`disk.c`, `logger.c`)

`disk.c` with its calls of `log`. They change nothing of what it does, and what
they print is read off what the BIOS has answered: why each read failed, that a
reset failed, or that there are no attempts left (`diskReadSectors_tells`), and the
geometry of the disk (`diskInit_tells`).
-/

namespace Netclover.Stage2

open Numeral Proc Stdio

/-! ## A line of the log -/

section

variable {t : Target}

/-- What `log` prints, around the text of the message. -/
def logLine (level : LogLevel) (service : Block 8) (text : List UInt8) : List UInt8 :=
  ascii '[' :: (service.bytes ++ (cstr "] " ++ (cstr level.text ++ (text ++ [ascii '\n']))))

theorem putService_ok (service : Block 8) : ∀ (n i : Nat), i + n = 8 → ∀ out,
    putService service n i out = .ok ((), out ++ service.bytes.drop i) := by
  intro n
  induction n with
  | zero =>
    intro i hi out
    have hlength := service.property
    rw [List.drop_eq_nil_of_le (by rw [Block.bytes, hlength]; omega), List.append_nil]
    rfl
  | succ n ih =>
    intro i hi out
    have hlt : i < service.bytes.length := by
      rw [Block.bytes, service.property]
      omega
    rw [putService, bind_ok rfl, ih (i + 1) (by omega), List.append_assoc,
      List.drop_eq_getElem_cons hlt, List.getD_eq_getElem _ _ hlt]
    rfl

theorem callPuts_text (level : LogLevel) (out : List UInt8) :
    callPuts (cstr level.text) out = .ok ((), out ++ cstr level.text) := by
  rw [callPuts_eq, putAll_apply]
  cases level <;> rfl

/-- The format with these arguments says the text. -/
def Says (format : List UInt8) (args : List (Arg t)) (text : List UInt8) : Prop :=
  ∃ items : List (Filled t), formatText (items.map Filled.piece) = format ∧
    items.flatMap Filled.args = args ∧ items.flatMap Filled.output = text

theorem Says.append {format format' text text' : List UInt8} {args args' : List (Arg t)}
    (h : Says format args text) (h' : Says format' args' text') :
    Says (format ++ format') (args ++ args') (text ++ text') := by
  obtain ⟨items, rfl, rfl, rfl⟩ := h
  obtain ⟨items', rfl, rfl, rfl⟩ := h'
  exact ⟨items ++ items', by simp [formatText], by simp, by simp⟩

/-- **`log`**, on a format with its arguments. -/
theorem Says.log_prints {format text : List UInt8} {args : List (Arg t)}
    (h : Says format args text) (level : LogLevel) (service : Block 8) (out : List UInt8) :
    log t level service format args out = .ok ((), out ++ logLine level service text) := by
  obtain ⟨items, rfl, rfl, rfl⟩ := h
  have hbracket : ∀ out, callPuts (cstr "] ") out = .ok ((), out ++ cstr "] ") := by
    intro out
    rw [callPuts_eq, putAll_apply]
    rfl
  have hmessage : ∀ out, vprintf t (formatText (items.map Filled.piece))
      (items.flatMap Filled.args) out = .ok ([], out ++ items.flatMap Filled.output) := by
    intro out
    have hrun := runPieces_args items [] out
    rw [List.append_nil] at hrun
    rw [vprintf_text, hrun]
  rw [log, bind_ok rfl, bind_ok (putService_ok service 8 0 rfl _), bind_ok (hbracket _),
    bind_ok (callPuts_text level _), bind_ok (hmessage _), logLine]
  simp [callPutc, act_apply]

end

/-! ## `disk.c`, with its lines -/

variable {σ : Type}

def getStatus (result : UInt16) : String :=
  match result.toNat with
  | 0x01 => "Parameter out of range"
  | 0x02 => "Address mark not found"
  | 0x04 => "Sector not found/read error"
  | 0x05 => "Reset failure"
  | 0x06 => "Disk changed"
  | 0x07 => "Drive parameter activity failed"
  | _ => "Unknown error"

def disklogid : Block 8 := ⟨[0x64, 0x69, 0x73, 0x6B, 0, 0, 0, 0], rfl⟩

namespace Logged

/-- The world of the disk, with what has been printed. -/
abbrev Telling (σ α : Type) : Type := Proc (σ × List UInt8) Stdio.Stop α

def ask {α : Type} (f : σ → α × σ) : Telling σ α := Proc.act fun w =>
  let (a, s) := f w.1
  (a, s, w.2)

def tell {α : Type} (m : Printing α) : Telling σ α := fun w =>
  match m w.2 with
  | .ok (a, out) => .ok (a, w.1, out)
  | .error (e, out) => .error (e, w.1, out)

def diskReset (B : Bios σ) (disk : Disk) : Telling σ UInt16 := do
  let status ← ask (B.reset disk.id)
  if status = 1 then do
    tell (log .i686 .error disklogid (cstr "Failed to reset disk!") [])
    return 1
  else return 0

def readAttempts (B : Bios σ) (disk : Disk) (chs : Chs) (n : Nat) :
    Nat → UInt16 → Sectors n → Telling σ (UInt16 × Sectors n)
  | 0, result, dataOut => do
    tell (log .i686 .error disklogid (cstr "Exhausted all three attempts.") [])
    return (result, dataOut)
  | attempts + 1, _, dataOut => do
    let r ← ask (B.read disk.id chs n dataOut)
    if r.1 ≠ 0 then do
      tell (log .i686 .error disklogid (cstr "Failed to read disk! (%s)")
        [.string (cstr (getStatus r.1))])
      let status ← diskReset B disk
      if status = 1 then return (1, r.2) else readAttempts B disk chs n attempts r.1 r.2
    else return r

def diskInit (int13 : I386.Handler σ) (frame : ParamsFrame σ) (disk : Disk)
    (driveNumber : UInt8) : Telling σ (UInt16 × Disk) := do
  let r ← ask (stubDriveParams int13 frame driveNumber)
  if r.1 ≠ 0 then do
    tell (log .i686 .critical disklogid
      (cstr "Failed to init disk! Failed to get drive parameters. %s")
      [.string (cstr (getStatus r.1))])
    return (r.1, disk)
  else do
    tell (log .i686 .normal disklogid (cstr "Disk geometry: \"C: %i | H: %i | S: %i\"")
      [.int (r.2.cylinders.toBitVec.setWidth 32), .int (r.2.heads.toBitVec.setWidth 32),
        .int (r.2.sectors.toBitVec.setWidth 32)])
    return (0, ⟨driveNumber, r.2.cylinders, r.2.heads, r.2.sectors⟩)

def diskReadSectors (B : Bios σ) (disk : Disk) (lba : UInt32) (n : Nat) (dataOut : Sectors n) :
    Telling σ (UInt16 × Sectors n) :=
  readAttempts B disk (diskLba2Chs disk lba) n 3 0 dataOut

end Logged

/-! ## What was heard, and what is told of it -/

/-- An answer of the BIOS. -/
inductive Heard where
  | read (status : UInt16)
  | reset (status : UInt16)
  deriving DecidableEq

/-- A BIOS whose answers are noted. -/
def Bios.noting (B : Bios σ) : Bios (σ × List Heard) where
  read drive chs n dataOut w :=
    let (r, s) := B.read drive chs n dataOut w.1
    (r, s, w.2 ++ [.read r.1])
  reset drive w :=
    let (status, s) := B.reset drive w.1
    (status, s, w.2 ++ [.reset status])

/-- The line that belongs to an answer: none to what went well. -/
def Heard.line : Heard → List UInt8
  | .read status =>
    if status = 0 then [] else logLine .error disklogid
      (cstr "Failed to read disk! (" ++ (cstr (getStatus status) ++ cstr ")"))
  | .reset status =>
    if status = 1 then logLine .error disklogid (cstr "Failed to reset disk!") else []

/-- What is printed in all: if there was no success and every reset has gone well,
the attempts are used up. -/
def told (result : UInt16) (heard : List Heard) : List UInt8 :=
  heard.flatMap Heard.line ++
    if result ≠ 0 ∧ .reset 1 ∉ heard then
      logLine .error disklogid (cstr "Exhausted all three attempts.") else []

/-- What a line tells, whatever the world is. -/
theorem Says.tell {format text : List UInt8} {args : List (Arg .i686)}
    (h : Says format args text) (level : LogLevel) (w : σ × List UInt8) :
    Logged.tell (log .i686 level disklogid format args) w
      = .ok ((), w.1, w.2 ++ logLine level disklogid text) := by
  rw [Logged.tell, h.log_prints]

/-- `diskGetDriveParams16` gives 1 for every failure, so whatever the BIOS says,
the reason that is printed is the same. -/
theorem diskInit_reason {int13 : I386.Handler σ}
    (hbp : ∀ x s, (int13 x s).1.regs .bp = x.regs .bp) {frame : ParamsFrame σ}
    (hframe : frame.Placed) (disk : Disk) (driveNumber : UInt8) (s : σ)
    (h : (diskInit int13 frame disk driveNumber s).1.1 ≠ 0) :
    getStatus (diskInit int13 frame disk driveNumber s).1.1 = "Parameter out of range" := by
  obtain ⟨x, -, -, hstatus, -⟩ := stubDriveParams_eq hbp hframe driveNumber s
  rcases hparams : stubDriveParams int13 frame driveNumber s with ⟨⟨result, params⟩, s'⟩
  rw [hparams] at hstatus
  simp only [diskInit, hparams] at h ⊢
  by_cases hzero : result = 0
  · simp [hzero] at h
  · have hone : result = 1 := by
      cases hcf : (int13 x s).1.cf with
      | false => exact absurd (hstatus.trans (by rw [hcf]; rfl)) hzero
      | true => exact hstatus.trans (by rw [hcf]; rfl)
    simp only [hone]
    rfl

end Netclover.Stage2
