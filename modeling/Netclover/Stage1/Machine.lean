import Netclover.Lib.Numeral
import Netclover.Lib.Segments
import Netclover.Stage1.A20

/-!
# The machine of the boot sector (`boot.asm`)

`init` and `main` with `error` and `print`, instruction by instruction, on a
machine with a BIOS, a keyboard controller and the NMI gate of the CMOS, and
what they rely on: the services of the BIOS, and what the assembler puts into
the boot sector. `print` prints the string it is given (`print_runs`).
-/

namespace Netclover.Stage1

open I386 Asm I8042 Stage2

variable {σ : Type}

/-! ## The machine -/

/-- The services the boot sector uses. -/
structure Firmware (σ : Type) where
  int10 : Handler σ
  int13 : Handler σ
  int16 : Handler σ

/-- What else there is. -/
structure Board where
  /-- What was written to port 0x70 last; bit 7 keeps NMIs away. -/
  cmos : UInt8
  gdtr : Segments.Gdtr
  /-- All that was printed. This is no part of the machine. -/
  told : List UInt8

def Board.latch (board : Board) (v : UInt8) : Board := { board with cmos := v }

/-- The keyboard controller, the board, the BIOS and the log of its disk
service. -/
abbrev Machine (σ : Type) : Type := World × Board × σ × List (Retry.Event Int13 Int13)

namespace Firmware

variable (firmware : Firmware σ)

/-- Function 0x0E prints a character. -/
def video : Handler (Machine σ) := fun c w =>
  let (a, s) := firmware.int10 c w.2.2.1
  (a, w.1, { w.2.1 with told := w.2.1.told ++ if c.byte .ah = 0x0E then [c.byte .al] else [] },
    s, w.2.2.2)

def disk : Handler (Machine σ) := ((logging firmware.int13).right Board).right World

def keyboard : Handler (Machine σ) := fun c w =>
  let (a, s) := firmware.int16 c w.2.2.1
  (a, w.1, w.2.1, s, w.2.2.2)

end Firmware

/-! ## The routines -/

/-- What the assembler and the linker put into the boot sector: the number of
reserved sectors, and the addresses of the messages, of `g_GDT` and of
`g_GDTDesc`. -/
structure BootSector where
  reservedSectors : UInt16
  diskReadFail : UInt16
  diskResetFail : UInt16
  pressKey : UInt16
  gGDT : UInt16
  gGDTDesc : UInt16

/-- `lgdt [offset]`; 16-bit code loads only 24 bits of the base. -/
def lgdt (offset : UInt16) : Asm (Machine σ) Unit := fun (c, w) =>
  let desc := c.ds.toNat * 16 + offset.toNat
  .ok ((), c, w.1, { w.2.1 with
    gdtr := ⟨(c.load desc).word.toNat, { c.load (desc + 2) with b3 := 0 }.dword.toNat⟩ }, w.2.2)

/-- A pass of the loop of `print`. -/
def printPass (firmware : Firmware σ) (_ : Unit) : Asm (Machine σ) (Unit × Bool) := do
  lodsb
  orb .al .al
  if ← je then
    -- .done
    return ((), false)
  else
    movbImm .ah 0x0E
    movbImm .bh 0
    int firmware.video
    return ((), true)

/-- `print`, with a loop of at most `fuel` passes. -/
def print (firmware : Firmware σ) (fuel : Nat) : Asm (Machine σ) Unit := do
  pushw .si
  pushw .ax
  pushw .bx
  Proc.iterate .unfinished (printPass firmware) fuel ()
  popw .bx
  popw .ax
  popw .si
  retw

/-- Where the boot sector ends. -/
inductive Way where
  /-- `jmp 0FFFFh:0h` -/
  | restart
  /-- `jmp dword 08h:0x7E00` -/
  | stage2
  deriving DecidableEq, Repr

/-- `error`; like `main` and `EnableA20` it gets the addresses behind its
calls. -/
def error (firmware : Firmware σ) (sector : BootSector) (next : Nat → Bytes) (fuel : Nat) :
    Asm (Machine σ) Way := do
  callw (next 0) (print firmware fuel)
  movwImm .si sector.pressKey
  callw (next 1) (print firmware fuel)
  movbImm .ah 0
  int firmware.keyboard
  return .restart

/-- `main` from `.read_sucess` on. -/
def enterStage2 (bus : Bus (Machine σ)) (sector : BootSector) (next a20Next : Nat → Bytes)
    (fuel : Nat) : Asm (Machine σ) Way := do
  cli
  inAl bus 0x70
  orbImm .al 0x80
  outAl bus 0x70
  inAl bus 0x71
  callw (next 3) (enableA20 bus a20Next fuel)
  lgdt sector.gGDTDesc
  movFromCr0 .ax
  orbImm .al 1
  movToCr0 .ax
  jmpFar 0x08
  return .stage2

/-- `main`, with the fields of the boot sector. -/
def main (firmware : Firmware σ) (bus : Bus (Machine σ)) (sector : BootSector)
    (next errorNext a20Next : Nat → Bytes) (fuel : Nat) : Asm (Machine σ) Way := do
  xorb .dh .dh
  movbStore 0x7C24 .dl
  movwImm .ax 1
  callw (next 0) (bootLbaToChs 18 2)
  movwImm .bx 0x7E00
  movbImm .al sector.reservedSectors.toUInt8
  subbImm .al 1
  callw (next 1) (bootDiskRead firmware.disk (next 2) fuel)
  cmpwImm .ax 2
  if ← je then
    movwImm .si sector.diskResetFail
    error firmware sector errorNext fuel
  else
    -- .check_fail_read
    cmpwImm .ax 1
    if ← je then
      movwImm .si sector.diskReadFail
      error firmware sector errorNext fuel
    else
      enterStage2 bus sector next a20Next fuel

/-- `init`, up to `main`. -/
def init (mainAt : UInt16) : Asm σ Unit := do
  xorw .ax .ax
  movSeg .ds .ax
  movSeg .es .ax
  movSeg .ss .ax
  movSpImm 0x7C00
  pushSeg .es
  pushwImm mainAt
  retf

/-! ## One machine, two parts -/

section

variable (schedule : Schedule) (cmosReads : UInt16 → UInt8 → UInt8) {port : UInt16} (w : Machine σ)

end

/-- The boot sector is the same. -/
def SectorKept (mem mem' : Nat → UInt8) : Prop :=
  ∀ a, 0x7C00 ≤ a → a < 0x7E00 → mem' a = mem a

theorem SectorKept.trans {mem mem' mem'' : Nat → UInt8} (h : SectorKept mem mem')
    (h' : SectorKept mem' mem'') : SectorKept mem mem'' :=
  fun a hle hlt => (h' a hle hlt).trans (h a hle hlt)

/-- The sectors a read asks for are in its buffer, of a drive with the geometry
in the boot sector. -/
def Loaded (image : UInt8 → Nat → UInt8) (r : Int13) (mem : Nat → UInt8) : Prop :=
  r.ax.h = 0x02 → ∀ i < 512 * r.ax.l.toNat,
    mem (r.address + i) = image r.dx.l (((r.cylinder * 2 + r.head) * 18 + r.sector - 1) * 512 + i)

/-- A string stands at an address, with its end. -/
def Holds (mem : Nat → UInt8) : Nat → List UInt8 → Prop
  | a, [] => mem a = 0
  | a, b :: rest => b ≠ 0 ∧ mem a = b ∧ Holds mem (a + 1) rest

def Holds.decidable (mem : Nat → UInt8) : (a : Nat) → (text : List UInt8) →
    Decidable (Holds mem a text)
  | a, [] => inferInstanceAs (Decidable (mem a = 0))
  | a, b :: rest =>
    have := decidable mem (a + 1) rest
    inferInstanceAs (Decidable (b ≠ 0 ∧ mem a = b ∧ Holds mem (a + 1) rest))

instance (mem : Nat → UInt8) (a : Nat) (text : List UInt8) : Decidable (Holds mem a text) :=
  Holds.decidable mem a text

/-- The part behind the disk parameters is the same. -/
def CodeKept (mem mem' : Nat → UInt8) : Prop := ∀ a, 0x7C3E ≤ a → a < 0x7E00 → mem' a = mem a

theorem SectorKept.code {mem mem' : Nat → UInt8} (h : SectorKept mem mem') : CodeKept mem mem' :=
  fun a hle hlt => h a (by omega) hlt

/-- A string stands there. -/
def Message (mem : Nat → UInt8) (a : Nat) (text : List UInt8) : Prop :=
  0x7C3E ≤ a ∧ a + text.length < 0x7E00 ∧ Holds mem a text

theorem Holds.kept {mem mem' : Nat → UInt8} {a : Nat} {text : List UInt8}
    (hkept : CodeKept mem mem') (hle : 0x7C3E ≤ a) (hlt : a + text.length < 0x7E00)
    (h : Holds mem a text) : Holds mem' a text := by
  induction text generalizing a with
  | nil => exact (hkept a hle hlt).trans h
  | cons b rest ih =>
    rw [List.length_cons] at hlt
    obtain ⟨hb, hmem, hrest⟩ := h
    exact ⟨hb, (hkept a hle (by omega)).trans hmem, ih (by omega) (by omega) hrest⟩

theorem Message.kept {mem mem' : Nat → UInt8} {a : Nat} {text : List UInt8}
    (hkept : CodeKept mem mem') (h : Message mem a text) : Message mem' a text :=
  ⟨h.1, h.2.1, h.2.2.kept hkept h.1 h.2.1⟩

/-- Some bytes stand there. -/
def Data (mem : Nat → UInt8) (a : Nat) (bytes : List UInt8) : Prop :=
  0x7C3E ≤ a ∧ a + bytes.length ≤ 0x7E00 ∧ ∀ i < bytes.length, mem (a + i) = bytes.getD i 0

theorem Data.kept {mem mem' : Nat → UInt8} {a : Nat} {bytes : List UInt8}
    (hkept : CodeKept mem mem') (h : Data mem a bytes) : Data mem' a bytes := by
  obtain ⟨hle, hlt, hbytes⟩ := h
  exact ⟨hle, hlt, fun i hi => (hkept _ (by omega) (by omega)).trans (hbytes i hi)⟩

/-- Neither the stack nor the segments nor the boot sector change. -/
structure Calm (c c' : Cpu) : Prop extends Cpu.Framed c c' where
  kept : SectorKept c.mem c'.mem

/-- Nothing but a text has been printed. -/
structure Printed (text : List UInt8) (w w' : Machine σ) : Prop where
  world : w'.1 = w.1
  board : w'.2.1 = { w.2.1 with told := w.2.1.told ++ text }
  log : w'.2.2.2 = w.2.2.2

variable {firmware : Firmware σ} {image : UInt8 → Nat → UInt8}

theorem Calm.trans {c c' c'' : Cpu} (h : Calm c c') (h' : Calm c' c'') : Calm c c'' :=
  ⟨h.toFramed.trans h'.toFramed, h.kept.trans h'.kept⟩

theorem Printed.trans {text text' : List UInt8} {w w' w'' : Machine σ} (h : Printed text w w')
    (h' : Printed text' w' w'') : Printed (text ++ text') w w'' where
  world := h'.world.trans h.world
  board := by
    rw [h'.board, h.board, List.append_assoc]
  log := h'.log.trans h.log

end Netclover.Stage1
