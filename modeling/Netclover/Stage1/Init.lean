import Netclover.Stage1.Machine

/-!
# The boot sector (`boot.asm`)

Wherever the BIOS starts it from, the boot sector either enters the second stage
in protected mode, with all of it loaded from behind the boot sector, or it says
what failed and restarts; or the processor is reset when the A20 gate is opened,
by the byte of a key that nobody has read (`init_boots`).
-/

namespace Netclover.Stage1

open I386 Asm I8042 Stage2

variable {σ : Type} {firmware : Firmware σ} {image : UInt8 → Nat → UInt8}

/-! ## Reading the second stage -/

/-- In protected mode, with the code segment of the boot sector's descriptor
table, no interrupts of either kind, and the A20 gate open. -/
structure Enters (sector : BootSector) (c : Cpu) (w : Machine σ) : Prop where
  cs : c.cs = 0x08
  interrupts : c.interrupts = false
  protection : c.cr0.l &&& 1 = 1
  nmi : w.2.1.cmos &&& 0x80 = 0x80
  gdtr : w.2.1.gdtr = ⟨(c.load sector.gGDTDesc.toNat).word.toNat,
    { c.load (sector.gGDTDesc.toNat + 2) with b3 := 0 }.dword.toNat⟩
  gate : w.1.kbc.outputPort &&& 2 = 2
  keyboard : w.1.kbc.disabled = false ∧ w.1.kbc.input = none

/-- A text with `ENDL`, up to its zero. -/
def line (s : String) : List UInt8 := s.toList.map Numeral.ascii ++ [0x0D, 0x0A]

def diskReadFailText : List UInt8 := line "[Init] Failed to read from disk"

def diskResetFailText : List UInt8 := line "[Init] Failed to reset disk"

def pressKeyText : List UInt8 := line "[Init] Press any key to reboot"

/-- `g_GDT`. -/
def gGDTBytes : List UInt8 := [
  0, 0, 0, 0, 0, 0, 0, 0,
  -- 32-bit code segment
  0xFF, 0xFF, 0, 0, 0, 0b10011010, 0b11001111, 0,
  -- 32-bit data segment
  0xFF, 0xFF, 0, 0, 0, 0b10010010, 0b11001111, 0,
  -- 16-bit code segment
  0xFF, 0xFF, 0, 0, 0, 0b10011010, 0b00001111, 0,
  -- 16-bit data segment
  0xFF, 0xFF, 0, 0, 0, 0b10010010, 0b00001111, 0,
  -- 64-bit code segment
  0xFF, 0xFF, 0, 0, 0, 0b10011010, 0b10101111, 0,
  -- 64-bit data segment
  0xFF, 0xFF, 0, 0, 0, 0b10010010, 0b10101111, 0]

/-- `g_GDTDesc`: the limit in a word and the address in two. -/
def BootSector.gGDTDescBytes (sector : BootSector) : List UInt8 :=
  [UInt8.ofNat (gGDTBytes.length - 1), 0, sector.gGDT.toUInt8, (sector.gGDT >>> 8).toUInt8, 0, 0]

/-- The messages and the tables are where they are looked for. -/
structure BootSector.InPlace (sector : BootSector) (mem : Nat → UInt8) : Prop where
  readFail : Message mem sector.diskReadFail.toNat diskReadFailText
  resetFail : Message mem sector.diskResetFail.toNat diskResetFailText
  key : Message mem sector.pressKey.toNat pressKeyText
  table : Data mem sector.gGDT.toNat gGDTBytes
  desc : Data mem sector.gGDTDesc.toNat sector.gGDTDescBytes

theorem BootSector.InPlace.kept {sector : BootSector} {mem mem' : Nat → UInt8}
    (h : sector.InPlace mem) (hkept : CodeKept mem mem') : sector.InPlace mem' :=
  ⟨h.readFail.kept hkept, h.resetFail.kept hkept, h.key.kept hkept, h.table.kept hkept,
    h.desc.kept hkept⟩

end Netclover.Stage1
