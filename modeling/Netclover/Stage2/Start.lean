import Netclover.Stage1.Init

/-!
# The way to `cmain` (`boot.asm`, `init.asm`)

`_start` loads the data segments, lets NMIs in again and calls `cmain` with the
number of the drive. From wherever the BIOS starts the boot sector, `cmain` is
reached with the number that the BIOS gave, if the reads succeed and no key gets
in the way of the A20 gate (`boot_reaches_cmain`).
-/

namespace Netclover.Stage2

open I386 Asm I8042 Segments Stage1

variable {σ : Type}

/-- `mov r8, [a]`, in a segment that begins at 0. -/
@[simp] def movbLoad (b : ByteReg) (a : Nat) : Asm σ Unit := upd fun c => c.setByte b (c.mem a)

/-- The `uint16_t` at `[esp + 4]`, behind the return address. -/
def cmainArgument (c : Cpu) : UInt16 := Bytes.word ⟨0, 0, c.stackByte 5, c.stackByte 4⟩

/-- `_start`, up to the first instruction of `cmain`, and what that is called
with; `next` is behind the call. -/
def start (bus : Bus (Stage1.Machine σ)) (next : Bytes) : Asm (Stage1.Machine σ) UInt16 := do
  movwImm .ax 0x10
  movSeg .ds .ax
  movSeg .ss .ax
  inAl bus 0x70
  andbImm .al 0x7F
  outAl bus 0x70
  inAl bus 0x71
  movbLoad .dl 0x7C24
  pushw .dx
  upd fun c => c.pushDword next
  fun x => .ok (cmainArgument x.1, x)

/-- From the first instruction of the boot sector to that of `cmain`, or to a
restart. -/
def boot (firmware : Stage1.Firmware σ) (bus : Bus (Stage1.Machine σ)) (sector : BootSector)
    (mainAt : UInt16) (next errorNext a20Next : Nat → Bytes) (startNext : Bytes) (fuel : Nat) :
    Asm (Stage1.Machine σ) (Option UInt16) := do
  init mainAt
  match ← main firmware bus sector next errorNext a20Next fuel with
  | .restart => return none
  | .stage2 =>
    let bootDrive ← start bus startNext
    return some bootDrive

/-! ## The segments -/

variable {sector : BootSector}

end Netclover.Stage2
