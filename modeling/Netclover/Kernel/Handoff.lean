import Netclover.Lib.Segments
import Netclover.Lib.X86

/-!
# The handoff to the kernel (`bootutil.h`, `cmain`, `kinit`, `main`)

`cmain` fills `bootParams` under the i386 layout and calls the kernel's entry
with a pointer to it, by cdecl: the pointer is on the stack. `kinit` turns
long mode on, replaces the stack and jumps to `main`, which takes the pointer
from RDI and reads the record under the x86-64 layout. `kinit` does not write
EDI, and the two layouts agree on the first member only. `handoff_keeps_iff`
says what would have to hold for the record to come through all the same.

Addresses are physical; the first gigabyte is mapped to itself.
-/

namespace Netclover.Kernel

open CLayout Segments X86

/-! ## `bootutil.h` under two ABIs -/

/-- The types of the members of `bootParamsStruct`. -/
structure Abi where
  int : CType
  pointer : CType
  uint8 : CType

namespace Abi

/-- System V i386. -/
def i386 : Abi := ⟨⟨4, 4⟩, ⟨4, 4⟩, ⟨1, 1⟩⟩

/-- System V x86-64. -/
def x86_64 : Abi := ⟨⟨4, 4⟩, ⟨8, 8⟩, ⟨1, 1⟩⟩

variable (abi : Abi)

/-- `RegionCount` and `Regions`. -/
def memInfoStruct : List CType := [abi.int, abi.pointer]

/-- `Memory` and `BootDevice`. -/
def bootParamsStruct : List CType := [struct abi.memInfoStruct, abi.uint8]

/-- The offsets in `bootParamsStruct` of the three values. -/
def regionCount : Nat := offset abi.bootParamsStruct 0 + offset abi.memInfoStruct 0

def regions : Nat := offset abi.bootParamsStruct 0 + offset abi.memInfoStruct 1

def bootDevice : Nat := offset abi.bootParamsStruct 1

end Abi

-- where the members lie: the offsets agree on the first only
example :
    (Abi.i386.regionCount, Abi.i386.regions, Abi.i386.bootDevice) = (0, 4, 8) ∧
    (Abi.x86_64.regionCount, Abi.x86_64.regions, Abi.x86_64.bootDevice) = (0, 8, 16) := by
  decide

/-- The values of a `bootParamsStruct` of the second stage. -/
structure BootParams where
  regionCount : UInt32
  regions : UInt32
  bootDevice : UInt8

/-- The values a compiled program reads, as numbers. -/
structure Reading where
  regionCount : Nat
  regions : Nat
  bootDevice : Nat
  deriving DecidableEq, Repr

def BootParams.reading (params : BootParams) : Reading :=
  ⟨params.regionCount.toNat, params.regions.toNat, params.bootDevice.toNat⟩

/-- The record at address `p`, as a program of the ABI reads it. -/
def readBootParams (abi : Abi) (mem : Nat → UInt8) (p : Nat) : Reading where
  regionCount := load mem (p + abi.regionCount) abi.int.size
  regions := load mem (p + abi.regions) abi.pointer.size
  bootDevice := load mem (p + abi.bootDevice) abi.uint8.size

/-- Lines 46-47 of `cmain`, with what `MemDetect` stores. -/
def fillBootParams (p : Nat) (params : BootParams) (mem : Nat → UInt8) : Nat → UInt8 :=
  let mem := store (p + Abi.i386.bootDevice) Abi.i386.uint8.size params.bootDevice.toNat mem
  let mem := store (p + Abi.i386.regionCount) Abi.i386.int.size params.regionCount.toNat mem
  store (p + Abi.i386.regions) Abi.i386.pointer.size params.regions.toNat mem

/-- Under one ABI the record reads back. -/
theorem readBootParams_fill (p : Nat) (params : BootParams) (mem : Nat → UInt8) :
    readBootParams .i386 (fillBootParams p params mem) p = params.reading := by
  have hcount : params.regionCount.toNat < 256 ^ 4 := params.regionCount.toNat_lt
  have hregions : params.regions.toNat < 256 ^ 4 := params.regions.toNat_lt
  have hdevice : params.bootDevice.toNat < 256 ^ 1 := params.bootDevice.toNat_lt
  rw [readBootParams, BootParams.reading, Reading.mk.injEq]
  refine ⟨?_, ?_, ?_⟩
  · show load (store (p + 4) 4 _ (store (p + 0) 4 _ (store (p + 8) 1 _ mem))) (p + 0) 4 = _
    rw [load_store_of_disjoint _ (by omega), load_store _ hcount]
  · show load (store (p + 4) 4 _ (store (p + 0) 4 _ (store (p + 8) 1 _ mem))) (p + 4) 4 = _
    rw [load_store _ hregions]
  · show load (store (p + 4) 4 _ (store (p + 0) 4 _ (store (p + 8) 1 _ mem))) (p + 8) 1 = _
    rw [load_store_of_disjoint _ (by omega), load_store_of_disjoint _ (by omega),
      load_store _ hdevice]

/-! ## `kinit` -/

inductive Cr where
  | cr0 | cr3 | cr4
  deriving DecidableEq, Repr

/-- The processor in protected mode on flat segments, on the way to long mode,
which it has. The upper halves of the registers are out of reach until then. -/
structure Machine where
  regs : Reg → UInt32
  upper : Reg → UInt32
  cr : Cr → UInt32
  msr : UInt32 → UInt64
  gdtr : UInt32
  cs : UInt16
  /-- The code that `cs` was loaded with is marked as 64-bit code. -/
  codeLong : Bool
  /-- The task register is on a task of 16 bits. -/
  task16 : Bool
  mem : Nat → UInt8

/-- A register in long mode. -/
def Machine.reg64 (m : Machine) (r : Reg) : Nat := (m.upper r).toNat * 2 ^ 32 + (m.regs r).toNat

inductive Instruction where
  | lgdt (address : UInt32)
  | movImm (r : Reg) (v : UInt32)
  | movToCr (c : Cr) (r : Reg)
  | movFromCr (r : Reg) (c : Cr)
  | orImm (r : Reg) (v : UInt32)
  | rdmsr
  | wrmsr
  | jmpFar (selector : UInt16)

namespace Machine

variable (m : Machine)

def setReg (r : Reg) (v : UInt32) : Machine := { m with regs := Function.update m.regs r v }

/-- Paging is on. -/
def pg : Bool := m.cr .cr0 &&& 0x80000000 != 0

/-- The register `EFER`, and long mode enabled in it. -/
def efer : UInt32 := 0xC0000080

def lme : Bool := m.msr efer &&& 0x100 != 0

/-- The table that GDTR stands for. -/
def table : Gdtr := ⟨load m.mem m.gdtr.toNat 2, load m.mem (m.gdtr.toNat + 2) 4⟩

/-- With paging switched on or off, `EFER` tells whether long mode is active. -/
def tellLma : Machine :=
  let value := m.msr efer
  let value := if m.pg && m.lme then value ||| 0x400 else value &&& ~~~0x400
  { m with msr := Function.update m.msr efer value }

def step (m : Machine) : Instruction → Machine
  | .lgdt address => { m with gdtr := address }
  | .movImm r v => m.setReg r v
  | .movToCr .cr0 r => tellLma { m with cr := Function.update m.cr .cr0 (m.regs r) }
  | .movToCr c r => { m with cr := Function.update m.cr c (m.regs r) }
  | .movFromCr r c => m.setReg r (m.cr c)
  | .orImm r v => m.setReg r (m.regs r ||| v)
  | .rdmsr =>
    let value := m.msr (m.regs .rcx)
    (m.setReg .rax value.toUInt32).setReg .rdx (value >>> 32).toUInt32
  | .wrmsr =>
    let value := (m.regs .rdx).toUInt64 <<< 32 ||| (m.regs .rax).toUInt64
    -- whether long mode is active is not for writing
    let value := if m.regs .rcx = efer then value &&& ~~~0x400 ||| m.msr efer &&& 0x400 else value
    { m with msr := Function.update m.msr (m.regs .rcx) value }
  | .jmpFar selector =>
    let flags := ((m.table.descriptor m.mem selector).map (·.flags)).getD 0
    { m with cs := selector, codeLong := flags / 2 % 2 == 1 }

def run : List Instruction → Machine → Machine
  | [], m => m
  | i :: is, m => run is (m.step i)

end Machine

/-- The addresses the linker gives the symbols `kinit` names. -/
structure Symbols where
  initGDTDesc : UInt64
  initPagePml4 : UInt64
  stackTop : UInt64

/-- `symbol - 0xffffffffc0000000`. -/
def lowAddress (symbol : UInt64) : UInt32 := (symbol - 0xffffffffc0000000).toUInt32

/-- `kinit`, down to the jump to `reloc`, which jumps to `main`. -/
def kinit (sym : Symbols) : List Instruction := [
  .lgdt (lowAddress sym.initGDTDesc),
  .movImm .rax (lowAddress sym.initPagePml4),
  .movToCr .cr3 .rax,
  .movFromCr .rdx .cr4,
  .orImm .rdx ((1 : UInt32) <<< 5),
  .movToCr .cr4 .rdx,
  .movImm .rcx 0xC0000080,
  .rdmsr,
  .orImm .rax ((1 : UInt32) <<< 8),
  .wrmsr,
  .movFromCr .rbx .cr0,
  .orImm .rbx ((1 : UInt32) <<< 31),
  .movToCr .cr0 .rbx,
  .movImm .rsp (lowAddress sym.stackTop),
  .jmpFar 0x18]

/-- The registers an instruction writes. -/
def Instruction.writes : Instruction → List Reg
  | .movImm r _ | .movFromCr r _ | .orImm r _ => [r]
  | .rdmsr => [.rax, .rdx]
  | .lgdt _ | .movToCr _ _ | .wrmsr | .jmpFar _ => []

/-- What running some instructions leaves alone. -/
structure Machine.SameBut (written : List Reg) (m m' : Machine) : Prop where
  regs : ∀ r, r ∉ written → m'.regs r = m.regs r
  upper : m'.upper = m.upper
  mem : m'.mem = m.mem

theorem Machine.step_same (m : Machine) (i : Instruction) : m.SameBut i.writes (m.step i) := by
  constructor
  · intro r hr
    cases i with
    | movImm q v => exact Function.update_of_ne (by simpa [Instruction.writes] using hr) ..
    | movFromCr q c => exact Function.update_of_ne (by simpa [Instruction.writes] using hr) ..
    | orImm q v => exact Function.update_of_ne (by simpa [Instruction.writes] using hr) ..
    | rdmsr =>
      obtain ⟨hrax, hrdx⟩ : r ≠ .rax ∧ r ≠ .rdx := by simpa [Instruction.writes] using hr
      show Function.update (Function.update _ _ _) _ _ r = _
      rw [Function.update_of_ne hrdx, Function.update_of_ne hrax]
    | lgdt address => rfl
    | movToCr c q => cases c <;> rfl
    | wrmsr => rfl
    | jmpFar selector => rfl
  · cases i with
    | movToCr c q => cases c <;> rfl
    | _ => rfl
  · cases i with
    | movToCr c q => cases c <;> rfl
    | _ => rfl

/-- **What a run leaves alone** is what none of its instructions writes. -/
theorem Machine.run_same (is : List Instruction) (m : Machine) :
    m.SameBut (is.flatMap Instruction.writes) (Machine.run is m) := by
  induction is generalizing m with
  | nil => exact ⟨fun _ _ => rfl, rfl, rfl⟩
  | cons i is ih =>
    have hstep := m.step_same i
    have hrest := ih (m.step i)
    refine ⟨fun r hr => ?_, ?_, ?_⟩
    · rw [List.flatMap_cons, List.mem_append, not_or] at hr
      rw [Machine.run, hrest.regs r hr.2, hstep.regs r hr.1]
    · rw [Machine.run, hrest.upper, hstep.upper]
    · rw [Machine.run, hrest.mem, hstep.mem]

/-- `kinit` writes neither RDI nor memory. -/
theorem kinit_same (sym : Symbols) (m : Machine) :
    (Machine.run (kinit sym) m).reg64 .rdi = m.reg64 .rdi ∧
      (Machine.run (kinit sym) m).mem = m.mem := by
  have hsame := Machine.run_same (kinit sym) m
  have hrdi : Reg.rdi ∉ (kinit sym).flatMap Instruction.writes := by
    simp [kinit, Instruction.writes]
  exact ⟨by rw [Machine.reg64, Machine.reg64, hsame.upper, hsame.regs _ hrdi], hsame.mem⟩

/-! ## The record on the other side -/

/-- The state at `kernelStart(&bootParams)`, behind the call: the record under
the i386 layout, and its address above the return address. -/
structure Passed (m : Machine) (p : UInt32) (params : BootParams) : Prop where
  argument : load m.mem ((m.regs .rsp).toNat + 4) 4 = p.toNat
  record : readBootParams .i386 m.mem p.toNat = params.reading

/-- The record comes through: `main` gets a pointer to it and reads from it
what the second stage stored. -/
def Keeps (sym : Symbols) (m : Machine) (p : UInt32) (params : BootParams) : Prop :=
  let m' := Machine.run (kinit sym) m
  m'.reg64 .rdi = p.toNat ∧ readBootParams .x86_64 m'.mem (m'.reg64 .rdi) = params.reading

/-- A coincidence: RDI happens to hold the address, and the bytes that the
x86-64 layout takes for `Regions` and `BootDevice`, which are the boot device,
the padding behind it and what follows the record, happen to be these. -/
structure Coincides (m : Machine) (p : UInt32) (params : BootParams) : Prop where
  rdi : m.upper .rdi = 0 ∧ m.regs .rdi = p
  device : params.bootDevice.toNat = params.regions.toNat % 256
  padding : load m.mem (p.toNat + 9) 3 = params.regions.toNat / 256
  behind : load m.mem (p.toNat + 12) 4 = 0
  second : m.mem (p.toNat + 16) = params.bootDevice

theorem reg64_eq_iff {m : Machine} {r : Reg} {p : UInt32} :
    m.reg64 r = p.toNat ↔ m.upper r = 0 ∧ m.regs r = p := by
  have hlow := (m.regs r).toNat_lt
  have hp := p.toNat_lt
  rw [Machine.reg64, ← UInt32.toNat_inj, ← UInt32.toNat_inj]
  show _ ↔ (m.upper r).toNat = 0 ∧ _
  omega

/-- The bytes read as `Regions` are the boot device, the padding and what
follows. -/
theorem load_regions64 {m : Machine} {p : UInt32} {params : BootParams} (h : Passed m p params) :
    load m.mem (p.toNat + 8) 8 = params.bootDevice.toNat
      + 256 * (load m.mem (p.toNat + 9) 3 + 256 ^ 3 * load m.mem (p.toNat + 12) 4) := by
  have hdevice : load m.mem (p.toNat + 8) 1 = params.bootDevice.toNat :=
    congrArg Reading.bootDevice h.record
  rw [load_add m.mem (p.toNat + 8) 1 7, hdevice, load_add m.mem (p.toNat + 8 + 1) 3 4, Nat.pow_one]

/-- **The boot handoff keeps its record** by coincidence only. -/
theorem handoff_keeps_iff (sym : Symbols) (m : Machine) (p : UInt32) (params : BootParams)
    (h : Passed m p params) : Keeps sym m p params ↔ Coincides m p params := by
  obtain ⟨hrdi, hmem⟩ := kinit_same sym m
  have hcount : load m.mem (p.toNat + 0) 4 = params.regionCount.toNat :=
    congrArg Reading.regionCount h.record
  have hregions := load_regions64 h
  have hpadding := load_lt m.mem (p.toNat + 9) 3
  have hreading : ∀ q, readBootParams .x86_64 m.mem q
      = ⟨load m.mem (q + 0) 4, load m.mem (q + 8) 8, load m.mem (q + 16) 1⟩ := fun _ => rfl
  have hdev := params.bootDevice.toNat_lt
  have hreg := params.regions.toNat_lt
  rw [Keeps, hrdi, hmem]
  constructor
  · rintro ⟨hptr, hread⟩
    rw [hptr, hreading, BootParams.reading, Reading.mk.injEq] at hread
    -- eight bytes that are equal to a 32-bit pointer, taken apart
    obtain ⟨-, hreg64, hdev64⟩ := hread
    rw [hregions] at hreg64
    rw [load_one, UInt8.toNat_inj] at hdev64
    refine ⟨reg64_eq_iff.mp hptr, ?_, ?_, ?_, hdev64⟩
    · omega
    · omega
    · omega
  · intro hc
    have hptr := reg64_eq_iff.mpr hc.rdi
    refine ⟨hptr, ?_⟩
    rw [hptr, hreading, BootParams.reading, Reading.mk.injEq]
    refine ⟨hcount, ?_, ?_⟩
    · rw [hregions, hc.device, hc.padding, hc.behind]
      omega
    · rw [load_one, hc.second]

/-! ## A handoff -/

/-- Two regions at 0x7000, booted from the first hard disk. -/
def sampleParams : BootParams := ⟨2, 0x7000, 0x80⟩

/-- Behind the call: the record at 0x9000, and the stack at 0x6000 with the
return address and the pointer. EDI is 0. -/
def sampleCall : Machine where
  regs r := if r = .rsp then 0x6000 else 0
  upper _ := 0
  cr _ := 0
  msr _ := 0
  gdtr := 0
  cs := 8
  codeLong := false
  task16 := false
  mem := store 0x6000 4 0x7E40 (store 0x6004 4 0x9000 (fillBootParams 0x9000 sampleParams fun _ => 0))

def sampleSymbols : Symbols := ⟨0xffffffffc0110000, 0xffffffffc010e000, 0xffffffffc0112000⟩

theorem sample_passed : Passed sampleCall 0x9000 sampleParams where
  argument := by decide
  record := by decide

/-- At this call it is no coincidence. -/
theorem handoff_keeps_iff_sample : ¬ Keeps sampleSymbols sampleCall 0x9000 sampleParams := by
  rw [handoff_keeps_iff sampleSymbols sampleCall 0x9000 sampleParams sample_passed]
  intro h
  have hedi : (0 : UInt32) = 0x9000 := h.rdi.2
  exact absurd hedi (by decide)

/-- The record does not come through. -/
theorem handoff_loses_record : ¬ ∀ (sym : Symbols) (m : Machine) (p : UInt32) (params : BootParams),
    Passed m p params → Keeps sym m p params := by
  intro h
  obtain ⟨hptr, -⟩ := h sampleSymbols sampleCall 0x9000 sampleParams sample_passed
  rw [(kinit_same sampleSymbols sampleCall).1] at hptr
  have hzero : (0 : Nat) = 0x9000 := hptr
  exact absurd hzero (by decide)

end Netclover.Kernel
