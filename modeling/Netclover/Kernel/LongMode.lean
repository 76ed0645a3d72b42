import Netclover.Kernel.Handoff
import Netclover.Kernel.Windows
import Netclover.Lib.Segments

/-!
# Into long mode (`kernel/prekernel.asm`)

`kinit` starts where `cmain` has put the kernel's file, with the page tables and
the descriptors that the assembler has written down there. None of its
instructions faults, and it leaves the processor in long mode, on 64-bit code and
with exactly two windows on the first gigabyte (`kinit_enters`). `initPaging`
narrows one of them, and the stack of `main` is in it (`stack_survives_iff`).
-/

namespace Netclover.Kernel

open CLayout Paging Segments

/-! ## The section of the assembler, byte by byte -/

/-- Physical memory, by its quadwords. -/
def quads (mem : Nat → UInt8) : Mem := fun pa => UInt64.ofNat (load mem pa 8)

/-- `. = 0x100000` of `linker.ld`, where the file of the kernel belongs. -/
def loadAddress : Nat := 0x100000

/-- The descriptors from `init_GDT` on: none, 32-bit code and data, 64-bit code
and data. -/
def initGDTBytes : List UInt8 := [
  0, 0, 0, 0, 0, 0, 0, 0,
  0xFF, 0xFF, 0, 0, 0, 0b10011010, 0b11001111, 0,
  0xFF, 0xFF, 0, 0, 0, 0b10010010, 0b11001111, 0,
  0xFF, 0xFF, 0, 0, 0, 0b10011010, 0b10101111, 0,
  0xFF, 0xFF, 0, 0, 0, 0b10010010, 0b10101111, 0]

namespace Prekernel

variable (K : Prekernel)

def initGDT : UInt64 := K.pml4.addr + UInt64.ofNat 0x4000

def initGDTDesc : UInt64 := K.pml4.addr + UInt64.ofNat 0x4028

/-- The six bytes at `init_GDTDesc`, the limit and the address, as a number. -/
def gdtDesc : Nat :=
  (lowAddress K.initGDTDesc - lowAddress K.initGDT - 1).toUInt16.toNat
    + 256 ^ 2 * (lowAddress K.initGDT).toNat

/-- The byte `i` of the section, up to the end of `init_GDTDesc`. -/
def byte (i : Nat) : UInt8 :=
  if i < 0x4000 then UInt8.ofNat ((K.word (i / 8)).toNat / 256 ^ (i % 8))
  else if i < 0x4028 then initGDTBytes.getD (i - 0x4000) 0
  else UInt8.ofNat (K.gdtDesc / 256 ^ (i - 0x4028))

/-- The file of the kernel has the section where it is to be loaded. -/
def InFile (file : List UInt8) : Prop :=
  loadAddress ≤ K.pml4.phys ∧
    ∀ i < 0x402E, file[K.pml4.phys - loadAddress + i]? = some (K.byte i)

/-- The section is in memory, with its descriptors. -/
def InMemory (mem : Nat → UInt8) : Prop := ∀ i < 0x402E, mem (K.pml4.phys + i) = K.byte i

/-- The addresses that `kinit` names. -/
def symbols (stackTop : UInt64) : Symbols := ⟨K.initGDTDesc, K.pml4.addr, stackTop⟩

variable {K}

theorem InFile.inMemory {file : List UInt8} {mem : Nat → UInt8} (hfile : K.InFile file)
    (hloaded : ∀ i < file.length, mem (loadAddress + i) = file.getD i 0) : K.InMemory mem := by
  intro i hi
  have hat := hfile.2 i hi
  obtain ⟨hlt, -⟩ := List.getElem?_eq_some_iff.mp hat
  have haddr : K.pml4.phys + i = loadAddress + (K.pml4.phys - loadAddress + i) := by
    have := hfile.1
    omega
  rw [haddr, hloaded _ hlt, List.getD_eq_getElem?_getD, hat, Option.getD_some]

/-- The tables of the section are its first four pages. -/
theorem loaded_quads {mem : Nat → UInt8} (h : ∀ i < 0x4000, mem (K.pml4.phys + i) = K.byte i) :
    K.Loaded (quads mem) := by
  intro k hk
  have hdigits : ∀ i < 8, mem (K.pml4.phys + 8 * k + i)
      = UInt8.ofNat ((K.word k).toNat / 256 ^ i) := by
    intro i hi
    have hindex : (8 * k + i) / 8 = k ∧ (8 * k + i) % 8 = i := by omega
    rw [Nat.add_assoc, h _ (by omega), byte, if_pos (by omega), hindex.1, hindex.2]
  have hword : (K.word k).toNat < 256 ^ 8 := (K.word k).toNat_lt
  rw [quads, load_digits _ hdigits, Nat.mod_eq_of_lt hword, UInt64.ofNat_toNat]

/-- A symbol of the section, in physical memory. -/
theorem toNat_lowAddress (K : Prekernel) {n : Nat} (hn : n ≤ 0x4028) :
    (lowAddress (K.pml4.addr + UInt64.ofNat n)).toNat = K.pml4.phys + n := by
  have haddr := K.pml4.toNat_addr
  have hlt := K.pml4.phys_lt
  have hpage : (0xffffffffc0000000 : UInt64).toNat = 2 ^ 64 - 2 ^ 30 := rfl
  rw [lowAddress, UInt64.toNat_toUInt32, UInt64.toNat_sub, UInt64.toNat_add, UInt64.toNat_ofNat',
    hpage]
  omega

/-- What `lgdt` finds at `init_GDTDesc`. -/
theorem InMemory.gdtr {mem : Nat → UInt8} (h : K.InMemory mem) :
    load mem (K.pml4.phys + 0x4028) 2 = 39 ∧
      load mem (K.pml4.phys + 0x4028 + 2) 4 = K.pml4.phys + 0x4000 := by
  have hlt := K.pml4.phys_lt
  have htable : (lowAddress K.initGDT).toNat = K.pml4.phys + 0x4000 :=
    K.toNat_lowAddress (by decide)
  have hdesc : (lowAddress K.initGDTDesc).toNat = K.pml4.phys + 0x4028 :=
    K.toNat_lowAddress (by decide)
  have hlimit : (lowAddress K.initGDTDesc - lowAddress K.initGDT - 1).toUInt16.toNat = 39 := by
    have hone : (1 : UInt32).toNat = 1 := rfl
    rw [UInt32.toNat_toUInt16, UInt32.toNat_sub, UInt32.toNat_sub, htable, hdesc, hone]
    omega
  have hdigit : ∀ i < 6, mem (K.pml4.phys + 0x4028 + i) = UInt8.ofNat (K.gdtDesc / 256 ^ i) := by
    intro i hi
    rw [Nat.add_assoc, h _ (by omega), byte, if_neg (by omega), if_neg (by omega),
      Nat.add_sub_cancel_left]
  have hnumber : K.gdtDesc = 39 + 256 ^ 2 * (K.pml4.phys + 0x4000) := by
    rw [gdtDesc, hlimit, htable]
  constructor
  · rw [load_digits _ fun i hi => hdigit i (by omega), hnumber, Nat.add_mul_mod_self_left,
      Nat.mod_eq_of_lt (by decide)]
  · have hrest : ∀ i < 4, mem (K.pml4.phys + 0x4028 + 2 + i)
        = UInt8.ofNat (K.gdtDesc / 256 ^ 2 / 256 ^ i) := by
      intro i hi
      rw [Nat.div_div_eq_div_mul, ← Nat.pow_add, ← hdigit (2 + i) (by omega), Nat.add_assoc]
    rw [load_digits _ hrest, hnumber]
    omega

/-- A descriptor of `init_GDT` is as it is written down. -/
theorem InMemory.descriptor {mem : Nat → UInt8} (h : K.InMemory mem) {n : Nat} (hn : n < 5) :
    Descriptor.read mem (K.pml4.phys + 0x4000 + 8 * n)
      = Descriptor.read (fun a => initGDTBytes.getD a 0) (8 * n) := by
  refine Descriptor.read_congr fun i hi => ?_
  rw [Nat.add_assoc, Nat.add_assoc, h _ (by omega), byte, if_neg (by omega), if_pos (by omega),
    Nat.add_sub_cancel_left]

end Prekernel

/-! ## What the processor asks of the instructions -/

namespace Machine

variable (m : Machine)

/-- Protected mode, and the extension of physical addresses. -/
def pe : Bool := m.cr .cr0 &&& 1 != 0

def pae : Bool := m.cr .cr4 &&& 0x20 != 0

/-- Paging, once it is on, is to go through five levels of tables, not four. -/
def la57 : Bool := m.cr .cr4 &&& 0x1000 != 0

/-- `EFER` tells that long mode is active. -/
def lma : Bool := m.msr efer &&& 0x400 != 0

/-- Long mode is active. -/
def LongMode : Prop :=
  m.pe = true ∧ m.pg = true ∧ m.pae = true ∧ m.lme = true ∧ m.lma = true

/-- The code has the privilege of a kernel. -/
def Ring0 : Prop := m.cs &&& 3 = 0

/-- The entry `n` of the table can be seen at the address that GDTR has for it. -/
def Sees (n : Nat) : Prop := ∀ i < 8,
  walk (quads m.mem) (m.cr .cr3).toUInt64 (UInt64.ofNat (m.table.base + n * 8 + i))
    = some (m.table.base + n * 8 + i)

/-- An instruction does not fault, for its privilege or for a bit that it changes.
Paging is for protected mode. Long mode needs the extension to start, which it
then keeps, as it keeps the mode, and it does not start under 64-bit code or a
16-bit task. A far jump is to code of the kernel that can be seen, of 64 bits or
of 32 but not of both. -/
def Allowed : Instruction → Prop
  | .movToCr .cr0 r => m.Ring0 ∧ (m.regs r &&& 0x80000000 ≠ 0 → m.regs r &&& 1 ≠ 0 ∧
      (m.lme = true → m.pae = true ∧ (m.pg = false → m.codeLong = false ∧ m.task16 = false)))
  | .movToCr .cr4 r => m.Ring0 ∧ (m.LongMode → m.regs r &&& 0x20 ≠ 0)
  | .wrmsr => m.Ring0 ∧ (m.pg = true → (m.step .wrmsr).lme = m.lme)
  | .jmpFar selector => m.Ring0 ∧ selector &&& 3 = 0 ∧
      (m.LongMode → m.Sees (selector.toNat / 8)) ∧
      ∃ d, m.table.descriptor m.mem selector = some d ∧ d.Runs 0 ∧ d.flags / 2 % 4 ≠ 3
  | .lgdt _ | .movToCr .cr3 _ | .movFromCr _ _ | .rdmsr => m.Ring0
  | .movImm _ _ | .orImm _ _ => True

/-- None of the instructions faults. -/
def AllowedRun : List Instruction → Machine → Prop
  | [], _ => True
  | i :: is, m => m.Allowed i ∧ AllowedRun is (m.step i)

/-- The far jump marks the descriptor that it has loaded. -/
def marked : Machine := { m with mem := m.table.mark m.cs m.mem }

/-- The processor as the loader has it: in protected mode with the privilege of a
kernel, with paging off, which will have four levels, and with nothing loaded that
keeps long mode from starting. -/
structure Unpaged : Prop where
  pe : m.pe = true
  pg : m.pg = false
  ring0 : m.Ring0
  codeLong : m.codeLong = false
  task16 : m.task16 = false
  la57 : m.la57 = false

end Machine

/-! ## `kinit` -/

/-- What `kinit` has switched on, and what it has left as it was. The registers
are the lower halves: nothing is promised of the upper ones. -/
structure SwitchedOn (sym : Symbols) (m m' : Machine) : Prop where
  cr0 : m'.cr .cr0 = m.cr .cr0 ||| 0x80000000
  cr3 : m'.cr .cr3 = lowAddress sym.initPagePml4
  cr4 : m'.cr .cr4 = m.cr .cr4 ||| 0x20
  /-- Long mode is enabled and, since paging is on, active. -/
  efer : m'.msr Machine.efer = m.msr Machine.efer ||| 0x500
  msr : ∀ a, a ≠ Machine.efer → m'.msr a = m.msr a
  gdtr : m'.gdtr = lowAddress sym.initGDTDesc
  cs : m'.cs = 0x18
  rsp : m'.regs .rsp = lowAddress sym.stackTop
  regs : ∀ r, r ∉ [.rax, .rbx, .rcx, .rdx, .rsp] → m'.regs r = m.regs r

/-- A bit of the lower half, set by way of `rdmsr` and `wrmsr`. -/
theorem halves_or (v : UInt64) :
    (v >>> 32).toUInt32.toUInt64 <<< 32 ||| (v.toUInt32 ||| 0x100).toUInt64 = v ||| 0x100 := by
  have hlow : (v.toUInt32 ||| 0x100).toUInt64.toNat = v.toNat % 2 ^ 32 ||| 0x100 := by
    rw [UInt32.toNat_toUInt64, UInt32.toNat_or, UInt64.toNat_toUInt32]
    rfl
  have hhigh : ((v >>> 32).toUInt32.toUInt64 <<< 32).toNat = v.toNat / 2 ^ 32 * 2 ^ 32 := by
    have hlt := v.toNat_lt
    have hshift : (v >>> 32).toUInt32.toUInt64.toNat = v.toNat / 2 ^ 32 := by
      rw [UInt32.toNat_toUInt64, UInt64.toNat_toUInt32, UInt64.toNat_shiftRight]
      show v.toNat >>> 32 % 2 ^ 32 = _
      rw [Nat.shiftRight_eq_div_pow]
      omega
    rw [UInt64.toNat_shiftLeft, hshift]
    show (v.toNat / 2 ^ 32) <<< 32 % 2 ^ 64 = _
    rw [Nat.shiftLeft_eq]
    omega
  have hsplit : v.toNat / 2 ^ 32 * 2 ^ 32 ||| v.toNat % 2 ^ 32 = v.toNat := by
    have hor := Nat.shiftLeft_add_eq_or_of_lt (Nat.mod_lt v.toNat (by decide : 0 < 2 ^ 32))
      (v.toNat / 2 ^ 32)
    rw [Nat.shiftLeft_eq] at hor
    rw [← hor]
    omega
  apply UInt64.toNat_inj.mp
  rw [UInt64.toNat_or, hhigh, hlow, ← Nat.or_assoc, hsplit, UInt64.toNat_or]
  rfl

/-- `wrmsr` leaves alone whether long mode is active. -/
theorem keep_lma (v : UInt64) :
    (v ||| 0x100) &&& ~~~0x400 ||| v &&& 0x400 = v ||| 0x100 := by
  have hsplit : ∀ set kept : UInt64,
      (v ||| set) &&& ~~~kept ||| v &&& kept = v ||| set &&& ~~~kept := by
    intro set kept
    apply UInt64.toBitVec_inj.mp
    ext i hi
    simp only [UInt64.toBitVec_or, UInt64.toBitVec_and, UInt64.toBitVec_not, BitVec.getElem_or,
      BitVec.getElem_and, BitVec.getElem_not]
    cases v.toBitVec[i] <;> cases kept.toBitVec[i] <;> simp
  exact (hsplit 0x100 0x400).trans (congrArg (v ||| ·) (by decide))

theorem or_and_distrib32 (x y b : UInt32) : (x ||| y) &&& b = x &&& b ||| y &&& b := by
  apply UInt32.toBitVec_inj.mp
  ext i hi
  simp [Bool.and_or_distrib_right]

/-- A bit that is set in one of two words is set in both together. -/
theorem or_and_ne_zero {x y b : UInt32} (h : x &&& b ≠ 0 ∨ y &&& b ≠ 0) :
    (x ||| y) &&& b ≠ 0 := by
  rw [or_and_distrib32, ne_eq, UInt32.or_eq_zero_iff, not_and_or]
  exact h

theorem or_and_ne_zero64 {x y b : UInt64} (h : y &&& b ≠ 0) : (x ||| y) &&& b ≠ 0 := by
  have hboth : (x ||| y) &&& b = x &&& b ||| y &&& b := by
    apply UInt64.toBitVec_inj.mp
    ext i hi
    simp [Bool.and_or_distrib_right]
  rw [hboth, ne_eq, UInt64.or_eq_zero_iff, not_and]
  exact fun _ => h

/-- Of the registers that `wrmsr` writes there is only `EFER`, and `mov cr0` tells
there that long mode is active. -/
theorem kinit_msr (sym : Symbols) (m : Machine) : (Machine.run (kinit sym) m).msr
    = Function.update m.msr Machine.efer (m.msr Machine.efer ||| 0x500) := by
  -- in front of `mov cr0`, and with the new value in CR0
  let before := Machine.run ((kinit sym).take 12) m
  let paged : Machine := { before with cr := Function.update before.cr .cr0 (before.regs .rbx) }
  have hmsr : paged.msr = Function.update m.msr Machine.efer (m.msr Machine.efer ||| 0x100) := by
    rw [← keep_lma, ← halves_or]
    rfl
  have hpg : paged.pg = true := bne_iff_ne.mpr (or_and_ne_zero (.inr (by decide)))
  have hlme : paged.lme = true := by
    refine bne_iff_ne.mpr ?_
    rw [hmsr, Function.update_self]
    exact or_and_ne_zero64 (by decide)
  show (Machine.tellLma paged).msr = _
  rw [Machine.tellLma, hpg, hlme]
  show Function.update paged.msr _ (paged.msr Machine.efer ||| 0x400) = _
  rw [hmsr, Function.update_self, Function.update_idem, UInt64.or_assoc]
  rfl

theorem kinit_switchedOn (sym : Symbols) (m : Machine) :
    SwitchedOn sym m (Machine.run (kinit sym) m) where
  cr0 := rfl
  cr3 := rfl
  cr4 := rfl
  efer := by rw [kinit_msr, Function.update_self]
  msr a ha := by rw [kinit_msr, Function.update_of_ne ha]
  gdtr := rfl
  cs := rfl
  rsp := rfl
  regs r hr := by
    refine (Machine.run_same (kinit sym) m).regs r fun hwritten => hr ?_
    have hsub : (kinit sym).flatMap Instruction.writes ⊆ [.rax, .rbx, .rcx, .rdx, .rsp] := by
      simp [kinit, Instruction.writes]
    exact hsub hwritten

theorem SwitchedOn.longMode {sym : Symbols} {m m' : Machine} (h : SwitchedOn sym m m')
    (hpe : m.pe = true) : m'.LongMode := by
  simp only [Machine.LongMode, Machine.pe, Machine.pg, Machine.pae, Machine.lme, Machine.lma,
    bne_iff_ne, h.cr0, h.cr4, h.efer] at hpe ⊢
  exact ⟨or_and_ne_zero (.inl hpe), or_and_ne_zero (.inr (by decide)),
    or_and_ne_zero (.inr (by decide)), or_and_ne_zero64 (by decide), or_and_ne_zero64 (by decide)⟩

theorem SwitchedOn.la57 {sym : Symbols} {m m' : Machine} (h : SwitchedOn sym m m')
    (hla57 : m.la57 = false) : m'.la57 = false := by
  have hbit : (0x20 : UInt32) &&& 0x1000 = 0 := by decide
  rw [Machine.la57, h.cr4, or_and_distrib32, hbit, UInt32.or_zero]
  exact hla57

namespace Prekernel

variable {K : Prekernel} {m : Machine}

/-- The table that `kinit` loads. -/
theorem InMemory.table (h : K.InMemory m.mem) (hgdtr : m.gdtr = lowAddress K.initGDTDesc) :
    m.table = ⟨39, K.pml4.phys + 0x4000⟩ := by
  have hdesc : (lowAddress K.initGDTDesc).toNat = K.pml4.phys + 0x4028 :=
    K.toNat_lowAddress (by decide)
  obtain ⟨hlimit, hbase⟩ := h.gdtr
  rw [Machine.table, hgdtr, hdesc, hlimit, hbase]

/-- The descriptor that `kinit` jumps to. -/
theorem InMemory.code (h : K.InMemory m.mem) (hgdtr : m.gdtr = lowAddress K.initGDTDesc) :
    m.table.descriptor m.mem 0x18 = some ⟨0, 0xFFFFF, 0x9A, 0xA⟩ := by
  rw [h.table hgdtr]
  refine congrArg some ((h.descriptor (by decide : 3 < 5)).trans ?_)
  decide

/-- It can be seen when paging is on. -/
theorem InMemory.sees (h : K.InMemory m.mem) (hgdtr : m.gdtr = lowAddress K.initGDTDesc)
    (hcr3 : m.cr .cr3 = lowAddress K.pml4.addr) (hfits : K.pml4.phys + 0x4028 ≤ 2 ^ 30) {n : Nat}
    (hn : n < 5) : m.Sees n := by
  intro i hi
  rw [h.table hgdtr]
  dsimp only
  have haddr : (UInt64.ofNat (K.pml4.phys + 0x4000 + n * 8 + i)).toNat
      = K.pml4.phys + 0x4000 + n * 8 + i := by
    rw [UInt64.toNat_ofNat']
    omega
  have hroot : (m.cr .cr3).toUInt64 = K.cr3 := by
    rw [hcr3]
    rfl
  have hwalk := (K.walk_loaded (loaded_quads fun i hi => h i (by omega))).2
    (UInt64.ofNat (K.pml4.phys + 0x4000 + n * 8 + i)) (by omega)
  rw [hroot, hwalk, haddr]

/-- Of the memory, the mark is in the access byte of the descriptor, and that
stays what it was otherwise. -/
theorem InMemory.marked (h : K.InMemory m.mem) (hgdtr : m.gdtr = lowAddress K.initGDTDesc)
    (hcs : m.cs = 0x18) :
    (∀ a, a ≠ K.pml4.phys + 0x401D → m.marked.mem a = m.mem a) ∧
    m.marked.table.descriptor m.marked.mem m.marked.cs
      = some (Descriptor.accessed ⟨0, 0xFFFFF, 0x9A, 0xA⟩) := by
  have htable := h.table hgdtr
  have hselector : UInt16.toNat 0x18 = 24 := rfl
  have hmarked : ∀ a, a ≠ K.pml4.phys + 0x401D → m.marked.mem a = m.mem a := by
    intro a ha
    refine Gdtr.mark_of_ne _ _ _ ?_
    rw [htable, hcs, hselector]
    omega
  have htable' : m.marked.table = m.table := by
    have hdesc : m.gdtr.toNat = K.pml4.phys + 0x4028 := by
      rw [hgdtr]
      exact K.toNat_lowAddress (by decide)
    have hload : ∀ b n, K.pml4.phys + 0x4028 ≤ b → load m.marked.mem b n = load m.mem b n :=
      fun b n hb => load_congr fun a ha _ => hmarked a (by omega)
    show (⟨load m.marked.mem m.gdtr.toNat 2, load m.marked.mem (m.gdtr.toNat + 2) 4⟩ : Gdtr) = _
    rw [hload _ _ (by omega), hload _ _ (by omega)]
    rfl
  have hcode := h.code hgdtr
  have hmem : m.marked.mem = m.table.mark m.cs m.mem := rfl
  have hcs' : m.marked.cs = 0x18 := hcs
  rw [htable] at hcode
  rw [htable', hmem, hcs', htable, hcs]
  refine ⟨fun a ha => ?_, congrArg some ((Gdtr.read_mark ⟨39, _⟩ 0x18 _ rfl).trans ?_)⟩
  · rw [← hmarked a ha, hmem, htable, hcs]
  · exact congrArg Descriptor.accessed (Option.some.inj hcode)

end Prekernel

/-- Paging comes last, when all that it needs is there. -/
theorem kinit_allowed {K : Prekernel} {m : Machine} (stackTop : UInt64) (h : K.InMemory m.mem)
    (hfits : K.pml4.phys + 0x4028 ≤ 2 ^ 30) (hstart : m.Unpaged) :
    Machine.AllowedRun (kinit (K.symbols stackTop)) m := by
  have hring : ∀ m' : Machine, m'.cs = m.cs → m'.Ring0 := by
    intro m' hcs
    rw [Machine.Ring0, hcs]
    exact hstart.ring0
  have hoff : ∀ m' : Machine, m'.cr .cr0 = m.cr .cr0 → m'.pg ≠ true := by
    intro m' hcr0
    rw [Machine.pg, hcr0, ← Machine.pg, hstart.pg]
    decide
  have hpe : m.cr .cr0 &&& 1 ≠ 0 := bne_iff_ne.mp hstart.pe
  have hpae : ∀ m' : Machine, m'.cr .cr4 = m.cr .cr4 ||| 0x20 → m'.pae = true := by
    intro m' hcr4
    rw [Machine.pae, hcr4, bne_iff_ne]
    exact or_and_ne_zero (.inr (by decide))
  have hjump : ∀ m' : Machine, m'.cs = m.cs → m'.mem = m.mem →
      m'.gdtr = lowAddress K.initGDTDesc → m'.cr .cr3 = lowAddress K.pml4.addr →
      m'.Allowed (.jmpFar 0x18) := by
    intro m' hcs hmem hgdtr hcr3
    rw [← hmem] at h
    have hsees := h.sees hgdtr hcr3 hfits (by decide : 3 < 5)
    exact ⟨hring m' hcs, by decide, fun _ => hsees, _, h.code hgdtr, by decide, by decide⟩
  rw [kinit]
  generalize hdesc : lowAddress (K.symbols stackTop).initGDTDesc = desc
  generalize hroot : lowAddress (K.symbols stackTop).initPagePml4 = root
  generalize lowAddress (K.symbols stackTop).stackTop = stack
  refine ⟨?lgdt, trivial, ?cr3, ?fromCr4, trivial, ?cr4, trivial, ?rdmsr, trivial, ?wrmsr,
    ?fromCr0, trivial, ?cr0, trivial, ?jmp, trivial⟩
  case lgdt => exact hstart.ring0
  case cr3 => exact hring _ rfl
  case fromCr4 => exact hring _ rfl
  case cr4 => exact ⟨hring _ rfl, fun hlong => absurd hlong.2.1 (hoff _ rfl)⟩
  case rdmsr => exact hring _ rfl
  case wrmsr => exact ⟨hring _ rfl, fun hon => absurd hon (hoff _ rfl)⟩
  case fromCr0 => exact hring _ rfl
  case cr0 =>
    refine ⟨hring _ rfl, fun _ => ⟨or_and_ne_zero (.inl hpe), fun _ => ⟨hpae _ rfl, fun _ => ?_⟩⟩⟩
    exact ⟨hstart.codeLong, hstart.task16⟩
  case jmp => exact hjump _ rfl rfl hdesc.symm hroot.symm

/-! ## The windows -/

namespace Prekernel

variable {K : Prekernel} {mem : Mem}

/-- The entry `i` of the table `n` of the section. -/
theorem Loaded.entry (h : K.Loaded mem) {n i : Nat} (hn : n < 4) (hi : i < 512) :
    mem (K.pml4.phys + 4096 * n + 8 * i) = K.word (512 * n + i) := by
  rw [← h (512 * n + i) (by omega)]
  congr 1
  omega

/-- Each of the two entries of the first level has a table of its own, with one
entry. -/
theorem Loaded.fields (h : K.Loaded mem) {v : UInt64} {pa : Nat}
    (hwalk : walk mem K.cr3 v = some pa) :
    bits v 39 9 = 0 ∧ bits v 30 9 = 0 ∨ bits v 39 9 = 511 ∧ bits v 30 9 = 511 := by
  obtain ⟨-, hpml4e, hrest⟩ := walk_present hwalk
  have h39 : bits v 39 9 < 512 := Nat.mod_lt _ (by decide)
  have h30 : bits v 30 9 < 512 := Nat.mod_lt _ (by decide)
  have hroot : mem (frame K.cr3 + 8 * bits v 39 9) = K.word (bits v 39 9) := by
    rw [K.frame_cr3]
    exact h _ (by omega)
  rw [hroot] at hpml4e hrest
  by_cases hfirst : bits v 39 9 = 0
  · have hpdpte := (hrest (K.pml4.phys + 4096 * 1) (by
      rw [hfirst]
      exact K.pointer_pointsTo rfl (by decide))).1
    rw [h.entry (by decide) h30] at hpdpte
    by_contra hnot
    rw [word, if_neg (by omega), if_pos (by omega), if_neg (by omega)] at hpdpte
    exact absurd hpdpte (by decide)
  · by_cases hlast : bits v 39 9 = 511
    · have hpdpte := (hrest (K.pml4.phys + 4096 * 2) (by
        rw [hlast]
        exact K.pointer_pointsTo rfl (by decide))).1
      rw [h.entry (by decide) h30] at hpdpte
      by_contra hnot
      rw [word, if_neg (by omega), if_neg (by omega), if_pos (by omega), if_neg (by omega)]
        at hpdpte
      exact absurd hpdpte (by decide)
    · rw [word, if_pos h39, if_neg hfirst, if_neg hlast] at hpml4e
      exact absurd hpml4e (by decide)

/-- **The windows of `prekernel.asm`**, and nothing else. -/
theorem walk_loaded_iff (h : K.Loaded mem) (v : UInt64) (pa : Nat) : walk mem K.cr3 v = some pa ↔
    v.toNat < 2 ^ 30 ∧ pa = v.toNat ∨ kernelPage ≤ v ∧ pa = (getAddress v).toNat := by
  obtain ⟨hkernel, hlow⟩ := K.walk_loaded h
  constructor
  · intro hwalk
    have hwindow : v.toNat < 2 ^ 30 ∨ kernelPage ≤ v := by
      have hlt := v.toNat_lt
      have hv := (walk_present hwalk).1
      have hfields := h.fields hwalk
      rw [UInt64.le_iff_toNat_le, toNat_kernelPage]
      simp only [canonical, bits, Bool.or_eq_true, beq_iff_eq] at hv hfields
      omega
    rcases hwindow with hv | hv
    · rw [hlow v hv] at hwalk
      exact .inl ⟨hv, (Option.some.inj hwalk).symm⟩
    · rw [hkernel v hv] at hwalk
      exact .inr ⟨hv, (Option.some.inj hwalk).symm⟩
  · rintro (⟨hv, rfl⟩ | ⟨hv, rfl⟩)
    · exact hlow v hv
    · exact hkernel v hv

end Prekernel

/-- **Into long mode**: where `cmain` has loaded the kernel's file, no instruction
of `kinit` faults, and behind it long mode is active and `cs` is 64-bit code of
the kernel; the processor gets its stack, and the rest of CR0, CR4, EFER and the
memory is as it was. The first gigabyte can be seen at its own addresses and from
`0xffffffffc0000000` on, and nothing else can. Of the section itself it is not
said that it stays as it was: the processor marks what it uses there, the
descriptor and the entries of the tables, which changes no address. -/
theorem kinit_enters (K : Prekernel) (stackTop : UInt64) {file : List UInt8} {m : Machine}
    (hfits : K.pml4.phys + 0x4028 ≤ 2 ^ 30) (hfile : K.InFile file)
    (hloaded : ∀ i < file.length, m.mem (loadAddress + i) = file.getD i 0)
    (hstart : m.Unpaged) :
    Machine.AllowedRun (kinit (K.symbols stackTop)) m ∧
      let m' := (Machine.run (kinit (K.symbols stackTop)) m).marked
      SwitchedOn (K.symbols stackTop) m m' ∧ m'.LongMode ∧ m'.la57 = false ∧
        (∃ d, m'.table.descriptor m'.mem m'.cs = some d ∧ d.Runs 0 ∧ d.bits true = 64) ∧
        (∀ a, a < K.pml4.phys ∨ K.pml4.phys + 0x4028 ≤ a → m'.mem a = m.mem a) ∧
        ∀ v pa, walk (quads m'.mem) (m'.cr .cr3).toUInt64 v = some pa ↔
          v.toNat < 2 ^ 30 ∧ pa = v.toNat ∨ kernelPage ≤ v ∧ pa = (getAddress v).toNat := by
  have hmem : K.InMemory m.mem := hfile.inMemory hloaded
  refine ⟨kinit_allowed stackTop hmem hfits hstart, ?_⟩
  have hon := kinit_switchedOn (K.symbols stackTop) m
  have hsame : (Machine.run (kinit (K.symbols stackTop)) m).mem = m.mem := (kinit_same _ m).2
  generalize Machine.run (kinit (K.symbols stackTop)) m = m₁ at hon hsame ⊢
  intro m'
  rw [← hsame] at hmem
  obtain ⟨hmarked, hentry⟩ := hmem.marked hon.gdtr hon.cs
  have hon' : SwitchedOn (K.symbols stackTop) m m' := ⟨hon.cr0, hon.cr3, hon.cr4, hon.efer,
    hon.msr, hon.gdtr, hon.cs, hon.rsp, hon.regs⟩
  have hroot : (m'.cr .cr3).toUInt64 = K.cr3 := by
    rw [hon'.cr3]
    rfl
  refine ⟨hon', hon'.longMode hstart.pe, hon'.la57 hstart.la57, ⟨_, hentry, by decide, by decide⟩,
    fun a ha => ?_, fun v pa => ?_⟩
  · rw [hmarked a (by omega), hsame]
  · rw [hroot]
    refine Prekernel.walk_loaded_iff (Prekernel.loaded_quads fun i hi => ?_) v pa
    rw [hmarked _ (by omega), hmem i (by omega)]

/-! ## The stack, under the tables of `initPaging` -/

/-- The windows of `prekernel.asm` are apart from the further ones of
`initPaging`. -/
theorem not_inFurther {v : UInt64} (h : v.toNat < 2 ^ 30 ∨ kernelPage ≤ v) : ¬ InFurther v := by
  intro hfurther
  simp only [InFurther, UInt64.le_iff_toNat_le, UInt64.lt_iff_toNat_lt, toNat_kernelPage]
    at h hfurther
  change 0x7FC0000000 ≤ v.toNat ∧ v.toNat < 0x8000000000 ∨
    0xFFFFFF8000000000 ≤ v.toNat ∧ v.toNat < 0xFFFFFF8000200000 at hfurther
  omega

/-- **What `initPaging` leaves mapped** of the windows that `kinit` has opened:
exactly the first 2 MiB and the kernel's gigabyte, to the same memory. The stack
that `kinit` has set up is in the first window, so it stays, down to any depth,
exactly if `stack_top` is not behind the first 2 MiB. -/
theorem stack_survives_iff (K : Prekernel) (P : Placement) {mem : Mem} (hloaded : K.Loaded mem)
    (hzero : P.ZeroFilled mem) (stackTop : UInt64) (hstack : kernelPage ≤ stackTop) {depth : Nat}
    (hdepth : 0 < depth ∧ depth ≤ (lowAddress stackTop).toNat) :
    ∃ s, initPaging P ⟨mem, K.cr3⟩ = some s ∧
      (∀ v pa, walk mem K.cr3 v = some pa →
        walk s.mem s.cr3 v = if InWindows v then some pa else none) ∧
      ((∀ a, (lowAddress stackTop).toNat - depth ≤ a → a < (lowAddress stackTop).toNat →
          walk s.mem s.cr3 (UInt64.ofNat a) = some a) ↔ (lowAddress stackTop).toNat ≤ 2 ^ 21) := by
  obtain ⟨s, hrun, hcr3, -, hslots⟩ := (running_start hloaded hzero).initPaging hzero
  obtain ⟨hkernel, hlow⟩ := walk_built hcr3 hslots
  have hkept : ∀ v pa, walk mem K.cr3 v = some pa →
      walk s.mem s.cr3 v = if InWindows v then some pa else none := by
    intro v pa hwalk
    have hold := (Prekernel.walk_loaded_iff hloaded v pa).mp hwalk
    by_cases hin : InWindows v
    · rw [if_pos hin]
      rcases hin with hv | hv
      · rw [hlow v hv, ← (K.walk_loaded hloaded).2 v (by omega), hwalk]
      · rw [hkernel v hv, ← (K.walk_loaded hloaded).1 v hv, hwalk]
    · rw [if_neg hin]
      have hfurther := not_inFurther (hold.imp And.left And.left)
      cases hnew : walk s.mem s.cr3 v with
      | none => rfl
      | some pa' => exact absurd (walk_built_cases hcr3 hslots hnew) (not_or.mpr ⟨hin, hfurther⟩)
  have hnat : ∀ a < 2 ^ 30, (UInt64.ofNat a).toNat = a := by
    intro a ha
    rw [UInt64.toNat_ofNat']
    omega
  refine ⟨s, hrun, hkept, fun hmapped => ?_, fun htop a _ ha => ?_⟩
  · have htop : (lowAddress stackTop).toNat < 2 ^ 30 := by
      have hphys : (stackTop - 0xffffffffc0000000).toNat = stackTop.toNat - (2 ^ 64 - 2 ^ 30) :=
        toNat_getAddress (UInt64.le_iff_toNat_le.mp hstack)
      have hlt := stackTop.toNat_lt
      rw [lowAddress, UInt64.toNat_toUInt32, hphys]
      omega
    have hin := walk_built_cases hcr3 hslots
      (hmapped ((lowAddress stackTop).toNat - 1) (by omega) (by omega))
    have hlast := hnat ((lowAddress stackTop).toNat - 1) (by omega)
    have hwindow := hin.resolve_right (not_inFurther (.inl (by omega)))
    rw [InWindows, hlast, UInt64.le_iff_toNat_le, hlast, toNat_kernelPage] at hwindow
    omega
  · have hlast := hnat a (by omega)
    rw [hlow _ (by omega), hlast]

/-! ## A kernel -/

/-- A file with nothing but the section, to be loaded at 0x200000. -/
def sampleKernelFile : List UInt8 :=
  (List.range (0x100000 + 0x402E)).map fun j => samplePrekernel.byte (j - 0x100000)

/-- What `cmain` leaves: the file in memory, and the processor in protected mode. -/
def sampleEntry : Machine where
  regs _ := 0
  upper _ := 0
  cr c := if c = .cr0 then 1 else 0
  msr _ := 0
  gdtr := 0
  cs := 8
  codeLong := false
  task16 := false
  mem a := sampleKernelFile.getD (a - loadAddress) 0

theorem sample_inFile : samplePrekernel.InFile sampleKernelFile := by
  have hoffset : samplePrekernel.pml4.phys - loadAddress = 0x100000 := by decide
  have hget : ∀ n i, i < 0x402E →
      ((List.range (n + 0x402E)).map fun j => samplePrekernel.byte (j - n))[n + i]?
        = some (samplePrekernel.byte i) := by
    intro n i hi
    rw [List.getElem?_map, List.getElem?_range (by omega), Option.map_some, Nat.add_sub_cancel_left]
  refine ⟨by decide, fun i hi => ?_⟩
  exact (congrArg (fun n => sampleKernelFile[n + i]?) hoffset).trans (hget 0x100000 i hi)

theorem sample_loadedFile : ∀ i < sampleKernelFile.length,
    sampleEntry.mem (loadAddress + i) = sampleKernelFile.getD i 0 := by
  have hget : ∀ (file : List UInt8) n i, file.getD (n + i - n) 0 = file.getD i 0 := by
    intro file n i
    rw [Nat.add_sub_cancel_left]
  intro i _
  rw [sampleEntry]
  generalize sampleKernelFile = file
  exact hget file loadAddress i

theorem sample_unpaged : sampleEntry.Unpaged where
  pe := by decide
  pg := by decide
  ring0 := rfl
  codeLong := rfl
  task16 := rfl
  la57 := by decide

theorem kinit_enters_sample :
    let m' := (Machine.run (kinit (samplePrekernel.symbols 0xffffffffc0205000)) sampleEntry).marked
    m'.LongMode ∧ walk (quads m'.mem) (m'.cr .cr3).toUInt64 0xB8000 = some 0xB8000 := by
  obtain ⟨-, -, hlong, -, -, -, hwalk⟩ := kinit_enters samplePrekernel 0xffffffffc0205000
    (by decide) sample_inFile sample_loadedFile sample_unpaged
  exact ⟨hlong, (hwalk 0xB8000 0xB8000).mpr (.inl ⟨by decide, by decide⟩)⟩

theorem stack_survives_sample : ∃ s,
    initPaging samplePlacement ⟨sampleMem, samplePrekernel.cr3⟩ = some s ∧
    walk s.mem s.cr3 0x1FFFF8 = some 0x1FFFF8 := by
  have hdepth : 0 < 8 ∧ 8 ≤ (lowAddress 0xffffffffc0200000).toNat := by decide
  obtain ⟨s, hrun, -, hstack⟩ := stack_survives_iff samplePrekernel samplePlacement sample_loaded
    sample_zeroFilled 0xffffffffc0200000 (by decide) hdepth
  exact ⟨s, hrun, hstack.mpr (by decide) 0x1FFFF8 (by decide) (by decide)⟩

end Netclover.Kernel
