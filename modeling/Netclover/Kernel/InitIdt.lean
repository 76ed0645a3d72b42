import Netclover.Kernel.Exceptions
import Netclover.Lib.I8259
import Netclover.Libc.Basic

/-!
# The interrupt table (`kernel/x86/idt.c`)

`initIDT` clears the table, moves the two interrupt controllers out of the way
of the exceptions and installs fifty gates. The numbers of the vectors are
written down in the calls, in the stubs and in the sizes of the arrays the
handlers index, and they agree (`initIDT_table`). The masks of the controllers
are to be as they were, but both are read from the master
(`initIDT_pics_iff`).
-/

namespace Netclover.Kernel

open X86 CLayout I8259 Libc

/-! ## The table -/

/-- `struct idt_entry_struct`, packed. -/
def idtEntryStruct : List CType := [⟨2, 1⟩, ⟨2, 1⟩, ⟨1, 1⟩, ⟨1, 1⟩, ⟨2, 1⟩, ⟨4, 1⟩, ⟨4, 1⟩]

def sizeofIdtEntry : Nat := (struct idtEntryStruct).size

namespace IdtEntry

def offsetLow : Nat := offset idtEntryStruct 0

def selector : Nat := offset idtEntryStruct 1

def ist : Nat := offset idtEntryStruct 2

def attributes : Nat := offset idtEntryStruct 3

def offsetMid : Nat := offset idtEntryStruct 4

def offsetHigh : Nat := offset idtEntryStruct 5

def reserved : Nat := offset idtEntryStruct 6

end IdtEntry

def totalEntries : Nat := 256

def idtAttributeInterrupt : UInt8 := 0x8E

/-- `setIDTGate`, of the table at `idtEntries`. -/
def setIDTGate (idtEntries : Nat) (num : UInt8) (voidOffset : UInt64) (selector : UInt16)
    (attributes : UInt8) (memory : Nat → UInt8) : Nat → UInt8 :=
  let entry := idtEntries + sizeofIdtEntry * num.toNat
  memory |> store (entry + IdtEntry.offsetLow) 2 (voidOffset &&& 0xFFFF).toUInt16.toNat
    |> store (entry + IdtEntry.offsetMid) 2 (voidOffset >>> 16).toUInt16.toNat
    |> store (entry + IdtEntry.offsetHigh) 4 (voidOffset >>> 32).toUInt32.toNat
    |> store (entry + IdtEntry.ist) 1 0
    |> store (entry + IdtEntry.selector) 2 selector.toNat
    |> store (entry + IdtEntry.reserved) 4 0
    |> store (entry + IdtEntry.attributes) 1 attributes.toNat

/-- The first two arguments of the calls, lines 43-96. The other two are the
same in all. -/
def idtGates : List (UInt8 × Label) := [
  (0, .isr 0), (1, .isr 1), (2, .isr 2), (3, .isr 3), (4, .isr 4), (5, .isr 5), (6, .isr 6),
  (7, .isr 7), (8, .isr 8), (9, .isr 9), (10, .isr 10), (11, .isr 11), (12, .isr 12),
  (13, .isr 13), (14, .isr 14), (15, .isr 15), (16, .isr 16), (17, .isr 17), (18, .isr 18),
  (19, .isr 19), (20, .isr 20), (21, .isr 21), (22, .isr 22), (23, .isr 23), (24, .isr 24),
  (25, .isr 25), (26, .isr 26), (27, .isr 27), (28, .isr 28), (29, .isr 29), (30, .isr 30),
  (31, .isr 31),
  (32, .isq 0), (33, .isq 1), (34, .isq 2), (35, .isq 3), (36, .isq 4), (37, .isq 5), (38, .isq 6),
  (39, .isq 7), (40, .isq 8), (41, .isq 9), (42, .isq 10), (43, .isq 11), (44, .isq 12),
  (45, .isq 13), (46, .isq 14), (47, .isq 15),
  (127, .isr 127), (128, .isr 128)]

def installGates (address : Label → UInt64) (idtEntries : Nat) (gates : List (UInt8 × Label))
    (memory : Nat → UInt8) : Nat → UInt8 :=
  gates.foldl (fun memory gate =>
    setIDTGate idtEntries gate.1 (address gate.2) 0x08 idtAttributeInterrupt memory) memory

/-! ## The controllers -/

def masterComms : UInt16 := 0x20

def slaveComms : UInt16 := 0xA0

def masterData : UInt16 := 0x21

def slaveData : UInt16 := 0xA1

/-- Lines 24-40. -/
def remapPics (pics : Pair) : Pair :=
  let maskM := pics.inb masterData
  let maskS := pics.inb masterData
  pics.outs [(masterComms, 0x11), (slaveComms, 0x11), (masterData, 0x20), (slaveData, 0x28),
    (masterData, 0x04), (slaveData, 0x02), (masterData, 0x01), (slaveData, 0x01),
    (masterData, maskM), (slaveData, maskS)]

/-! ## `initIDT` -/

/-- What `initIDT` writes to. -/
structure IdtMachine where
  memory : Nat → UInt8
  pics : Pair

/-- `initIDT`, up to the `lidt`. -/
def initIDT (address : Label → UInt64) (idtEntries : Nat) (m : IdtMachine) :
    IdtMachine where
  memory := installGates address idtEntries idtGates
    (memset idtEntries 0 (sizeofIdtEntry * totalEntries) m.memory)
  pics := remapPics m.pics

/-! ## The handlers' arrays -/

def exceptionMessages : List String := [
  "Division By Zero", "Debug", "Non Maskable Interrupt", "Breakpoint", "Into Detected Overflow",
  "Out of Bounds", "Invalid Opcode", "No x87 Coprocessor", "Double fault",
  "Coprocessor Segment Overrun", "Bad TSS", "Segment not present", "Stack fault",
  "General protection fault", "Page fault", "Reserved", "x87 Floating-Point Exception",
  "Alignment Fault", "Machine Check", "SIMD Floating-Point Exception", "Virtualization",
  "Control Protection Exception", "Reserved", "Reserved", "Reserved", "Reserved", "Reserved",
  "Reserved", "Hypervisor Injection Exception", "VMM Communication Exception",
  "Security Exception", "Reserved"]

/-- `irq_handler`: the routine it calls, if there is one, and what it writes to
the controllers. It is `none` where the index is out of bounds. -/
def irqHandler {α : Type} (irqRoutines : Vector (Option α) 16) (regs : InterruptRegisters) :
    Option (Option α × List (UInt16 × UInt8)) := do
  let handler ← irqRoutines[(regs.intNo - 32).toNat]?
  return (handler, (if 40 ≤ regs.intNo then [(slaveComms, 0x20)] else []) ++ [(masterComms, 0x20)])

/-- The text that `isr_handler` takes, `none` where the index is out of bounds. -/
def exceptionMessage (intNo : UInt64) : Option String := exceptionMessages[intNo.toNat]?

/-! ## From a vector to a stub -/

/-- Where the linker puts the stubs. -/
structure Linked where
  address : Label → UInt64
  distinct : ∀ s ∈ stubs, ∀ s' ∈ stubs, address s.label = address s'.label → s = s'

namespace Stub

def isIrq : Stub → Bool
  | .irq _ _ => true
  | _ => false

/-- The frame a stub and its common stub leave for the handler: the common
stubs start alike. -/
def registers (h : Procedure) (ret : UInt64) (s : Stub) (b : Cpu) : InterruptRegisters :=
  let entry := exec h ret (s.code ++ if s.isIrq then irqCommonEntry else isrCommonEntry) b
  InterruptRegisters.load entry.mem (entry.regs .rdi)

/-- **A stub pushes its number**, whatever the stack is it runs on. -/
theorem registers_intNo (h : Procedure) (ret : UInt64) (s : Stub) (b : Cpu) :
    (s.registers h ret b).intNo = UInt64.ofNat s.vector := by
  have hcommon : ∀ y : Cpu, (exec h ret (if s.isIrq then irqCommonEntry else isrCommonEntry) y)
      = exec h ret isrCommonEntry y := by
    intro y
    rw [show irqCommonEntry = isrCommonEntry from rfl, ite_self]
  have hnumber : (exec h ret s.code b).stack 0 = UInt64.ofNat s.vector := by
    cases s with
    | isrNoCode n => exact (isrNoCode_stack h ret b n (show 0 < 2 ^ 32 by decide)).2.1
    | isrCode n => exact (isrCode_stack h ret b n (show 0 < 2 ^ 32 by decide)).2.1
    | irq n vector => exact (isrNoCode_stack h ret b vector (show 0 < 2 ^ 32 by decide)).2.1
  obtain ⟨hrdi, -, hstack⟩ := isrCommonEntry_stack h ret (exec h ret s.code b)
    (show 0 < 2 ^ 32 by decide)
  rw [registers, exec_append, hcommon, hrdi]
  generalize exec h ret isrCommonEntry (exec h ret s.code b) = entry at hstack ⊢
  rw [InterruptRegisters.load_rsp]
  exact hstack.trans hnumber

end Stub

/-- The vectors that `initIDT` installs. -/
def Installed (v : Nat) : Prop := v < 48 ∨ v = 127 ∨ v = 128

instance (v : Nat) : Decidable (Installed v) := inferInstanceAs (Decidable (_ ∨ _))

/-- The interrupt `v` runs the stub `s`. -/
def Enters (address : Label → UInt64) (idtEntries : Nat) (memory : Nat → UInt8) (v : Nat)
    (s : Stub) : Prop :=
  (Gate.read memory (idtEntries + 16 * v)).present = true ∧
  (Gate.read memory (idtEntries + 16 * v)).offset = address s.label ∧ s ∈ stubs

/-! ## One gate -/

section

variable (idtEntries : Nat) (num : UInt8) (voidOffset : UInt64) (selector : UInt16)
  (attributes : UInt8) (memory : Nat → UInt8)

/-- Where the members are. -/
theorem setIDTGate_eq : setIDTGate idtEntries num voidOffset selector attributes memory
    = store (idtEntries + 16 * num.toNat + 5) 1 attributes.toNat
      (store (idtEntries + 16 * num.toNat + 12) 4 0
      (store (idtEntries + 16 * num.toNat + 2) 2 selector.toNat
      (store (idtEntries + 16 * num.toNat + 4) 1 0
      (store (idtEntries + 16 * num.toNat + 8) 4 (voidOffset >>> 32).toUInt32.toNat
      (store (idtEntries + 16 * num.toNat + 6) 2 (voidOffset >>> 16).toUInt16.toNat
      (store (idtEntries + 16 * num.toNat) 2 (voidOffset &&& 0xFFFF).toUInt16.toNat memory)))))) :=
  rfl

theorem setIDTGate_of_not_mem {a : Nat} (h : a < idtEntries + 16 * num.toNat ∨
    idtEntries + 16 * num.toNat + 16 ≤ a) :
    setIDTGate idtEntries num voidOffset selector attributes memory a = memory a := by
  rw [setIDTGate_eq]
  simp (disch := omega) only [store_of_not_mem]

/-- The three parts of an address. -/
theorem offset_parts : UInt64.ofNat ((voidOffset &&& 0xFFFF).toUInt16.toNat
    + 2 ^ 16 * (voidOffset >>> 16).toUInt16.toNat + 2 ^ 32 * (voidOffset >>> 32).toUInt32.toNat)
    = voidOffset := by
  have hlt := voidOffset.toNat_lt
  have hlow : (voidOffset &&& 0xFFFF).toUInt16.toNat = voidOffset.toNat % 2 ^ 16 := by
    rw [UInt64.toNat_toUInt16, UInt64.toNat_and]
    rw [show (0xFFFF : UInt64).toNat = 2 ^ 16 - 1 from rfl, Nat.and_two_pow_sub_one_eq_mod]
    omega
  have hmid : (voidOffset >>> 16).toUInt16.toNat = voidOffset.toNat / 2 ^ 16 % 2 ^ 16 := by
    rw [UInt64.toNat_toUInt16, UInt64.toNat_shiftRight, Nat.shiftRight_eq_div_pow]
    rfl
  have hhigh : (voidOffset >>> 32).toUInt32.toNat = voidOffset.toNat / 2 ^ 32 % 2 ^ 32 := by
    rw [UInt64.toNat_toUInt32, UInt64.toNat_shiftRight, Nat.shiftRight_eq_div_pow]
    rfl
  rw [← UInt64.toNat_inj, hlow, hmid, hhigh, UInt64.toNat_ofNat']
  omega

/-- **A gate says what `setIDTGate` was given.** -/
theorem setIDTGate_read :
    Gate.read (setIDTGate idtEntries num voidOffset selector attributes memory)
      (idtEntries + 16 * num.toNat) = ⟨voidOffset, selector, 0, attributes⟩ := by
  have hlow := (voidOffset &&& 0xFFFF).toUInt16.toNat_lt
  have hmid := (voidOffset >>> 16).toUInt16.toNat_lt
  have hhigh := (voidOffset >>> 32).toUInt32.toNat_lt
  have hselector := selector.toNat_lt
  have hattributes := attributes.toNat_lt
  simp (disch := omega) only [Gate.read, setIDTGate_eq, load_store_of_disjoint, load_store,
    offset_parts, UInt16.ofNat_toNat, UInt8.ofNat_toNat]

end

/-! ## The fifty gates -/

section

variable (address : Label → UInt64) (idtEntries : Nat)

/-- Every gate that is installed once, and nothing else. -/
theorem installGates_spec (gates : List (UInt8 × Label)) (hnodup : (gates.map Prod.fst).Nodup)
    (memory : Nat → UInt8) (num : UInt8) :
    (∀ label, (num, label) ∈ gates →
      Gate.read (installGates address idtEntries gates memory) (idtEntries + 16 * num.toNat)
        = ⟨address label, 0x08, 0, idtAttributeInterrupt⟩) ∧
    (num ∉ gates.map Prod.fst → ∀ i < 16,
      installGates address idtEntries gates memory (idtEntries + 16 * num.toNat + i)
        = memory (idtEntries + 16 * num.toNat + i)) := by
  induction gates generalizing memory with
  | nil => exact ⟨fun _ h => absurd h List.not_mem_nil, fun _ _ _ => rfl⟩
  | cons gate gates ih =>
    rw [List.map_cons, List.nodup_cons] at hnodup
    obtain ⟨hget, hkeep⟩ := ih hnodup.2 (setIDTGate idtEntries gate.1 (address gate.2) 0x08
      idtAttributeInterrupt memory)
    rw [show installGates address idtEntries (gate :: gates) memory
      = installGates address idtEntries gates
        (setIDTGate idtEntries gate.1 (address gate.2) 0x08 idtAttributeInterrupt memory) from rfl]
    constructor
    · intro label hmem
      rcases List.mem_cons.mp hmem with rfl | hmem
      · -- installed first, and not touched again
        rw [← setIDTGate_read idtEntries num (address label) 0x08 idtAttributeInterrupt memory]
        exact Gate.read_congr fun i hi => hkeep hnodup.1 i (by omega)
      · exact hget label hmem
    · intro hnum i hi
      rw [List.map_cons, List.mem_cons, not_or] at hnum
      rw [hkeep hnum.2 i hi]
      have hne : gate.1.toNat ≠ num.toNat := fun e => hnum.1 (UInt8.toNat_inj.mp e).symm
      exact setIDTGate_of_not_mem _ _ _ _ _ _ (by omega)

end

/-- The calls, one after the other. -/
theorem idtGates_vectors :
    idtGates.map (fun gate => gate.1.toNat) = List.range 48 ++ [127, 128] := by
  decide

/-- Each installs the stub of its number. -/
theorem idtGates_labels :
    ∀ gate ∈ idtGates, ∃ s ∈ stubs, s.vector = gate.1.toNat ∧ s.label = gate.2 := by
  decide

theorem installed_iff {v : Nat} : Installed v ↔ ∃ gate ∈ idtGates, gate.1.toNat = v := by
  rw [← List.mem_map (f := fun gate : UInt8 × Label => gate.1.toNat), idtGates_vectors]
  simp [Installed]

/-- The calls, against the stubs. -/
theorem idtGates_stubs (v : Fin 256) : if Installed v
    then ∃ s ∈ stubs, s.vector = v ∧ (UInt8.ofNat v, s.label) ∈ idtGates
    else UInt8.ofNat v ∉ idtGates.map Prod.fst := by
  have hv : (UInt8.ofNat v).toNat = v := by
    rw [UInt8.toNat_ofNat']
    omega
  by_cases h : Installed v
  · rw [if_pos h]
    obtain ⟨gate, hgate, hnum⟩ := installed_iff.mp h
    obtain ⟨s, hs, hvector, hlabel⟩ := idtGates_labels gate hgate
    refine ⟨s, hs, hvector.trans hnum, ?_⟩
    rw [hlabel, ← hnum, UInt8.ofNat_toNat]
    exact hgate
  · rw [if_neg h]
    intro hmem
    obtain ⟨gate, hgate, hnum⟩ := List.mem_map.mp hmem
    exact h (installed_iff.mpr ⟨gate, hgate, by rw [hnum, hv]⟩)

/-- **The table**: the gates that are installed lead to the stub of their
number, and the others are not there. -/
theorem initIDT_gates (address : Label → UInt64) (idtEntries : Nat) (m : IdtMachine) (v : Fin 256) :
    if Installed v
    then ∃ s ∈ stubs, s.vector = v ∧ Gate.read (initIDT address idtEntries m).memory
      (idtEntries + 16 * v) = ⟨address s.label, 0x08, 0, 0x8E⟩
    else ∀ i < 16, (initIDT address idtEntries m).memory (idtEntries + 16 * v + i) = 0 := by
  have hv : (UInt8.ofNat v).toNat = v := by
    rw [UInt8.toNat_ofNat']
    omega
  have hstubs := idtGates_stubs v
  obtain ⟨hget, hkeep⟩ := installGates_spec address idtEntries idtGates (by decide)
    (memset idtEntries 0 (sizeofIdtEntry * totalEntries) m.memory) (UInt8.ofNat v)
  rw [hv] at hget hkeep
  by_cases h : Installed v
  · rw [if_pos h] at hstubs ⊢
    obtain ⟨s, hs, hvector, hgate⟩ := hstubs
    exact ⟨s, hs, hvector, hget s.label hgate⟩
  · rw [if_neg h] at hstubs ⊢
    intro i hi
    refine (hkeep hstubs i hi).trans ?_
    rw [memset_get, if_pos]
    · rfl
    · rw [show sizeofIdtEntry * totalEntries = 4096 from rfl]
      omega

/-- An interrupt that runs a stub runs that of its number. -/
theorem Enters.vector {P : Linked} {idtEntries : Nat} {m : IdtMachine} {v : Fin 256} {s : Stub}
    (h : Enters P.address idtEntries (initIDT P.address idtEntries m).memory v s) :
    Installed v ∧ s.vector = v := by
  obtain ⟨hpresent, hoffset, hs⟩ := h
  have hgates := initIDT_gates P.address idtEntries m v
  by_cases hv : Installed v
  · rw [if_pos hv] at hgates
    obtain ⟨s', hs', hvector, hgate⟩ := hgates
    rw [hgate] at hoffset
    exact ⟨hv, by rw [← P.distinct s' hs' s hs hoffset, hvector]⟩
  · rw [if_neg hv] at hgates
    have hzero : Gate.read (initIDT P.address idtEntries m).memory (idtEntries + 16 * v)
        = Gate.read (fun _ => 0) (idtEntries + 16 * v) :=
      Gate.read_congr fun i hi => hgates i (by omega)
    rw [hzero] at hpresent
    exact absurd hpresent (by simp [Gate.read, Gate.present, load])

/-- **The interrupt table**: the gate of each installed vector leads to a stub
that pushes that vector, through the kernel's code segment, and the other
entries are zero. So no number that gets to `irq_handler` misses its sixteen
routines, and no exception its message. -/
theorem initIDT_table (P : Linked) (idtEntries : Nat) (m : IdtMachine) :
    let memory := (initIDT P.address idtEntries m).memory
    (∀ v : Fin 256, if Installed v
      then ∃ s ∈ stubs, Gate.read memory (idtEntries + 16 * v) = ⟨P.address s.label, 0x08, 0, 0x8E⟩ ∧
        ∀ h ret b, (s.registers h ret b).intNo.toNat = v
      else ∀ i < 16, memory (idtEntries + 16 * v + i) = 0) ∧
    (∀ (v : Fin 256) (s : Stub), Enters P.address idtEntries memory v s → s.isIrq = true →
      ∀ {α : Type} (irqRoutines : Vector (Option α) 16) (h : Procedure) (ret : UInt64) (b : Cpu),
        ((s.registers h ret b).intNo - 32).toNat < 16 ∧
        (irqHandler irqRoutines (s.registers h ret b)).isSome = true) ∧
    ∀ intNo : UInt64, intNo < 32 → (exceptionMessage intNo).isSome = true := by
  intro memory
  have hnumber : ∀ (v : Fin 256) (s : Stub), s.vector = v → ∀ h ret b,
      (s.registers h ret b).intNo.toNat = v := by
    intro v s hs h ret b
    rw [Stub.registers_intNo, hs, UInt64.toNat_ofNat']
    omega
  refine ⟨?_, ?_, ?_⟩
  · intro v
    have hgates := initIDT_gates P.address idtEntries m v
    by_cases hv : Installed v
    · rw [if_pos hv] at hgates ⊢
      obtain ⟨s, hs, hvector, hgate⟩ := hgates
      exact ⟨s, hs, hgate, hnumber v s hvector⟩
    · rw [if_neg hv] at hgates ⊢
      exact hgates
  · intro v s henters hirq α irqRoutines h ret b
    obtain ⟨hinstalled, hvector⟩ := henters.vector
    have hrange : ∀ s ∈ stubs, s.isIrq = true → Installed s.vector →
        32 ≤ s.vector ∧ s.vector < 48 := by decide
    obtain ⟨hge, hlt⟩ := hrange s henters.2.2 hirq (by rw [hvector]; exact hinstalled)
    have hintNo := hnumber v s hvector h ret b
    have h32 : (32 : UInt64).toNat = 32 := rfl
    have hindex : ((s.registers h ret b).intNo - 32).toNat < 16 := by
      rw [UInt64.toNat_sub_of_le _ _ (by rw [UInt64.le_iff_toNat_le]; omega)]
      omega
    refine ⟨hindex, ?_⟩
    rw [irqHandler, Vector.getElem?_eq_getElem hindex]
    rfl
  · intro intNo hlt
    rw [UInt64.lt_iff_toNat_lt] at hlt
    rw [exceptionMessage, List.getElem?_eq_getElem hlt]
    rfl

/-- The stubs at 32 bytes each, the exceptions in front of the interrupts. -/
def sampleAddress : Label → UInt64
  | .isr n => 0xFFFFFFFFC0200000 + 32 * UInt64.ofNat n
  | .isq n => 0xFFFFFFFFC0202000 + 32 * UInt64.ofNat n

theorem sampleAddress_distinct : ∀ s ∈ stubs, ∀ s' ∈ stubs,
    sampleAddress s.label = sampleAddress s'.label → s = s' := by
  have hall : (stubs.all fun s => stubs.all fun s' =>
      !(sampleAddress s.label).toNat.beq (sampleAddress s'.label).toNat || decide (s = s')) := by
    decide +kernel
  intro s hs s' hs' haddress
  have hsame := List.all_eq_true.mp (List.all_eq_true.mp hall s hs) s' hs'
  rw [haddress, Nat.beq_refl, Bool.not_true, Bool.false_or] at hsame
  exact of_decide_eq_true hsame

def sampleLinked : Linked := ⟨sampleAddress, sampleAddress_distinct⟩

/-- The gate of the keyboard, and the first entry without one. -/
theorem initIDT_table_sample :
    let memory := (initIDT sampleLinked.address 0x300000
      ⟨fun _ => 0xFF, ⟨0x08, 0xB8, 4, 1, false, true, .ready⟩,
        ⟨0x70, 0x8F, 2, 1, false, true, .ready⟩⟩).memory
    (∃ s ∈ stubs,
      Gate.read memory (0x300000 + 16 * 33) = ⟨sampleLinked.address s.label, 0x08, 0, 0x8E⟩ ∧
      (s.registers plainReturn 0 ⟨fun _ => 0x200000, 0, 0x08, 0x202, 0x10, fun _ => 0⟩).intNo.toNat
        = 33) ∧
    ∀ i < 16, memory (0x300000 + 16 * 48 + i) = 0 := by
  intro memory
  obtain ⟨hgates, -, -⟩ := initIDT_table sampleLinked 0x300000
    ⟨fun _ => 0xFF, ⟨0x08, 0xB8, 4, 1, false, true, .ready⟩,
      ⟨0x70, 0x8F, 2, 1, false, true, .ready⟩⟩
  have hkeyboard := hgates 33
  have hnone := hgates 48
  rw [if_pos (by decide)] at hkeyboard
  rw [if_neg (by decide)] at hnone
  obtain ⟨s, hs, hgate, hnumber⟩ := hkeyboard
  exact ⟨⟨s, hs, hgate, hnumber plainReturn 0 _⟩, hnone⟩

/-! ## The two controllers -/

/-- What the controllers are left with. -/
theorem remapPics_eq (pics : Pair) : remapPics pics
    = ⟨⟨0x20, pics.master.mask, 0x04, 0x01, false, true, .ready⟩,
      ⟨0x28, pics.master.mask, 0x02, 0x01, false, true, .ready⟩⟩ := by
  have hmaster := pics.master.writes_init 0x11 (by decide) (by decide) (by decide) 0x20 0x04
    0x01 (pics.inb masterData)
  have hslave := pics.slave.writes_init 0x11 (by decide) (by decide) (by decide) 0x28 0x02
    0x01 (pics.inb masterData)
  have heta : ∀ s : Pair, s = ⟨s.master, s.slave⟩ := fun _ => rfl
  rw [heta (remapPics pics)]
  simp only [remapPics, Pair.outs_master, Pair.outs_slave]
  exact congrArg₂ Pair.mk hmaster hslave

/-- **The masks**: both controllers end with their vector base and, exactly if
the two masks were the same, with their mask. -/
theorem initIDT_pics_iff (address : Label → UInt64) (idtEntries : Nat) (m : IdtMachine) :
    let pics := (initIDT address idtEntries m).pics
    (pics.master.base = 0x20 ∧ pics.slave.base = 0x28 ∧
      pics.master.mask = m.pics.master.mask ∧ pics.slave.mask = m.pics.slave.mask) ↔
      m.pics.slave.mask = m.pics.master.mask := by
  intro pics
  have hpics : pics = remapPics m.pics := rfl
  rw [hpics, remapPics_eq]
  constructor
  · intro h
    exact h.2.2.2.symm
  · intro h
    exact ⟨rfl, rfl, rfl, h.symm⟩

/-- **The defect**: both masks are read from the master's port. -/
theorem initIDT_loses_mask : ¬ ∀ (address : Label → UInt64) (idtEntries : Nat) (m : IdtMachine),
    let pics := (initIDT address idtEntries m).pics
    pics.master.base = 0x20 ∧ pics.slave.base = 0x28 ∧
      pics.master.mask = m.pics.master.mask ∧ pics.slave.mask = m.pics.slave.mask := by
  intro h
  have hmask := (h (fun _ => 0) 0 ⟨fun _ => 0, ⟨0x08, 0xB8, 4, 1, false, true, .ready⟩,
    ⟨0x70, 0x8F, 2, 1, false, true, .ready⟩⟩).2.2.2
  revert hmask
  decide +kernel

end Netclover.Kernel
