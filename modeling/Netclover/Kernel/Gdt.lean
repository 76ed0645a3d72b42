import Mathlib.Data.List.Induction
import Netclover.Lib.Segments
import Netclover.Lib.X86

/-!
# The descriptor table of the kernel (`kernel/x86/gdt.c`, `gdt.asm`)

`setGDTGate` takes a descriptor apart; whatever calls of it there have been, the
table says what the last call for each entry was given (`setGDTGates_read`).
`initGDT` fills the table and changes over to it, and it comes back to `main`
with every segment register on an entry that allows what it is used for
(`initGDT_switches`).
-/

namespace Netclover.Kernel

open CLayout Segments

/-! ## The table -/

/-- `struct gdt_entry_struct`, packed. -/
def gdtEntryStruct : List CType := [⟨2, 1⟩, ⟨2, 1⟩, ⟨1, 1⟩, ⟨1, 1⟩, ⟨1, 1⟩, ⟨1, 1⟩]

def sizeofGdtEntry : Nat := (struct gdtEntryStruct).size

namespace GdtEntry

def limit : Nat := offset gdtEntryStruct 0

def baseLow : Nat := offset gdtEntryStruct 1

def baseMid : Nat := offset gdtEntryStruct 2

def access : Nat := offset gdtEntryStruct 3

def flags : Nat := offset gdtEntryStruct 4

def baseHigh : Nat := offset gdtEntryStruct 5

end GdtEntry

/-- `struct gdt_ptr_struct`, packed. -/
def gdtPtrStruct : List CType := [⟨2, 1⟩, ⟨8, 1⟩]

/-- `total_entries` of `gdt.c`. -/
def gdtTotalEntries : Nat := 6

/-- The arguments of a call of `setGDTGate`. -/
structure GateArgs where
  num : UInt32
  base : UInt32
  limit : UInt32
  access : UInt8
  granularity : UInt8

/-- `setGDTGate`, of the table at `gdtEntries`. -/
def setGDTGate (gdtEntries : Nat) (args : GateArgs) (memory : Nat → UInt8) : Nat → UInt8 :=
  let entry := gdtEntries + sizeofGdtEntry * args.num.toNat
  let memory := memory
    |> store (entry + GdtEntry.baseLow) 2 (args.base &&& 0xFFFF).toUInt16.toNat
    |> store (entry + GdtEntry.baseMid) 1 (args.base >>> 16 &&& 0xFF).toUInt8.toNat
    |> store (entry + GdtEntry.baseHigh) 1 (args.base >>> 24 &&& 0xFF).toUInt8.toNat
    |> store (entry + GdtEntry.limit) 2 (args.limit &&& 0xFFFF).toUInt16.toNat
    |> store (entry + GdtEntry.flags) 1 (args.limit >>> 16 &&& 0x0F).toUInt8.toNat
  let flags := memory (entry + GdtEntry.flags) ||| args.granularity &&& 0xF0
  memory
    |> store (entry + GdtEntry.flags) 1 flags.toNat
    |> store (entry + GdtEntry.access) 1 args.access.toNat

/-- `GDT_ACCESS_PRESENT` and the others of `gdt.h`. -/
def gdtAccessPresent : UInt8 := 0x80

def gdtAccessRing0 : UInt8 := 0x00

def gdtAccessRing3 : UInt8 := 0x60

def gdtAccessType : UInt8 := 0x10

def gdtAccessExec : UInt8 := 0x08

def gdtAccessRw : UInt8 := 0x02

/-- The calls in `initGDT`. -/
def gdtGates : List GateArgs := [
  ⟨0, 0, 0, 0, 0⟩,
  ⟨1, 0, 0xFFFFFFFF,
    gdtAccessPresent ||| gdtAccessRing0 ||| gdtAccessType ||| gdtAccessExec ||| gdtAccessRw, 0xAF⟩,
  ⟨2, 0, 0xFFFFFFFF,
    gdtAccessPresent ||| gdtAccessRing0 ||| gdtAccessType ||| gdtAccessRw, 0xAF⟩,
  ⟨3, 0, 0xFFFFFFFF,
    gdtAccessPresent ||| gdtAccessRing3 ||| gdtAccessType ||| gdtAccessExec ||| gdtAccessRw, 0xAF⟩,
  ⟨4, 0, 0xFFFFFFFF,
    gdtAccessPresent ||| gdtAccessRing3 ||| gdtAccessType ||| gdtAccessRw, 0xAF⟩]

def setGDTGates (gdtEntries : Nat) (gates : List GateArgs) (memory : Nat → UInt8) : Nat → UInt8 :=
  gates.foldl (fun memory args => setGDTGate gdtEntries args memory) memory

/-! ## The change -/

/-- The processor with the registers that `gdt_flush` writes; `cs` and `ss` are
in `cpu`. -/
structure Processor where
  cpu : X86.Cpu
  gdtr : Gdtr
  ds : UInt16
  es : UInt16
  fs : UInt16
  gs : UInt16

/-- `retfq`. -/
def retfq (c : X86.Cpu) : X86.Cpu := { c.drop 2 with rip := c.stack 0, cs := c.stack 1 }

/-- `gdt_flush`. The entries that it loads are marked as it goes. -/
def gdtFlush (memory : Nat → UInt8) (p : Processor) : (Nat → UInt8) × Processor :=
  -- lgdt [rdi]
  let gdtPtr := (p.cpu.regs .rdi).toNat
  let gdtr : Gdtr := ⟨load memory (gdtPtr + offset gdtPtrStruct 0) 2,
    load memory (gdtPtr + offset gdtPtrStruct 1) 8⟩
  let c := p.cpu.setReg .rax (p.cpu.regs .rax &&& ~~~0xFFFF ||| 0x10)
  let ax := (c.regs .rax).toUInt16
  let memory := gdtr.mark ax memory
  let c := { c with ss := ax.toUInt64 }
  let c := c.pop .rax
  let c := c.push 0x8
  let c := c.push (c.regs .rax)
  let c := retfq c
  (gdtr.mark c.cs.toUInt16 memory, ⟨c, gdtr, ax, ax, ax, ax⟩)

/-- The stores of `initGDT`. -/
def fillGDT (gdtEntries gdtPtr : UInt64) (memory : Nat → UInt8) : Nat → UInt8 :=
  memory
    |> store (gdtPtr.toNat + offset gdtPtrStruct 0) 2 (sizeofGdtEntry * gdtTotalEntries - 1)
    |> store (gdtPtr.toNat + offset gdtPtrStruct 1) 8 gdtEntries.toNat
    |> setGDTGates gdtEntries.toNat gdtGates

/-- `initGDT`: the stores, and the call of `gdt_flush` with the instruction at
`behind` behind it. The stores are compiled code, which has its own use for the
registers; `p` is the processor as that code leaves it, in front of the argument
and the call. -/
def initGDT (gdtEntries gdtPtr : UInt64) (behind : UInt64) (memory : Nat → UInt8) (p : Processor) :
    (Nat → UInt8) × Processor :=
  gdtFlush (fillGDT gdtEntries gdtPtr memory)
    { p with cpu := (p.cpu.setReg .rdi gdtPtr).push behind }

/-! ## One entry -/

/-- What a call says. -/
def GateArgs.descriptor (args : GateArgs) : Descriptor :=
  ⟨args.base.toNat, args.limit.toNat % 2 ^ 20, args.access, args.granularity.toNat / 16⟩

/-- A mask of upper bits. -/
theorem and_upper_mask {n k m : Nat} (h : n < 2 ^ (k + m)) :
    n &&& (2 ^ m - 1) <<< k = (n / 2 ^ k) <<< k := by
  apply Nat.eq_of_testBit_eq
  intro i
  rw [Nat.testBit_and, Nat.testBit_shiftLeft, Nat.testBit_shiftLeft, Nat.testBit_two_pow_sub_one,
    ← Nat.shiftRight_eq_div_pow, Nat.testBit_shiftRight]
  by_cases hlow : k ≤ i
  · rw [Nat.add_sub_cancel' hlow]
    by_cases hhigh : i < k + m
    · simp [hlow, show i - k < m by omega]
    · rw [Nat.testBit_lt_two_pow (h.trans_le (Nat.pow_le_pow_right (by decide) (by omega)))]
      simp
  · simp [hlow]

/-- Four bits below four bits. -/
theorem toNat_or_nibbles {low : UInt8} (h : low.toNat < 16) (high : UInt8) :
    (low ||| high &&& 0xF0).toNat = high.toNat / 16 * 16 + low.toNat := by
  have hand : (high &&& 0xF0).toNat = (high.toNat / 16) <<< 4 := by
    rw [UInt8.toNat_and]
    exact and_upper_mask (k := 4) (m := 4) high.toNat_lt
  rw [UInt8.toNat_or, hand, Nat.or_comm, ← Nat.shiftLeft_add_eq_or_of_lt h, Nat.shiftLeft_eq]

theorem base_parts (base : UInt32) : (base &&& 0xFFFF).toUInt16.toNat
    + 2 ^ 16 * (base >>> 16 &&& 0xFF).toUInt8.toNat + 2 ^ 24 * (base >>> 24 &&& 0xFF).toUInt8.toNat
    = base.toNat := by
  have hlt := base.toNat_lt
  have hlow : (base &&& 0xFFFF).toNat = base.toNat % 2 ^ 16 := by
    rw [UInt32.toNat_and]
    exact Nat.and_two_pow_sub_one_eq_mod _ 16
  have hmid : (base >>> 16 &&& 0xFF).toNat = base.toNat / 2 ^ 16 % 2 ^ 8 := by
    rw [UInt32.toNat_and, UInt32.toNat_shiftRight, Nat.shiftRight_eq_div_pow]
    exact Nat.and_two_pow_sub_one_eq_mod _ 8
  have hhigh : (base >>> 24 &&& 0xFF).toNat = base.toNat / 2 ^ 24 % 2 ^ 8 := by
    rw [UInt32.toNat_and, UInt32.toNat_shiftRight, Nat.shiftRight_eq_div_pow]
    exact Nat.and_two_pow_sub_one_eq_mod _ 8
  rw [UInt32.toNat_toUInt16, UInt32.toNat_toUInt8, UInt32.toNat_toUInt8, hlow, hmid, hhigh]
  omega

theorem limit_parts (limit : UInt32) : (limit &&& 0xFFFF).toUInt16.toNat
    + 2 ^ 16 * (limit >>> 16 &&& 0x0F).toUInt8.toNat = limit.toNat % 2 ^ 20 ∧
    (limit >>> 16 &&& 0x0F).toUInt8.toNat < 16 := by
  have hlt := limit.toNat_lt
  have hlow : (limit &&& 0xFFFF).toNat = limit.toNat % 2 ^ 16 := by
    rw [UInt32.toNat_and]
    exact Nat.and_two_pow_sub_one_eq_mod _ 16
  have hhigh : (limit >>> 16 &&& 0x0F).toNat = limit.toNat / 2 ^ 16 % 2 ^ 4 := by
    rw [UInt32.toNat_and, UInt32.toNat_shiftRight, Nat.shiftRight_eq_div_pow]
    exact Nat.and_two_pow_sub_one_eq_mod _ 4
  rw [UInt32.toNat_toUInt16, UInt32.toNat_toUInt8, hlow, hhigh]
  omega

section

variable (gdtEntries : Nat) (args : GateArgs) (memory : Nat → UInt8)

/-- Where the members are; the flags are stored before they are read. -/
theorem setGDTGate_eq : setGDTGate gdtEntries args memory
    = store (gdtEntries + 8 * args.num.toNat + 5) 1 args.access.toNat
      (store (gdtEntries + 8 * args.num.toNat + 6) 1
        ((args.limit >>> 16 &&& 0x0F).toUInt8 ||| args.granularity &&& 0xF0).toNat
      (store (gdtEntries + 8 * args.num.toNat + 6) 1 (args.limit >>> 16 &&& 0x0F).toUInt8.toNat
      (store (gdtEntries + 8 * args.num.toNat) 2 (args.limit &&& 0xFFFF).toUInt16.toNat
      (store (gdtEntries + 8 * args.num.toNat + 7) 1 (args.base >>> 24 &&& 0xFF).toUInt8.toNat
      (store (gdtEntries + 8 * args.num.toNat + 4) 1 (args.base >>> 16 &&& 0xFF).toUInt8.toNat
      (store (gdtEntries + 8 * args.num.toNat + 2) 2
        (args.base &&& 0xFFFF).toUInt16.toNat memory)))))) := by
  have hflags : ∀ (a : Nat) (b : UInt8) (mem : Nat → UInt8), store a 1 b.toNat mem a = b := by
    intro a b mem
    show Function.update mem a (UInt8.ofNat b.toNat) a = b
    rw [Function.update_self, UInt8.ofNat_toNat]
  simp only [setGDTGate, hflags]
  rfl

theorem setGDTGate_of_not_mem {a : Nat} (h : a < gdtEntries + 8 * args.num.toNat ∨
    gdtEntries + 8 * args.num.toNat + 8 ≤ a) : setGDTGate gdtEntries args memory a = memory a := by
  rw [setGDTGate_eq]
  simp (disch := omega) only [store_of_not_mem]

/-- **An entry says what `setGDTGate` was given**, but for the upper bits of the
limit and the lower ones of the granularity. -/
theorem setGDTGate_read : Descriptor.read (setGDTGate gdtEntries args memory)
    (gdtEntries + 8 * args.num.toNat) = args.descriptor := by
  have hlow := (args.base &&& 0xFFFF).toUInt16.toNat_lt
  have hmid := (args.base >>> 16 &&& 0xFF).toUInt8.toNat_lt
  have hhigh := (args.base >>> 24 &&& 0xFF).toUInt8.toNat_lt
  have hlimit := (args.limit &&& 0xFFFF).toUInt16.toNat_lt
  have hflags := ((args.limit >>> 16 &&& 0x0F).toUInt8 ||| args.granularity &&& 0xF0).toNat_lt
  have haccess := args.access.toNat_lt
  obtain ⟨hlimits, hnibble⟩ := limit_parts args.limit
  simp (disch := omega) only [Descriptor.read, setGDTGate_eq, load_store_of_disjoint, load_store,
    base_parts, UInt8.ofNat_toNat]
  rw [GateArgs.descriptor, toNat_or_nibbles hnibble, ← hlimits]
  congr 1
  all_goals omega

end

/-! ## The whole table -/

/-- **The table after any calls**: each entry says what the last call for it was
given, and an entry there was no call for is as before. -/
theorem setGDTGates_read (gdtEntries : Nat) (gates : List GateArgs) (memory : Nat → UInt8)
    (n : Nat) : Descriptor.read (setGDTGates gdtEntries gates memory) (gdtEntries + 8 * n)
      = ((gates.filter (·.num.toNat == n)).getLast?.map GateArgs.descriptor).getD
        (.read memory (gdtEntries + 8 * n)) := by
  induction gates using List.reverseRecOn with
  | nil => rfl
  | append_singleton gates args ih =>
    rw [setGDTGates, List.foldl_append, List.foldl_cons, List.foldl_nil, ← setGDTGates,
      List.filter_append]
    by_cases hnum : args.num.toNat = n
    · subst hnum
      rw [setGDTGate_read]
      simp
    · have hother :
          Descriptor.read (setGDTGate gdtEntries args (setGDTGates gdtEntries gates memory))
            (gdtEntries + 8 * n) = .read (setGDTGates gdtEntries gates memory) (gdtEntries + 8 * n) :=
        Descriptor.read_congr fun i hi => setGDTGate_of_not_mem _ _ _ (by omega)
      rw [hother, ih]
      simp [hnum]

theorem setGDTGates_of_not_mem (gdtEntries : Nat) {gates : List GateArgs} {total : Nat}
    (hnum : ∀ args ∈ gates, args.num.toNat < total) (memory : Nat → UInt8) {a : Nat}
    (h : a < gdtEntries ∨ gdtEntries + 8 * total ≤ a) :
    setGDTGates gdtEntries gates memory a = memory a := by
  induction gates generalizing memory with
  | nil => rfl
  | cons args gates ih =>
    have hlt := hnum args List.mem_cons_self
    have hrest := ih (fun args' hmem => hnum args' (List.mem_cons_of_mem _ hmem))
      (setGDTGate gdtEntries args memory)
    exact hrest.trans (setGDTGate_of_not_mem _ _ _ (by omega))

/-! ## The change of tables -/

/-- `ax` behind `mov ax, 0x10`. -/
theorem ax_selector (v : UInt64) : (v &&& ~~~0xFFFF ||| 0x10).toUInt16 = 0x10 := by
  rw [← UInt16.toBitVec_inj]
  ext i hi
  simp

/-- `gdt_flush` comes back with the table loaded and the segment registers on
its entries. -/
theorem gdtFlush_spec (memory : Nat → UInt8) (p : Processor) (behind : UInt64) :
    let r := gdtFlush memory { p with cpu := p.cpu.push behind }
    let gdtr : Gdtr :=
      ⟨load memory (p.cpu.regs .rdi).toNat 2, load memory ((p.cpu.regs .rdi).toNat + 2) 8⟩
    r.2.gdtr = gdtr ∧ r.1 = gdtr.mark 0x08 (gdtr.mark 0x10 memory) ∧
    r.2.cpu.rip = behind ∧ r.2.cpu.cs = 0x08 ∧ r.2.cpu.ss = 0x10 ∧
    (r.2.ds, r.2.es, r.2.fs, r.2.gs) = (0x10, 0x10, 0x10, 0x10) ∧
    (∀ q, q ≠ .rax → r.2.cpu.regs q = p.cpu.regs q) ∧
    r.2.cpu.rflags = p.cpu.rflags ∧
    ∀ i, i < 2 ^ 59 → r.2.cpu.stack i = p.cpu.stack i := by
  intro r gdtr
  generalize hstart : (p.cpu.push behind).setReg .rax
    ((p.cpu.push behind).regs .rax &&& ~~~0xFFFF ||| 0x10) = start
  have hax : (start.regs .rax).toUInt16 = 0x10 := by
    rw [← hstart, X86.setReg_regs_self, ax_selector]
  have hregs : ∀ q, q ≠ .rax → start.regs q = (p.cpu.push behind).regs q := by
    intro q hq
    rw [← hstart, X86.setReg_regs_of_ne hq]
  have hstack : ∀ i, start.stack i = (p.cpu.push behind).stack i := by
    intro i
    rw [← hstart, X86.setReg_stack (by decide)]
  generalize hback : X86.Cpu.pop { start with ss := (0x10 : UInt16).toUInt64 } .rax = back
  have hreturn : back.regs .rax = behind := by
    rw [← hback, X86.pop_regs_self]
    exact (hstack 0).trans X86.push_stack_zero
  have hagain : (back.push 0x8).regs .rax = behind :=
    (X86.push_regs_of_ne (by decide)).trans hreturn
  have hcs : ((back.push 0x8).push behind).stack 1 = 0x08 := by
    rw [X86.push_stack_succ (by decide), X86.push_stack_zero]
  have hrdi : (p.cpu.push behind).regs .rdi = p.cpu.regs .rdi := X86.push_regs_of_ne (by decide)
  have hr : r = (gdtr.mark 0x08 (gdtr.mark 0x10 memory),
      ⟨retfq ((back.push 0x8).push behind), gdtr, 0x10, 0x10, 0x10, 0x10⟩) := by
    show gdtFlush memory _ = _
    rw [gdtFlush]
    dsimp only
    rw [hstart, hax, hback, hagain, hrdi]
    show (Gdtr.mark _ (((back.push 0x8).push behind).stack 1).toUInt16 _, _) = _
    rw [hcs]
    rfl
  have hrsp : back.regs .rsp = p.cpu.regs .rsp := by
    have hpopped : back.regs .rsp = start.regs .rsp + 8 := by
      rw [← hback]
      exact X86.pop_rsp (by decide)
    rw [hpopped, hregs .rsp (by decide), X86.push_rsp, UInt64.sub_add_cancel]
  have hkept : ∀ q, q ≠ .rax → back.regs q = p.cpu.regs q := by
    intro q hq
    by_cases hq' : q = .rsp
    · rw [hq', hrsp]
    · have hpopped : back.regs q = start.regs q := by
        rw [← hback]
        exact X86.pop_regs_of_ne hq hq'
      rw [hpopped, hregs q hq, X86.push_regs_of_ne hq']
  have habove : ∀ i, i < 2 ^ 59 → back.stack i = p.cpu.stack i := by
    intro i hi
    have hpopped : back.stack i = start.stack (i + 1) := by
      rw [← hback]
      exact X86.pop_stack (by decide)
    rw [hpopped, hstack, X86.push_stack_succ (by omega)]
  rw [hr]
  refine ⟨rfl, rfl, X86.push_stack_zero, hcs, ?_, rfl, fun q hq => ?_, ?_, fun i hi => ?_⟩
  · rw [← hback]
    rfl
  · show (((back.push 0x8).push behind).drop 2).regs q = _
    rw [← hkept q hq]
    by_cases hq' : q = .rsp
    · rw [hq', X86.drop_rsp, X86.push_rsp, X86.push_rsp]
      grind
    · rw [X86.drop_regs_of_ne hq', X86.push_regs_of_ne hq', X86.push_regs_of_ne hq']
  · rw [← hback]
    show start.rflags = _
    rw [← hstart]
    rfl
  · show (((back.push 0x8).push behind).drop 2).stack i = _
    rw [X86.drop_stack, Nat.add_comm, X86.push_stack_succ (by omega),
      X86.push_stack_succ (by omega), habove i hi]

section

variable {gdtEntries gdtPtr : UInt64} (memory : Nat → UInt8)

/-- The pointer and the table, one beside the other. -/
theorem fillGDT_spec (hplace : gdtEntries.toNat + 48 ≤ gdtPtr.toNat ∨
      gdtPtr.toNat + 10 ≤ gdtEntries.toNat) :
    let memory' := fillGDT gdtEntries gdtPtr memory
    load memory' gdtPtr.toNat 2 = 47 ∧ load memory' (gdtPtr.toNat + 2) 8 = gdtEntries.toNat ∧
    (∀ n, Descriptor.read memory' (gdtEntries.toNat + 8 * n)
      = ((gdtGates.filter (·.num.toNat == n)).getLast?.map GateArgs.descriptor).getD
        (.read (store (gdtPtr.toNat + 2) 8 gdtEntries.toNat (store gdtPtr.toNat 2 47 memory))
          (gdtEntries.toNat + 8 * n))) ∧
    ∀ a, (a < gdtEntries.toNat ∨ gdtEntries.toNat + 40 ≤ a) →
      (a < gdtPtr.toNat ∨ gdtPtr.toNat + 10 ≤ a) → memory' a = memory a := by
  intro memory'
  have hnum : ∀ args ∈ gdtGates, args.num.toNat < 5 := by decide
  have hmemory : memory' = setGDTGates gdtEntries.toNat gdtGates
      (store (gdtPtr.toNat + 2) 8 gdtEntries.toNat (store gdtPtr.toNat 2 47 memory)) := rfl
  have hkept : ∀ a n, gdtPtr.toNat ≤ a → a + n ≤ gdtPtr.toNat + 10 → ∀ mem : Nat → UInt8,
      load (setGDTGates gdtEntries.toNat gdtGates mem) a n = load mem a n := by
    intro a n hle hlt mem
    exact load_congr fun b hb hb' => setGDTGates_of_not_mem _ hnum _ (by omega)
  refine ⟨?_, ?_, fun n => ?_, fun a ha ha' => ?_⟩
  · rw [hmemory, hkept _ _ (by omega) (by omega), load_store_of_disjoint _ (by omega),
      load_store _ (by decide)]
  · rw [hmemory, hkept _ _ (by omega) (by omega), load_store]
    exact gdtEntries.toNat_lt
  · rw [hmemory, setGDTGates_read]
  · rw [hmemory, setGDTGates_of_not_mem _ hnum _ (by omega), store_of_not_mem _ (by omega),
      store_of_not_mem _ (by omega)]

/-- The table behind `initGDT`, with the marks. -/
theorem initGDT_descriptor (behind : UInt64) (p : Processor)
    (hplace : gdtEntries.toNat + 48 ≤ gdtPtr.toNat ∨ gdtPtr.toNat + 10 ≤ gdtEntries.toNat) :
    let r := initGDT gdtEntries gdtPtr behind memory p
    let read := Descriptor.read (fillGDT gdtEntries gdtPtr memory)
    r.2.gdtr = ⟨47, gdtEntries.toNat⟩ ∧
    (∀ n, Descriptor.read r.1 (gdtEntries.toNat + 8 * n)
      = if n = 1 ∨ n = 2 then (read (gdtEntries.toNat + 8 * n)).accessed
        else read (gdtEntries.toNat + 8 * n)) ∧
    ∀ a, (a < gdtEntries.toNat ∨ gdtEntries.toNat + 40 ≤ a) →
      (a < gdtPtr.toNat ∨ gdtPtr.toNat + 10 ≤ a) → r.1 a = memory a := by
  intro r read
  obtain ⟨hlimit, hbase, -, hframe⟩ := fillGDT_spec memory hplace
  obtain ⟨hgdtr, hmemory, -⟩ := gdtFlush_spec (fillGDT gdtEntries gdtPtr memory)
    { p with cpu := p.cpu.setReg .rdi gdtPtr } behind
  dsimp only at hgdtr hmemory
  rw [X86.setReg_regs_self, hlimit, hbase] at hgdtr hmemory
  have hmemory : r.1 = Gdtr.mark ⟨47, gdtEntries.toNat⟩ 0x08
      (Gdtr.mark ⟨47, gdtEntries.toNat⟩ 0x10 (fillGDT gdtEntries gdtPtr memory)) := hmemory
  refine ⟨hgdtr, fun n => ?_, fun a ha ha' => ?_⟩
  · rw [hmemory]
    by_cases hcode : n = 1
    · rw [if_pos (.inl hcode)]
      refine (Gdtr.read_mark ⟨47, gdtEntries.toNat⟩ 0x08 _ hcode.symm).trans ?_
      refine congrArg Descriptor.accessed (Gdtr.read_mark_of_ne ⟨47, gdtEntries.toNat⟩ 0x10 _ ?_)
      exact fun hdata => absurd (hdata.trans hcode) (by decide)
    · refine (Gdtr.read_mark_of_ne ⟨47, gdtEntries.toNat⟩ 0x08 _ (Ne.symm hcode)).trans ?_
      by_cases hdata : n = 2
      · rw [if_pos (.inr hdata)]
        exact Gdtr.read_mark ⟨47, gdtEntries.toNat⟩ 0x10 _ hdata.symm
      · rw [if_neg (not_or.mpr ⟨hcode, hdata⟩)]
        exact Gdtr.read_mark_of_ne ⟨47, gdtEntries.toNat⟩ 0x10 _ (Ne.symm hdata)
  · have hcode : UInt16.toNat 0x08 = 8 := rfl
    have hdata : UInt16.toNat 0x10 = 16 := rfl
    rw [hmemory, Gdtr.mark_of_ne _ _ _ (by dsimp only; omega),
      Gdtr.mark_of_ne _ _ _ (by dsimp only; omega), hframe a ha ha']

end

/-- **`initGDT` comes back** behind its call of `gdt_flush`, on a table where the
entries its segment registers name allow what they are used for: 64-bit code of
the kernel for `cs`, data for the others. There is the same for user programs,
and the last entry, which nothing writes, is what it was. `gdt_flush` keeps
every register but `rax`, the flags and the stack as they were at its call. -/
theorem initGDT_switches (gdtEntries gdtPtr behind : UInt64) (memory : Nat → UInt8) (p : Processor)
    (hplace : gdtEntries.toNat + 48 ≤ gdtPtr.toNat ∨ gdtPtr.toNat + 10 ≤ gdtEntries.toNat) :
    let atCall := p.cpu.setReg .rdi gdtPtr
    let r := initGDT gdtEntries gdtPtr behind memory p
    let entry := r.2.gdtr.descriptor r.1
    (∃ d, entry r.2.cpu.cs.toUInt16 = some d ∧ d.Runs 0 ∧ d.bits true = 64 ∧ d.Flat) ∧
    (∃ d, (∀ s ∈ [r.2.ds, r.2.es, r.2.fs, r.2.gs, r.2.cpu.ss.toUInt16], entry s = some d) ∧
      d.Holds 0 ∧ d.Flat) ∧
    (∃ d, entry 0x1B = some d ∧ d.Runs 3 ∧ d.bits true = 64 ∧ d.Flat) ∧
    (∃ d, entry 0x23 = some d ∧ d.Holds 3 ∧ d.Flat) ∧
    entry 0x28 = some (.read memory (gdtEntries.toNat + 40)) ∧
    r.2.cpu.rip = behind ∧ r.2.cpu.rflags = atCall.rflags ∧
    (∀ q, q ≠ .rax → r.2.cpu.regs q = atCall.regs q) ∧
    (∀ i, i < 2 ^ 59 → r.2.cpu.stack i = atCall.stack i) ∧
    ∀ a, (a < gdtEntries.toNat ∨ gdtEntries.toNat + 40 ≤ a) →
      (a < gdtPtr.toNat ∨ gdtPtr.toNat + 10 ≤ a) → r.1 a = memory a := by
  intro atCall r entry
  obtain ⟨hgdtr, hmarked, hmemory⟩ := initGDT_descriptor memory behind p hplace
  obtain ⟨-, -, hread, -⟩ := fillGDT_spec memory hplace
  obtain ⟨-, -, hrip, hcs, hss, hsegs, hregs, hflags, hstack⟩ :=
    gdtFlush_spec (fillGDT gdtEntries gdtPtr memory) { p with cpu := atCall } behind
  have hentry : ∀ (selector : UInt16) (n : Nat), selector.toNat / 8 = n → 0 < n → n < 6 →
      entry selector = some (.read r.1 (gdtEntries.toNat + 8 * n)) := by
    intro selector n hn hpos hlt
    show Gdtr.descriptor r.2.gdtr r.1 selector = _
    rw [hgdtr, Gdtr.descriptor]
    dsimp only
    rw [hn, Nat.mul_comm, if_pos (by omega)]
  have hcode : entry 0x08 = some (Descriptor.accessed ⟨0, 0xFFFFF, 0x9A, 0xA⟩) := by
    rw [hentry 0x08 1 rfl (by decide) (by decide), hmarked, hread]
    rfl
  have hdata : entry 0x10 = some (Descriptor.accessed ⟨0, 0xFFFFF, 0x92, 0xA⟩) := by
    rw [hentry 0x10 2 rfl (by decide) (by decide), hmarked, hread]
    rfl
  have huserCode : entry 0x1B = some ⟨0, 0xFFFFF, 0xFA, 0xA⟩ := by
    rw [hentry 0x1B 3 rfl (by decide) (by decide), hmarked, hread]
    rfl
  have huserData : entry 0x23 = some ⟨0, 0xFFFFF, 0xF2, 0xA⟩ := by
    rw [hentry 0x23 4 rfl (by decide) (by decide), hmarked, hread]
    rfl
  have hcs : r.2.cpu.cs.toUInt16 = 0x08 := congrArg UInt64.toUInt16 hcs
  have hss : r.2.cpu.ss.toUInt16 = 0x10 := congrArg UInt64.toUInt16 hss
  have hsegs : (r.2.ds, r.2.es, r.2.fs, r.2.gs) = (0x10, 0x10, 0x10, 0x10) := hsegs
  simp only [Prod.mk.injEq] at hsegs
  obtain ⟨hds, hes, hfs, hgs⟩ := hsegs
  refine ⟨⟨_, hcs ▸ hcode, by decide, by decide, by decide⟩,
    ⟨Descriptor.accessed ⟨0, 0xFFFFF, 0x92, 0xA⟩, ?_, by decide, by decide⟩,
    ⟨_, huserCode, by decide, by decide, by decide⟩, ⟨_, huserData, by decide, by decide⟩, ?_, hrip,
    hflags, hregs, hstack, hmemory⟩
  · rw [hds, hes, hfs, hgs, hss]
    simpa using hdata
  · rw [hentry 0x28 5 rfl (by decide) (by decide)]
    have hkept : Descriptor.read r.1 (gdtEntries.toNat + 8 * 5)
        = .read memory (gdtEntries.toNat + 40) :=
      Descriptor.read_congr fun i hi => hmemory _ (by omega) (by omega)
    rw [hkept]

/-- From the tables of `kinit`, with the table at 2 MiB and the pointer behind
it. -/
theorem initGDT_switches_sample :
    let r := initGDT 0x200000 0x200030 0x101234 (fun _ => 0)
      ⟨⟨fun _ => 0x300000, 0x101200, 0x18, 0x2, 0x20, fun _ => 0⟩, ⟨0, 0⟩, 0x10, 0x10, 0, 0⟩
    r.2.cpu.rip = 0x101234 ∧ r.2.gdtr.descriptor r.1 0x28 = some ⟨0, 0, 0, 0⟩ := by
  intro r
  obtain ⟨-, -, -, -, hlast, hrip, -⟩ := initGDT_switches 0x200000 0x200030 0x101234 (fun _ => 0)
    ⟨⟨fun _ => 0x300000, 0x101200, 0x18, 0x2, 0x20, fun _ => 0⟩, ⟨0, 0⟩, 0x10, 0x10, 0, 0⟩
    (.inl (by decide))
  exact ⟨hrip, hlast⟩

end Netclover.Kernel
