import Netclover.Lib.X86

/-!
# Interrupt stubs (`kernel/x86/idt.asm`)

The code between a hardware interrupt and the C function `irq_handler`, and
back. The stub saves rax, rbx, rcx and rdx and takes rdi for the argument; the
calling convention lets the handler change rsi, rdi and r8 to r11 as well. So
the interrupted code gets its registers back exactly if the handler happens to
leave these as they were (`irq_transparent_iff`).
-/

namespace Netclover.Kernel

open X86

/-! ## `struct InterruptRegisters` -/

structure InterruptRegisters where
  rdx : UInt64
  rcx : UInt64
  rbx : UInt64
  rax : UInt64
  intNo : UInt64
  errNo : UInt64
  rip : UInt64
  cs : UInt64
  rflags : UInt64
  rsp : UInt64
  ss : UInt64

/-- `*regs`. -/
def InterruptRegisters.load (mem : UInt64 → UInt64) (regs : UInt64) : InterruptRegisters where
  rdx := mem regs
  rcx := mem (regs + 8)
  rbx := mem (regs + 16)
  rax := mem (regs + 24)
  intNo := mem (regs + 32)
  errNo := mem (regs + 40)
  rip := mem (regs + 48)
  cs := mem (regs + 56)
  rflags := mem (regs + 64)
  rsp := mem (regs + 72)
  ss := mem (regs + 80)

/-- The frame is the top of the stack. -/
theorem InterruptRegisters.load_rsp (c : Cpu) : InterruptRegisters.load c.mem (c.regs .rsp)
    = ⟨c.stack 0, c.stack 1, c.stack 2, c.stack 3, c.stack 4, c.stack 5, c.stack 6, c.stack 7,
      c.stack 8, c.stack 9, c.stack 10⟩ := by
  have hzero : c.regs .rsp + 8 * UInt64.ofNat 0 = c.regs .rsp := UInt64.add_zero _
  simp only [Cpu.stack, hzero]
  rfl

/-- The words the stub and `iretq` load back, but for the segments. -/
def InterruptRegisters.saved (regs : InterruptRegisters) : List UInt64 :=
  [regs.rdx, regs.rcx, regs.rbx, regs.rax, regs.rip, regs.rflags, regs.rsp]

/-! ## The stubs -/

def pushall : List Instr := [.push .rax, .push .rbx, .push .rcx, .push .rdx]

/-- The last instruction, `add rsp, 16`, destroys the interrupt number and the
error code. -/
def popall : List Instr := [.pop .rdx, .pop .rcx, .pop .rbx, .pop .rax, .addRsp 2]

/-- `IRQ %1, %2`, up to the jump to the common stub. -/
def irqStub (vector : UInt64) : List Instr := [.cli, .pushImm 0, .pushImm vector]

/-- `irq_common_stub` up to the call, and from the call on. -/
def irqCommonEntry : List Instr := pushall ++ [.mov .rdi .rsp, .cld]

def irqCommonExit : List Instr := popall ++ [.iretq]

/-- `IRQ 0, 32` to `IRQ 15, 47`. -/
def irqVector (irq : Fin 16) : UInt64 := 32 + UInt64.ofNat irq.val

/-- The processor in front of `call irq_handler`. -/
def irqEntry (h : Procedure) (ret offset selector : UInt64) (irq : Fin 16) (c : Cpu) : Cpu :=
  exec h ret (irqStub (irqVector irq) ++ irqCommonEntry) (deliver offset selector c)

/-- The processor when `irq_handler` returns. -/
def irqReturn (h : Procedure) (ret offset selector : UInt64) (irq : Fin 16) (c : Cpu) : Cpu :=
  h.body ((irqEntry h ret offset selector irq c).push ret)

/-- The whole way, from the interrupt to behind the `iretq`. -/
def irqRun (h : Procedure) (ret offset selector : UInt64) (irq : Fin 16) (c : Cpu) : Cpu :=
  exec h ret (irqStub (irqVector irq) ++ irqCommonEntry ++ [.call] ++ irqCommonExit)
    (deliver offset selector c)

/-- The interrupted code does not notice. -/
structure Transparent (c c' : Cpu) : Prop where
  regs : ∀ r, c'.regs r = c.regs r
  rip : c'.rip = c.rip
  rflags : c'.rflags = c.rflags

/-! ## In -/

section

variable (h : Procedure) (ret offset selector : UInt64) (irq : Fin 16) (c : Cpu)

/-- What the stub does to the registers: it takes rdi for the argument. -/
theorem irqEntry_regs :
    (irqEntry h ret offset selector irq c).regs .rdi
      = (irqEntry h ret offset selector irq c).regs .rsp ∧
    ∀ r, r ≠ .rsp → r ≠ .rdi → (irqEntry h ret offset selector irq c).regs r = c.regs r := by
  simp only [irqEntry, irqStub, irqCommonEntry, pushall, exec, List.cons_append, List.nil_append,
    List.foldl_cons, List.foldl_nil, step, setFlags_regs]
  constructor
  · rw [setReg_regs_self, setReg_regs_of_ne (by decide)]
  · intro r hrsp hrdi
    simp only [setReg_regs_of_ne hrdi, push_regs_of_ne hrsp, setFlags_regs,
      deliver_regs_of_ne hrsp]

/-- **The frame**: `irq_handler` gets a pointer to the interrupted registers
and the number of the interrupt. -/
theorem irq_frame :
    InterruptRegisters.load (irqEntry h ret offset selector irq c).mem
      ((irqEntry h ret offset selector irq c).regs .rdi)
      = ⟨c.regs .rdx, c.regs .rcx, c.regs .rbx, c.regs .rax, irqVector irq, 0, c.rip, c.cs,
        c.rflags, c.regs .rsp, c.ss⟩ := by
  obtain ⟨h₀, h₁, h₂, h₃, h₄⟩ := deliver_stack offset selector c
  rw [(irqEntry_regs h ret offset selector irq c).1, InterruptRegisters.load_rsp]
  simp (disch := decide) only [irqEntry, irqStub, irqCommonEntry, pushall, exec, List.cons_append,
    List.nil_append, List.foldl_cons, List.foldl_nil, step, setFlags_stack, setReg_stack,
    push_stack_zero, push_stack_succ, push_regs_of_ne, setFlags_regs, deliver_regs_of_ne,
    h₀, h₁, h₂, h₃, h₄]

/-! ## Out -/

/-- What the stub loads back, and from where. -/
theorem irqCommonExit_regs :
    let c' := exec h ret irqCommonExit c
    (c'.regs .rdx = c.stack 0 ∧ c'.regs .rcx = c.stack 1 ∧ c'.regs .rbx = c.stack 2 ∧
      c'.regs .rax = c.stack 3 ∧ c'.rip = c.stack 6 ∧ c'.rflags = c.stack 8 ∧
      c'.regs .rsp = c.stack 9) ∧
    ∀ r, r ∉ [Reg.rax, .rbx, .rcx, .rdx, .rsp] → c'.regs r = c.regs r := by
  intro c'
  constructor
  · simp (disch := decide) only [c', exec, irqCommonExit, popall, List.cons_append, List.nil_append,
      List.foldl_cons, List.foldl_nil, step, iretq_regs_of_ne, iretq_rsp, iretq_rip, iretq_rflags,
      setFlags_regs, setFlags_stack, drop_regs_of_ne, drop_stack, pop_regs_of_ne, pop_regs_self,
      pop_stack, Nat.reduceAdd, and_self]
  · intro r hr
    simp only [List.mem_cons, List.not_mem_nil, or_false, not_or] at hr
    obtain ⟨hrax, hrbx, hrcx, hrdx, hrsp⟩ := hr
    simp only [c', exec, irqCommonExit, popall, List.cons_append, List.nil_append, List.foldl_cons,
      List.foldl_nil, step, iretq_regs_of_ne hrsp, setFlags_regs, drop_regs_of_ne hrsp,
      pop_regs_of_ne hrax hrsp, pop_regs_of_ne hrbx hrsp, pop_regs_of_ne hrcx hrsp,
      pop_regs_of_ne hrdx hrsp]

/-- `irq_handler` hands back the registers it must, and behind the return
address the stack pointer is the one it got as argument. -/
theorem irqReturn_saves :
    (∀ r, calleeSaved r → r ≠ .rsp → (irqReturn h ret offset selector irq c).regs r = c.regs r) ∧
    ((irqReturn h ret offset selector irq c).drop 1).regs .rsp
      = (irqEntry h ret offset selector irq c).regs .rdi := by
  obtain ⟨hrdi, hentry⟩ := irqEntry_regs h ret offset selector irq c
  have hsaves : ∀ r, calleeSaved r → (irqReturn h ret offset selector irq c).regs r
      = ((irqEntry h ret offset selector irq c).push ret).regs r := fun r hr => h.saves _ r hr
  constructor
  · intro r hr hrsp
    have hne : r ≠ .rdi := by
      rintro rfl
      revert hr
      simp [calleeSaved]
    rw [hsaves r hr, push_regs_of_ne hrsp, hentry r hrsp hne]
  · rw [drop_rsp, hsaves .rsp (by simp [calleeSaved]), push_rsp, hrdi]
    exact UInt64.sub_add_cancel _ 8

/-- **What the interrupted code gets back**: the saved words as `irq_handler`
left them, and the other registers from it. -/
theorem irqRun_regs :
    let c' := irqRun h ret offset selector irq c
    let back := irqReturn h ret offset selector irq c
    (InterruptRegisters.load back.mem ((irqEntry h ret offset selector irq c).regs .rdi)).saved
      = [c'.regs .rdx, c'.regs .rcx, c'.regs .rbx, c'.regs .rax, c'.rip, c'.rflags, c'.regs .rsp] ∧
    ∀ r, r ∉ [Reg.rax, .rbx, .rcx, .rdx, .rsp] → c'.regs r = back.regs r := by
  intro c' back
  have hrun : c' = exec h ret irqCommonExit (back.drop 1) := by
    show irqRun h ret offset selector irq c = _
    rw [irqRun, exec_append, exec_append]
    rfl
  have hload := InterruptRegisters.load_rsp (back.drop 1)
  rw [(irqReturn_saves h ret offset selector irq c).2] at hload
  obtain ⟨⟨hdx, hcx, hbx, hax, hip, hfl, hsp⟩, hrest⟩ := irqCommonExit_regs h ret (back.drop 1)
  rw [← hrun] at hdx hcx hbx hax hip hfl hsp hrest
  constructor
  · rw [hdx, hcx, hbx, hax, hip, hfl, hsp]
    exact congrArg InterruptRegisters.saved hload
  · intro r hr
    have hne : r ≠ .rsp := fun e => hr (by rw [e]; simp)
    rw [hrest r hr, drop_regs_of_ne hne]

/-- `irq_handler` leaves what the calling convention lets it change as the
interrupt found it: the scratch registers that are not saved, and the words
that are. -/
structure LeavesInterrupted (c entry back : Cpu) : Prop where
  scratch : ∀ r ∈ [Reg.rsi, .rdi, .r8, .r9, .r10, .r11], back.regs r = c.regs r
  saved : (InterruptRegisters.load back.mem (entry.regs .rdi)).saved
    = (InterruptRegisters.load entry.mem (entry.regs .rdi)).saved

/-- **Interrupts are transparent** exactly if the handler leaves the scratch
registers rsi, rdi and r8 to r11 as the interrupt found them, and the saved
words alone. -/
theorem irq_transparent_iff : Transparent c (irqRun h ret offset selector irq c) ↔
    LeavesInterrupted c (irqEntry h ret offset selector irq c)
      (irqReturn h ret offset selector irq c) := by
  have hsaves := (irqReturn_saves h ret offset selector irq c).1
  obtain ⟨hsaved, hrest⟩ := irqRun_regs h ret offset selector irq c
  have hframe := congrArg InterruptRegisters.saved (irq_frame h ret offset selector irq c)
  constructor
  · intro htransparent
    constructor
    · intro r hr
      have hnot : r ∉ [Reg.rax, .rbx, .rcx, .rdx, .rsp] := by
        revert hr
        cases r <;> decide
      rw [← hrest r hnot, htransparent.regs r]
    · rw [hsaved, hframe]
      simp only [InterruptRegisters.saved, htransparent.regs, htransparent.rip, htransparent.rflags]
  · intro hleaves
    have hwords := hleaves.saved
    rw [hsaved, hframe] at hwords
    simp only [InterruptRegisters.saved, List.cons.injEq, and_true] at hwords
    obtain ⟨hdx, hcx, hbx, hax, hip, hfl, hsp⟩ := hwords
    refine ⟨fun r => ?_, hip, hfl⟩
    have hkept : r ∈ [Reg.rsi, .rdi, .r8, .r9, .r10, .r11] ∨ calleeSaved r ∨
        r ∈ [Reg.rax, .rcx, .rdx] := by
      cases r <;> simp [calleeSaved]
    by_cases hstack : r ∈ [Reg.rax, .rbx, .rcx, .rdx, .rsp]
    · -- loaded back from the stack
      simp only [List.mem_cons, List.not_mem_nil, or_false] at hstack
      rcases hstack with rfl | rfl | rfl | rfl | rfl
      · exact hax
      · exact hbx
      · exact hcx
      · exact hdx
      · exact hsp
    · -- as the handler left it
      have hne : r ≠ .rsp := fun e => hstack (by rw [e]; simp)
      rw [hrest r hstack]
      rcases hkept with hscratch | hcallee | hloaded
      · exact hleaves.scratch r hscratch
      · exact hsaves r hcallee hne
      · exact absurd hloaded (by revert hstack; cases r <;> decide)

end

/-- A handler that returns at once. -/
def plainReturn : Procedure := ⟨id, fun _ _ _ => rfl, fun _ => rfl⟩

/-- **The defect**: the stub itself overwrites rdi and never loads it back, so
even a handler that does nothing is noticed. -/
theorem irq_not_transparent : ¬ ∀ (h : Procedure) (ret offset selector : UInt64) (irq : Fin 16)
    (c : Cpu), Transparent c (irqRun h ret offset selector irq c) := by
  intro h
  have ht := h plainReturn 0 0 0x08 1
    ⟨fun r => if r = .rsp then 0x200000 else 0, 0xFFFFFFFFC0200000, 0x08, 0x202, 0x10, fun _ => 0⟩
  have hrdi := ht.regs .rdi
  revert hrdi
  decide +kernel

end Netclover.Kernel
