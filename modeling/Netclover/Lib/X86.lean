import Netclover.Lib.CLayout

/-!
# X86: a stack machine of 64-bit registers

The instructions an interrupt stub is made of, on a register file and a memory
of quadwords. The stack is seen from its top: `stack i` is the `i`-th quadword
from `rsp` on, and each instruction that moves `rsp` has a lemma that says how
the quadwords move. A memory of quadwords is a memory of bytes as long as the
stack pointer is a multiple of eight.

`deliver` is what the processor does on an interrupt without a change of
privilege, through a `Gate` of the interrupt descriptor table, and `Procedure`
a function that obeys the System V calling convention.
-/

namespace X86

inductive Reg where
  | rax | rcx | rdx | rbx | rsp | rbp | rsi | rdi
  | r8 | r9 | r10 | r11 | r12 | r13 | r14 | r15
  deriving DecidableEq, Repr

structure Cpu where
  regs : Reg → UInt64
  rip : UInt64
  cs : UInt64
  rflags : UInt64
  ss : UInt64
  mem : UInt64 → UInt64

namespace Cpu

variable (c : Cpu)

def setReg (r : Reg) (v : UInt64) : Cpu := { c with regs := Function.update c.regs r v }

def setFlags (v : UInt64) : Cpu := { c with rflags := v }

/-- The quadword `i` places above the top of the stack. -/
def stack (i : Nat) : UInt64 := c.mem (c.regs .rsp + 8 * UInt64.ofNat i)

def push (v : UInt64) : Cpu :=
  { c with
    regs := Function.update c.regs .rsp (c.regs .rsp - 8)
    mem := Function.update c.mem (c.regs .rsp - 8) v }

/-- Move the stack pointer up by `n` quadwords. -/
def drop (n : Nat) : Cpu := c.setReg .rsp (c.regs .rsp + 8 * UInt64.ofNat n)

def pop (r : Reg) : Cpu := (c.drop 1).setReg r (c.stack 0)

/-- Back to where the five quadwords on top of the stack say. -/
def iretq : Cpu :=
  { c.setReg .rsp (c.stack 3) with
    rip := c.stack 0, cs := c.stack 1, rflags := c.stack 2, ss := c.stack 4 }

end Cpu

/-! ## The stack from its top -/

section

variable {c : Cpu} {v : UInt64} {r : Reg} {i : Nat}

theorem setReg_regs_self : (c.setReg r v).regs r = v := Function.update_self ..

theorem setReg_regs_of_ne {q : Reg} (h : q ≠ r) : (c.setReg r v).regs q = c.regs q :=
  Function.update_of_ne h ..

@[simp] theorem setReg_mem : (c.setReg r v).mem = c.mem := rfl

@[simp] theorem setFlags_regs : (c.setFlags v).regs = c.regs := rfl

@[simp] theorem setFlags_stack : (c.setFlags v).stack i = c.stack i := rfl

theorem setReg_stack (h : r ≠ .rsp) : (c.setReg r v).stack i = c.stack i := by
  simp only [Cpu.stack, setReg_mem, setReg_regs_of_ne h.symm]

theorem push_rsp : (c.push v).regs .rsp = c.regs .rsp - 8 := by
  simp [Cpu.push]

theorem push_regs_of_ne {q : Reg} (h : q ≠ .rsp) : (c.push v).regs q = c.regs q :=
  Function.update_of_ne h ..

theorem push_stack_zero : (c.push v).stack 0 = v := by
  simp [Cpu.stack, Cpu.push]

/-- A push moves the stack down and touches nothing above it. -/
theorem push_stack_succ (h : i < 2 ^ 60) : (c.push v).stack (i + 1) = c.stack i := by
  have h8 : (8 : UInt64).toNat = 8 := rfl
  have hlt := (c.regs .rsp).toNat_lt
  have haddr : c.regs .rsp - 8 + 8 * UInt64.ofNat (i + 1) = c.regs .rsp + 8 * UInt64.ofNat i := by
    rw [← UInt64.toNat_inj]
    simp only [UInt64.toNat_add, UInt64.toNat_sub, UInt64.toNat_mul, UInt64.toNat_ofNat', h8]
    omega
  have hne : c.regs .rsp + 8 * UInt64.ofNat i ≠ c.regs .rsp - 8 := by
    intro e
    rw [← UInt64.toNat_inj] at e
    simp only [UInt64.toNat_add, UInt64.toNat_sub, UInt64.toNat_mul, UInt64.toNat_ofNat', h8] at e
    omega
  rw [Cpu.stack, push_rsp, haddr]
  exact Function.update_of_ne hne ..

theorem drop_rsp {n : Nat} : (c.drop n).regs .rsp = c.regs .rsp + 8 * UInt64.ofNat n :=
  setReg_regs_self

theorem drop_regs_of_ne {n : Nat} {q : Reg} (h : q ≠ .rsp) : (c.drop n).regs q = c.regs q :=
  setReg_regs_of_ne h

theorem drop_stack {n : Nat} : (c.drop n).stack i = c.stack (n + i) := by
  have haddr : c.regs .rsp + 8 * UInt64.ofNat n + 8 * UInt64.ofNat i
      = c.regs .rsp + 8 * UInt64.ofNat (n + i) := by
    rw [UInt64.ofNat_add, UInt64.mul_add, UInt64.add_assoc]
  rw [Cpu.stack, drop_rsp, haddr]
  rfl

theorem pop_regs_self : (c.pop r).regs r = c.stack 0 := setReg_regs_self

theorem pop_regs_of_ne {q : Reg} (h : q ≠ r) (h' : q ≠ .rsp) : (c.pop r).regs q = c.regs q := by
  rw [Cpu.pop, setReg_regs_of_ne h, drop_regs_of_ne h']

theorem pop_stack (h : r ≠ .rsp) : (c.pop r).stack i = c.stack (i + 1) := by
  rw [Cpu.pop, setReg_stack h, drop_stack, Nat.add_comm]

theorem pop_rsp (h : r ≠ .rsp) : (c.pop r).regs .rsp = c.regs .rsp + 8 := by
  rw [Cpu.pop, setReg_regs_of_ne h.symm, drop_rsp]
  rfl

/-- A stack pointer that is set to what it is. -/
theorem setReg_rsp_stack (h : v = c.regs .rsp) : (c.setReg .rsp v).stack i = c.stack i := by
  rw [Cpu.stack, setReg_regs_self, setReg_mem, h, Cpu.stack]

theorem iretq_rsp : c.iretq.regs .rsp = c.stack 3 := by
  simp [Cpu.iretq, Cpu.setReg]

theorem iretq_regs_of_ne {q : Reg} (h : q ≠ .rsp) : c.iretq.regs q = c.regs q :=
  setReg_regs_of_ne h

theorem iretq_rip : c.iretq.rip = c.stack 0 := rfl

theorem iretq_rflags : c.iretq.rflags = c.stack 2 := rfl

end

/-! ## Procedures -/

/-- The registers a procedure hands back as it found them. -/
def calleeSaved (r : Reg) : Prop := r ∈ [.rbx, .rsp, .rbp, .r12, .r13, .r14, .r15]

/-- A procedure of the System V calling convention, from its first
instruction up to its `ret`: it may do anything to memory and to the other
registers, but it finds its way back. -/
structure Procedure where
  body : Cpu → Cpu
  saves : ∀ c r, calleeSaved r → (body c).regs r = c.regs r
  returns : ∀ c, (body c).stack 0 = c.stack 0

/-! ## Instructions -/

inductive Instr where
  | cli
  | cld
  | pushImm (v : UInt64)
  | push (r : Reg)
  | pop (r : Reg)
  | mov (dst src : Reg)
  | addRsp (n : Nat)
  | call
  | iretq

def flagIF : UInt64 := 0x200

def flagDF : UInt64 := 0x400

/-- Whether a byte has an even number of ones. -/
def evenParity (b : UInt8) : Bool := (List.range 8).countP (b.toNat.testBit ·) % 2 == 0

/-- The six arithmetic flags after `a + b`. -/
def addFlags (a b rflags : UInt64) : UInt64 :=
  let sum := a + b
  let bit (flag : UInt64) (on : Bool) : UInt64 := if on then flag else 0
  (rflags &&& ~~~0x8D5) ||| bit 0x1 (sum < a) ||| bit 0x4 (evenParity sum.toUInt8) |||
    bit 0x10 ((a &&& 0xF) + (b &&& 0xF) > 0xF) ||| bit 0x40 (sum = 0) ||| bit 0x80 (sum >>> 63 = 1) |||
    bit 0x800 ((a ^^^ sum) &&& (b ^^^ sum) >>> 63 = 1)

/-- One instruction. A `call` calls `h` and returns to `ret`; `addRsp n` adds
`n` quadwords. -/
def step (h : Procedure) (ret : UInt64) (c : Cpu) : Instr → Cpu
  | .cli => c.setFlags (c.rflags &&& ~~~flagIF)
  | .cld => c.setFlags (c.rflags &&& ~~~flagDF)
  | .pushImm v => c.push v
  | .push r => c.push (c.regs r)
  | .pop r => c.pop r
  | .mov dst src => c.setReg dst (c.regs src)
  | .addRsp n => (c.drop n).setFlags (addFlags (c.regs .rsp) (8 * UInt64.ofNat n) c.rflags)
  | .call => (h.body (c.push ret)).drop 1
  | .iretq => c.iretq

def exec (h : Procedure) (ret : UInt64) (code : List Instr) (c : Cpu) : Cpu :=
  code.foldl (step h ret) c

theorem exec_append (h : Procedure) (ret : UInt64) (code code' : List Instr) (c : Cpu) :
    exec h ret (code ++ code') c = exec h ret code' (exec h ret code c) :=
  List.foldl_append

/-! ## Interrupts -/

/-- The flags an interrupt gate clears: TF, IF, NT and RF. -/
def gateFlags : UInt64 := 0x14300

/-- An interrupt through a gate, on the stack of the interrupted code: the
stack is aligned to sixteen bytes, and what `iretq` takes off is put on. -/
def deliver (offset selector : UInt64) (c : Cpu) : Cpu :=
  let frame := (((((c.setReg .rsp (c.regs .rsp &&& ~~~0xF)).push c.ss).push (c.regs .rsp)).push
    c.rflags).push c.cs).push c.rip
  { frame with rip := offset, cs := selector, rflags := c.rflags &&& ~~~gateFlags }

theorem deliver_regs_of_ne {offset selector : UInt64} {c : Cpu} {r : Reg} (h : r ≠ .rsp) :
    (deliver offset selector c).regs r = c.regs r := by
  have hframe : (deliver offset selector c).regs r
      = ((((((c.setReg .rsp (c.regs .rsp &&& ~~~0xF)).push c.ss).push (c.regs .rsp)).push
        c.rflags).push c.cs).push c.rip).regs r := rfl
  rw [hframe]
  simp only [push_regs_of_ne h, setReg_regs_of_ne h]

/-- What is on the stack when the first instruction runs. -/
theorem deliver_stack (offset selector : UInt64) (c : Cpu) :
    (deliver offset selector c).stack 0 = c.rip ∧
    (deliver offset selector c).stack 1 = c.cs ∧
    (deliver offset selector c).stack 2 = c.rflags ∧
    (deliver offset selector c).stack 3 = c.regs .rsp ∧
    (deliver offset selector c).stack 4 = c.ss := by
  have hframe : ∀ i, (deliver offset selector c).stack i
      = ((((((c.setReg .rsp (c.regs .rsp &&& ~~~0xF)).push c.ss).push (c.regs .rsp)).push
        c.rflags).push c.cs).push c.rip).stack i := fun _ => rfl
  simp only [hframe]
  refine ⟨push_stack_zero, ?_, ?_, ?_, ?_⟩
  · rw [push_stack_succ (by decide), push_stack_zero]
  · rw [push_stack_succ (by decide), push_stack_succ (by decide), push_stack_zero]
  · rw [push_stack_succ (by decide), push_stack_succ (by decide), push_stack_succ (by decide),
      push_stack_zero]
  · rw [push_stack_succ (by decide), push_stack_succ (by decide), push_stack_succ (by decide),
      push_stack_succ (by decide), push_stack_zero]

/-! ## Gates -/

/-- What sixteen bytes of the interrupt descriptor table say. -/
structure Gate where
  offset : UInt64
  selector : UInt16
  ist : Nat
  attributes : UInt8
  deriving DecidableEq, Repr

/-- The offset is in three parts. -/
def Gate.read (mem : Nat → UInt8) (a : Nat) : Gate where
  offset := UInt64.ofNat
    (CLayout.load mem a 2 + 2 ^ 16 * CLayout.load mem (a + 6) 2 + 2 ^ 32 * CLayout.load mem (a + 8) 4)
  selector := UInt16.ofNat (CLayout.load mem (a + 2) 2)
  ist := CLayout.load mem (a + 4) 1 % 8
  attributes := UInt8.ofNat (CLayout.load mem (a + 5) 1)

def Gate.present (g : Gate) : Bool := g.attributes &&& 0x80 != 0

/-- A gate is its first twelve bytes. -/
theorem Gate.read_congr {mem mem' : Nat → UInt8} {a : Nat} (h : ∀ i < 12, mem (a + i) = mem' (a + i)) :
    Gate.read mem a = Gate.read mem' a := by
  have hload : ∀ k n, k + n ≤ 12 → CLayout.load mem (a + k) n = CLayout.load mem' (a + k) n := by
    intro k n hk
    apply CLayout.load_congr
    intro b hb hb'
    have hbyte := h (b - a) (by omega)
    rwa [Nat.add_sub_cancel' (by omega)] at hbyte
  have hlow := hload 0 2 (by decide)
  rw [Nat.add_zero] at hlow
  rw [Gate.read, Gate.read, hlow, hload 2 2 (by decide), hload 4 1 (by decide),
    hload 5 1 (by decide), hload 6 2 (by decide), hload 8 4 (by decide)]

end X86
