import Netclover.Kernel.Idt

/-!
# Exceptions (`kernel/x86/idt.asm`)

The processor pushes an error code for some exceptions, and the stub of the
others pushes a zero in its place, so that `isr_handler` finds one frame for
all. The stubs of four vectors push the zero on top of an error code:
`isr_frame_iff` says that for these, and for no others, the frame is not that
of the exception.
-/

namespace Netclover.Kernel

open X86

/-! ## The stubs -/

/-- The labels `isr%1` and `isq%1`. -/
inductive Label where
  | isr (n : Nat)
  | isq (n : Nat)
  deriving DecidableEq, Repr

/-- The macros `ISR_NOCODE`, `ISR_CODE` and `IRQ`. -/
inductive Stub where
  | isrNoCode (n : Nat)
  | isrCode (n : Nat)
  | irq (n vector : Nat)
  deriving DecidableEq, Repr

namespace Stub

def label : Stub → Label
  | .isrNoCode n | .isrCode n => .isr n
  | .irq n _ => .isq n

/-- The number that is pushed last. -/
def vector : Stub → Nat
  | .isrNoCode n | .isrCode n => n
  | .irq _ vector => vector

/-- Up to the jump to the common stub. -/
def code : Stub → List Instr
  | .isrNoCode n => [.cli, .pushImm 0, .pushImm (UInt64.ofNat n)]
  | .isrCode n => [.cli, .pushImm (UInt64.ofNat n)]
  | .irq _ vector => irqStub (UInt64.ofNat vector)

end Stub

/-- Lines 30-82, in order. -/
def stubs : List Stub := [
  .isrNoCode 0, .isrNoCode 1, .isrNoCode 2, .isrNoCode 3, .isrNoCode 4, .isrNoCode 5, .isrNoCode 6,
  .isrNoCode 7, .isrCode 8, .isrNoCode 9, .isrCode 10, .isrCode 11, .isrCode 12, .isrCode 13,
  .isrCode 14, .isrNoCode 15, .isrNoCode 16, .isrNoCode 17, .isrNoCode 18, .isrNoCode 19,
  .isrNoCode 20, .isrNoCode 21, .isrNoCode 22, .isrNoCode 23, .isrNoCode 24, .isrNoCode 25,
  .isrNoCode 26, .isrNoCode 27, .isrNoCode 28, .isrNoCode 29, .isrNoCode 30, .isrNoCode 31,
  .irq 0 32, .irq 1 33, .irq 2 34, .irq 3 35, .irq 4 36, .irq 5 37, .irq 6 38, .irq 7 39,
  .irq 8 40, .irq 9 41, .irq 10 42, .irq 11 43, .irq 12 44, .irq 13 45, .irq 14 46, .irq 15 47,
  .irq 16 48, .isrNoCode 127, .isrNoCode 128]

/-- `isr0` to `isr31`. -/
def isrStub (vector : Fin 32) : Stub := stubs.get (vector.castLE (by decide))

theorem isrStub_label (vector : Fin 32) : (isrStub vector).label = .isr vector := by
  revert vector
  decide

/-- `isr_common_stub` up to the call, and from there to the `iretq`. -/
def isrCommonEntry : List Instr := pushall ++ [.mov .rdi .rsp, .cld]

def isrCommonExit : List Instr := [.mov .rsp .rax] ++ popall

/-- `isr_handler`, compiled: it hands back the pointer it got, and writes
nothing through it. -/
structure IsrHandler extends Procedure where
  result : ∀ c, (body c).regs .rax = c.regs .rdi
  frame : ∀ c, ∀ i < 11, (body c).stack (i + 1) = c.stack (i + 1)

/-! ## Delivery -/

/-- The exceptions for which the processor pushes an error code. -/
def hasErrorCode (vector : Fin 32) : Bool := vector ∈ ([8, 10, 11, 12, 13, 14, 17, 21, 29, 30] :
  List (Fin 32))

/-- The exception `vector` through a gate. -/
def raise (offset selector : UInt64) (vector : Fin 32) (error : UInt64) (c : Cpu) : Cpu :=
  if hasErrorCode vector then (deliver offset selector c).push error else deliver offset selector c

section

variable (h : IsrHandler) (ret offset selector : UInt64) (vector : Fin 32) (error : UInt64) (c : Cpu)

/-- The processor in front of `call isr_handler`. -/
def isrEntry : Cpu :=
  exec h.toProcedure ret ((isrStub vector).code ++ isrCommonEntry)
    (raise offset selector vector error c)

/-- In front of the `iretq`. -/
def isrExit : Cpu :=
  exec h.toProcedure ret ((isrStub vector).code ++ isrCommonEntry ++ [.call] ++ isrCommonExit)
    (raise offset selector vector error c)

/-- The frame that `isr_handler` receives. -/
def isrRegisters : InterruptRegisters :=
  InterruptRegisters.load (isrEntry h ret offset selector vector error c).mem
    ((isrEntry h ret offset selector vector error c).regs .rdi)

/-- `isr_handler` gets the exception, and the `iretq` finds the frame that the
processor pushed. -/
structure FrameMatches (regs : InterruptRegisters) : Prop where
  intNo : regs.intNo = UInt64.ofNat vector.val
  errNo : regs.errNo = if hasErrorCode vector then error else 0
  rip : regs.rip = c.rip
  cs : regs.cs = c.cs
  rflags : regs.rflags = c.rflags
  rsp : regs.rsp = c.regs .rsp
  ss : regs.ss = c.ss
  atFrame : (isrExit h ret offset selector vector error c).regs .rsp
    = (deliver offset selector c).regs .rsp
  resumes : (isrExit h ret offset selector vector error c).iretq.rip = c.rip

end

/-! ## In and out -/

section

variable (h : Procedure) (ret : UInt64) (b : Cpu) {i : Nat}

theorem isrCommonEntry_stack (hi : i < 2 ^ 32) :
    (exec h ret isrCommonEntry b).regs .rdi = (exec h ret isrCommonEntry b).regs .rsp ∧
    (exec h ret isrCommonEntry b).regs .rsp = b.regs .rsp - 32 ∧
    (exec h ret isrCommonEntry b).stack (i + 4) = b.stack i := by
  simp only [exec, isrCommonEntry, pushall, List.cons_append, List.nil_append, List.foldl_cons,
    List.foldl_nil, step]
  refine ⟨?_, ?_, ?_⟩
  · rw [setFlags_regs, setReg_regs_self, setReg_regs_of_ne (by decide)]
  · rw [setFlags_regs, setReg_regs_of_ne (by decide)]
    simp only [push_rsp]
    grind
  · rw [setFlags_stack, setReg_stack (by decide)]
    simp (disch := omega) only [push_stack_succ]

/-- A stub pushes its number, and a zero first if it is to. -/
theorem isrNoCode_stack (n : Nat) (hi : i < 2 ^ 32) :
    let y := exec h ret (Stub.isrNoCode n).code b
    y.regs .rsp = b.regs .rsp - 16 ∧ y.stack 0 = UInt64.ofNat n ∧ y.stack 1 = 0 ∧
      y.stack (i + 2) = b.stack i := by
  have hrsp : b.regs .rsp - 8 - 8 = b.regs .rsp - 16 := by grind
  simp (disch := omega) only [exec, Stub.code, List.foldl_cons, List.foldl_nil, step, push_rsp,
    setFlags_regs, setFlags_stack, push_stack_zero, push_stack_succ, hrsp, and_self]

theorem isrCode_stack (n : Nat) (hi : i < 2 ^ 32) :
    let y := exec h ret (Stub.isrCode n).code b
    y.regs .rsp = b.regs .rsp - 8 ∧ y.stack 0 = UInt64.ofNat n ∧ y.stack (i + 1) = b.stack i := by
  simp (disch := omega) only [exec, Stub.code, List.foldl_cons, List.foldl_nil, step, push_rsp,
    setFlags_regs, setFlags_stack, push_stack_zero, push_stack_succ, and_self]

/-- `isr_common_stub` takes six quadwords off. -/
theorem isrCommonExit_stack (hrax : b.regs .rax = b.regs .rsp) :
    (exec h ret isrCommonExit b).regs .rsp = b.regs .rsp + 48 ∧
    (exec h ret isrCommonExit b).stack i = b.stack (i + 6) := by
  simp only [exec, isrCommonExit, popall, List.cons_append, List.nil_append, List.foldl_cons,
    List.foldl_nil, step]
  constructor
  · simp (disch := decide) only [setFlags_regs, drop_rsp, pop_rsp, setReg_regs_self, hrax]
    grind
  · simp (disch := decide) only [setFlags_stack, drop_stack, pop_stack]
    rw [setReg_rsp_stack hrax]
    congr 1
    omega

/-- `isr_handler` hands back the pointer it got, and nothing is lost. -/
theorem isrHandler_stack (h : IsrHandler) (hrdi : b.regs .rdi = b.regs .rsp) :
    let y := exec h.toProcedure ret [.call] b
    y.regs .rax = y.regs .rsp ∧ y.regs .rsp = b.regs .rsp ∧ ∀ i < 11, y.stack i = b.stack i := by
  intro y
  have hy : y = (h.body (b.push ret)).drop 1 := rfl
  have hrsp : y.regs .rsp = b.regs .rsp := by
    rw [hy, drop_rsp, h.saves _ .rsp (by simp [calleeSaved]), push_rsp]
    exact UInt64.sub_add_cancel _ 8
  refine ⟨?_, hrsp, ?_⟩
  · rw [hrsp, hy, drop_regs_of_ne (by decide), h.result, push_regs_of_ne (by decide), hrdi]
  · intro i hi
    rw [hy, drop_stack, Nat.add_comm 1 i, h.frame _ i hi, push_stack_succ (by omega)]

end

section

variable (h : IsrHandler) (ret offset selector : UInt64) (vector : Fin 32) (error : UInt64) (c : Cpu)

/-- Behind the two pushes of the stub. -/
def isrPushed : Cpu :=
  exec h.toProcedure ret (isrStub vector).code (raise offset selector vector error c)

theorem isrEntry_eq : isrEntry h ret offset selector vector error c
    = exec h.toProcedure ret isrCommonEntry (isrPushed h ret offset selector vector error c) :=
  exec_append ..

/-- The frame, from the stack that the stub leaves. -/
theorem isrRegisters_pushed :
    let y := isrPushed h ret offset selector vector error c
    let regs := isrRegisters h ret offset selector vector error c
    regs.intNo = y.stack 0 ∧ regs.errNo = y.stack 1 ∧ regs.rip = y.stack 2 ∧ regs.cs = y.stack 3 ∧
      regs.rflags = y.stack 4 ∧ regs.rsp = y.stack 5 ∧ regs.ss = y.stack 6 := by
  intro y regs
  have hentry := fun i (hi : i < 2 ^ 32) => isrCommonEntry_stack h.toProcedure ret y hi
  have hregs : regs = InterruptRegisters.load (exec h.toProcedure ret isrCommonEntry y).mem
      ((exec h.toProcedure ret isrCommonEntry y).regs .rsp) := by
    simp only [regs, isrRegisters, isrEntry_eq]
    rw [(hentry 0 (by decide)).1]
  have hstack : ∀ i < 7, (exec h.toProcedure ret isrCommonEntry y).stack (i + 4) = y.stack i :=
    fun i hi => (hentry i (by omega)).2.2
  -- the frame, whatever the instructions in front of it were
  generalize exec h.toProcedure ret isrCommonEntry y = entry at hregs hstack
  rw [hregs, InterruptRegisters.load_rsp]
  exact ⟨hstack 0 (by decide), hstack 1 (by decide), hstack 2 (by decide), hstack 3 (by decide),
    hstack 4 (by decide), hstack 5 (by decide), hstack 6 (by decide)⟩

/-- The way out takes off the stub's two quadwords, whatever they are. -/
theorem isrExit_pushed :
    let y := isrPushed h ret offset selector vector error c
    let z := isrExit h ret offset selector vector error c
    z.regs .rsp = y.regs .rsp + 16 ∧ z.stack 0 = y.stack 2 := by
  intro y z
  obtain ⟨hrdi, hrsp, hstack⟩ :=
    isrCommonEntry_stack h.toProcedure ret y (show 2 < 2 ^ 32 by decide)
  obtain ⟨hrax, hcall, hframe⟩ := isrHandler_stack ret _ h hrdi
  obtain ⟨hexit, hiret⟩ := isrCommonExit_stack h.toProcedure ret _ (i := 0) hrax
  have hz : z = exec h.toProcedure ret isrCommonExit (exec h.toProcedure ret [.call]
      (exec h.toProcedure ret isrCommonEntry y)) := by
    simp only [z, isrExit, exec_append, y, isrPushed]
  rw [hz]
  constructor
  · rw [hexit, hcall, hrsp]
    grind
  · rw [hiret, hframe 6 (by decide)]
    exact hstack

/-- **A frame of two quadwords** over the one the processor pushed is what
`isr_handler` and the `iretq` rely on. -/
theorem frameMatches_of_pushed
    (hrsp : (isrPushed h ret offset selector vector error c).regs .rsp
      = (deliver offset selector c).regs .rsp - 16)
    (hint : (isrPushed h ret offset selector vector error c).stack 0 = UInt64.ofNat vector.val)
    (herr : (isrPushed h ret offset selector vector error c).stack 1
      = if hasErrorCode vector then error else 0)
    (hstack : ∀ i < 5, (isrPushed h ret offset selector vector error c).stack (i + 2)
      = (deliver offset selector c).stack i) :
    FrameMatches h ret offset selector vector error c
      (isrRegisters h ret offset selector vector error c) := by
  obtain ⟨hintNo, herrNo, hrip, hcs, hrflags, hsp, hss⟩ :=
    isrRegisters_pushed h ret offset selector vector error c
  obtain ⟨hexit, hiret⟩ := isrExit_pushed h ret offset selector vector error c
  obtain ⟨h₀, h₁, h₂, h₃, h₄⟩ := deliver_stack offset selector c
  exact {
    intNo := hintNo.trans hint
    errNo := herrNo.trans herr
    rip := hrip.trans ((hstack 0 (by decide)).trans h₀)
    cs := hcs.trans ((hstack 1 (by decide)).trans h₁)
    rflags := hrflags.trans ((hstack 2 (by decide)).trans h₂)
    rsp := hsp.trans ((hstack 3 (by decide)).trans h₃)
    ss := hss.trans ((hstack 4 (by decide)).trans h₄)
    atFrame := by
      rw [hexit, hrsp]
      exact UInt64.sub_add_cancel _ 16
    resumes := by
      rw [iretq_rip, hiret]
      exact (hstack 0 (by decide)).trans h₀ }

/-- The stub pushes a zero where the processor pushes no error code. -/
theorem frameMatches_isrNoCode (hstub : isrStub vector = .isrNoCode vector)
    (hcode : hasErrorCode vector = false) : FrameMatches h ret offset selector vector error c
      (isrRegisters h ret offset selector vector error c) := by
  have hraise : raise offset selector vector error c = deliver offset selector c := by
    rw [raise, hcode, if_neg (by decide)]
  have hpushed := fun i (hi : i < 2 ^ 32) =>
    isrNoCode_stack h.toProcedure ret (deliver offset selector c) vector.val hi
  have hy : isrPushed h ret offset selector vector error c = exec h.toProcedure ret
      (Stub.isrNoCode vector.val).code (deliver offset selector c) := by
    rw [isrPushed, hstub, hraise]
  apply frameMatches_of_pushed
  · rw [hy, (hpushed 0 (by decide)).1]
  · rw [hy, (hpushed 0 (by decide)).2.1]
  · rw [hy, (hpushed 0 (by decide)).2.2.1, hcode, if_neg (by decide)]
  · intro i hi
    rw [hy, (hpushed i (by omega)).2.2.2]

/-- The stub leaves the error code of the processor where it is. -/
theorem frameMatches_isrCode (hstub : isrStub vector = .isrCode vector)
    (hcode : hasErrorCode vector = true) : FrameMatches h ret offset selector vector error c
      (isrRegisters h ret offset selector vector error c) := by
  have hraise : raise offset selector vector error c = (deliver offset selector c).push error := by
    rw [raise, hcode, if_pos rfl]
  have hpushed := fun i (hi : i < 2 ^ 32) =>
    isrCode_stack h.toProcedure ret ((deliver offset selector c).push error) vector.val hi
  have hy : isrPushed h ret offset selector vector error c = exec h.toProcedure ret
      (Stub.isrCode vector.val).code ((deliver offset selector c).push error) := by
    rw [isrPushed, hstub, hraise]
  apply frameMatches_of_pushed
  · rw [hy, (hpushed 0 (by decide)).1, push_rsp]
    grind
  · rw [hy, (hpushed 0 (by decide)).2.1]
  · rw [hy, (hpushed 0 (by decide)).2.2, push_stack_zero, hcode, if_pos rfl]
  · intro i hi
    rw [hy, (hpushed (i + 1) (by omega)).2.2, push_stack_succ (by omega)]

/-- Where both push, the `iretq` finds the error code of the processor. -/
theorem isrExit_rsp_isrNoCode (hstub : isrStub vector = .isrNoCode vector)
    (hcode : hasErrorCode vector = true) : (isrExit h ret offset selector vector error c).regs .rsp
      = (deliver offset selector c).regs .rsp - 8 := by
  have hraise : raise offset selector vector error c = (deliver offset selector c).push error := by
    rw [raise, hcode, if_pos rfl]
  have hpushed := (isrNoCode_stack h.toProcedure ret ((deliver offset selector c).push error)
    vector.val (show 0 < 2 ^ 32 by decide)).1
  rw [(isrExit_pushed h ret offset selector vector error c).1, isrPushed, hstub, hraise, hpushed,
    push_rsp]
  exact UInt64.sub_add_cancel _ 16

end

/-! ## The thirty-two exceptions -/

/-- The stubs, against the processor. -/
theorem isrStub_cases (vector : Fin 32) :
    isrStub vector = .isrNoCode vector ∧ hasErrorCode vector = false ∧
        vector ∉ ([17, 21, 29, 30] : List (Fin 32)) ∨
      isrStub vector = .isrCode vector ∧ hasErrorCode vector = true ∧
        vector ∉ ([17, 21, 29, 30] : List (Fin 32)) ∨
      isrStub vector = .isrNoCode vector ∧ hasErrorCode vector = true ∧
        vector ∈ ([17, 21, 29, 30] : List (Fin 32)) := by
  revert vector
  decide

/-- **Exception frames**: the frame is that of the exception, and the `iretq`
finds it again, exactly if the exception is not one of the four whose stub
pushes a zero on top of the error code. -/
theorem isr_frame_iff (h : IsrHandler) (ret offset selector : UInt64) (vector : Fin 32)
    (error : UInt64) (c : Cpu) :
    FrameMatches h ret offset selector vector error c
        (isrRegisters h ret offset selector vector error c) ↔
      vector ∉ ([17, 21, 29, 30] : List (Fin 32)) := by
  rcases isrStub_cases vector with ⟨hstub, hcode, hout⟩ | ⟨hstub, hcode, hout⟩ | ⟨hstub, hcode, hin⟩
  · exact iff_of_true (frameMatches_isrNoCode h ret offset selector vector error c hstub hcode) hout
  · exact iff_of_true (frameMatches_isrCode h ret offset selector vector error c hstub hcode) hout
  · refine iff_of_false (fun hmatches => ?_) (not_not_intro hin)
    have hshort := isrExit_rsp_isrNoCode h ret offset selector vector error c hstub hcode
    rw [hmatches.atFrame] at hshort
    generalize (deliver offset selector c).regs .rsp = top at hshort
    grind

/-- The least an `isr_handler` does. -/
def returnArgument : IsrHandler where
  body c := c.setReg .rax (c.regs .rdi)
  saves c r hr := setReg_regs_of_ne (by rintro rfl; revert hr; simp [calleeSaved])
  returns _ := setReg_stack (by decide)
  result _ := setReg_regs_self
  frame _ _ _ := setReg_stack (by decide)

/-- **The defect**: on an alignment check, vector 17, `isr_handler` takes the
error code for the interrupted rip. -/
theorem isr_frame_shifted : ¬ ∀ (h : IsrHandler) (ret offset selector : UInt64) (vector : Fin 32)
    (error : UInt64) (c : Cpu), FrameMatches h ret offset selector vector error c
      (isrRegisters h ret offset selector vector error c) := by
  intro h
  have hrip := (h returnArgument 0 0 0x08 17 0 ⟨fun r => if r = .rsp then 0x200000 else 0,
    0xFFFFFFFFC0200000, 0x08, 0x202, 0x10, fun _ => 0⟩).rip
  revert hrip
  decide +kernel

end Netclover.Kernel
