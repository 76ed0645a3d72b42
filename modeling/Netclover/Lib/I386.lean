import Mathlib.Logic.Function.Basic
import Netclover.Lib.Proc

/-!
# I386: code of 16 and of 32 bits

The instructions of a boot loader that changes between real and protected
mode, one `Asm` action each, in the order of the source. A register is kept
byte by byte, so that what a move into a half or a quarter of it leaves alone
can be seen. The stack is the list of the bytes from its top on: whatever lies
below the top may be overwritten at any time, and an instruction that takes
off what is not there halts, as does a `ret` to anywhere but behind its `call`.
The stack lies in the first 64 KiB, so that `sp` is the whole stack pointer in
code of either size.

A software interrupt goes to a `Handler`, which may do anything to the
registers, the flags and the memory, but finds its way back.
-/

namespace I386

/-! ## Registers -/

inductive Reg where
  | ax | bx | cx | dx | si | di | bp
  deriving DecidableEq, Repr

/-- The registers of one byte. -/
inductive ByteReg where
  | al | ah | bl | bh | cl | ch | dl | dh
  deriving DecidableEq, Repr

/-- The four bytes of a register, the lower two under the names they have in
`ax`. -/
structure Bytes where
  b3 : UInt8
  b2 : UInt8
  h : UInt8
  l : UInt8
  deriving DecidableEq, Repr

namespace Bytes

def word (b : Bytes) : UInt16 := b.h.toUInt16 * 256 + b.l.toUInt16

def dword (b : Bytes) : UInt32 :=
  b.b3.toUInt32 * 16777216 + b.b2.toUInt32 * 65536 + b.h.toUInt32 * 256 + b.l.toUInt32

def setWord (b : Bytes) (w : UInt16) : Bytes := { b with h := (w >>> 8).toUInt8, l := w.toUInt8 }

def ofDword (v : UInt32) : Bytes :=
  ⟨(v >>> 24).toUInt8, (v >>> 16).toUInt8, (v >>> 8).toUInt8, v.toUInt8⟩

/-- The upper half of one register and the lower half of another. -/
@[simp] def join (upper lower : Bytes) : Bytes := ⟨upper.b3, upper.b2, lower.h, lower.l⟩

theorem toNat_word (b : Bytes) : b.word.toNat = b.h.toNat * 256 + b.l.toNat := by
  have hh := b.h.toNat_lt
  have hl := b.l.toNat_lt
  rw [word, UInt16.toNat_add, UInt16.toNat_mul, UInt8.toNat_toUInt16, UInt8.toNat_toUInt16]
  show (_ * 256 % _ + _) % _ = _
  omega

theorem toNat_dword (b : Bytes) :
    b.dword.toNat = ((b.b3.toNat * 256 + b.b2.toNat) * 256 + b.h.toNat) * 256 + b.l.toNat := by
  have h₃ := b.b3.toNat_lt
  have h₂ := b.b2.toNat_lt
  have h₁ := b.h.toNat_lt
  have h₀ := b.l.toNat_lt
  simp only [dword, UInt32.toNat_add, UInt32.toNat_mul, UInt8.toNat_toUInt32]
  show (((_ * 16777216 % _ + _ * 65536 % _) % _ + _ * 256 % _) % _ + _) % _ = _
  omega

@[simp] theorem word_setWord (b : Bytes) (w : UInt16) : (b.setWord w).word = w := by
  have hw := w.toNat_lt
  have hshift : (w >>> 8).toNat = w.toNat / 256 := by
    rw [UInt16.toNat_shiftRight]
    exact Nat.shiftRight_eq_div_pow _ 8
  rw [← UInt16.toNat_inj, toNat_word]
  simp only [setWord, UInt16.toNat_toUInt8, hshift]
  omega

@[simp] theorem word_ofDword (v : UInt32) : (ofDword v).word = v.toUInt16 := by
  have hshift : (v >>> 8).toNat = v.toNat / 256 := by
    rw [UInt32.toNat_shiftRight]
    exact Nat.shiftRight_eq_div_pow _ 8
  rw [← UInt16.toNat_inj, toNat_word]
  simp only [ofDword, UInt32.toNat_toUInt8, hshift, UInt32.toNat_toUInt16]
  omega

@[simp] theorem dword_ofDword (v : UInt32) : (ofDword v).dword = v := by
  have hv := v.toNat_lt
  have hshift : ∀ k : UInt32, k.toNat < 32 → (v >>> k).toNat = v.toNat / 2 ^ k.toNat := by
    intro k hk
    rw [UInt32.toNat_shiftRight, Nat.mod_eq_of_lt hk, Nat.shiftRight_eq_div_pow]
  have h₈ : (v >>> 8).toNat = v.toNat / 2 ^ 8 := hshift 8 (by decide)
  have h₁₆ : (v >>> 16).toNat = v.toNat / 2 ^ 16 := hshift 16 (by decide)
  have h₂₄ : (v >>> 24).toNat = v.toNat / 2 ^ 24 := hshift 24 (by decide)
  rw [← UInt32.toNat_inj, toNat_dword]
  simp only [ofDword, UInt32.toNat_toUInt8, h₈, h₁₆, h₂₄]
  omega

section

variable (b : Bytes) (w w' : UInt16)

@[simp] theorem setWord_setWord : (b.setWord w).setWord w' = b.setWord w' := rfl

@[simp] theorem b3_setWord : (b.setWord w).b3 = b.b3 := rfl

@[simp] theorem b2_setWord : (b.setWord w).b2 = b.b2 := rfl

@[simp] theorem h_setWord : (b.setWord w).h = (w >>> 8).toUInt8 := rfl

@[simp] theorem l_setWord : (b.setWord w).l = w.toUInt8 := rfl

end

end Bytes

@[simp] def ByteReg.reg : ByteReg → Reg
  | .al | .ah => .ax
  | .bl | .bh => .bx
  | .cl | .ch => .cx
  | .dl | .dh => .dx

@[simp] def ByteReg.isHigh : ByteReg → Bool
  | .ah | .bh | .ch | .dh => true
  | .al | .bl | .cl | .dl => false

/-! ## The processor -/

structure Cpu where
  regs : Reg → Bytes
  sp : UInt16
  stack : List UInt8
  ip : Bytes
  cf : Bool
  zf : Bool
  interrupts : Bool
  cs : UInt16
  ds : UInt16
  es : UInt16
  ss : UInt16
  cr0 : Bytes
  mem : Nat → UInt8

namespace Cpu

variable (c : Cpu)

@[simp] def set (r : Reg) (b : Bytes) : Cpu := { c with regs := Function.update c.regs r b }

@[simp] def setWord (r : Reg) (w : UInt16) : Cpu := c.set r ((c.regs r).setWord w)

@[simp] def byte (r : ByteReg) : UInt8 := if r.isHigh then (c.regs r.reg).h else (c.regs r.reg).l

@[simp] def setByte (r : ByteReg) (b : UInt8) : Cpu :=
  c.set r.reg (if r.isHigh then { c.regs r.reg with h := b } else { c.regs r.reg with l := b })

@[simp] def setFlags (zf cf : Bool) : Cpu := { c with zf, cf }

/-- Put some bytes on the stack, the last of them first. -/
@[simp] def push (bytes : List UInt8) : Cpu :=
  { c with stack := bytes ++ c.stack, sp := c.sp - UInt16.ofNat bytes.length }

@[simp] def pushWord (b : Bytes) : Cpu := c.push [b.l, b.h]

@[simp] def pushDword (b : Bytes) : Cpu := c.push [b.l, b.h, b.b2, b.b3]

/-- The eight words `pusha` saves, with `sp` among them. -/
@[simp] def pusha : Cpu :=
  c.push [(c.regs .di).l, (c.regs .di).h, (c.regs .si).l, (c.regs .si).h, (c.regs .bp).l,
    (c.regs .bp).h, c.sp.toUInt8, (c.sp >>> 8).toUInt8, (c.regs .bx).l, (c.regs .bx).h,
    (c.regs .dx).l, (c.regs .dx).h, (c.regs .cx).l, (c.regs .cx).h, (c.regs .ax).l,
    (c.regs .ax).h]

/-- Take a word off the stack. -/
def popWord : Option (Bytes × Cpu) :=
  match c.stack with
  | l :: h :: rest => some (⟨0, 0, h, l⟩, { c with stack := rest, sp := c.sp + 2 })
  | _ => none

def popDword : Option (Bytes × Cpu) :=
  match c.stack with
  | l :: h :: b2 :: b3 :: rest => some (⟨b3, b2, h, l⟩, { c with stack := rest, sp := c.sp + 4 })
  | _ => none

/-- Eight words back into the lower halves of the registers, all but `sp`. -/
def popa : Option Cpu :=
  match c.stack with
  | dil :: dih :: sil :: sih :: bpl :: bph :: _ :: _ :: bl :: bh :: dl :: dh :: cl :: ch :: al ::
      ah :: rest =>
    some { c with
      stack := rest
      sp := c.sp + 16
      regs := fun
        | .di => { c.regs .di with h := dih, l := dil }
        | .si => { c.regs .si with h := sih, l := sil }
        | .bp => { c.regs .bp with h := bph, l := bpl }
        | .bx => { c.regs .bx with h := bh, l := bl }
        | .dx => { c.regs .dx with h := dh, l := dl }
        | .cx => { c.regs .cx with h := ch, l := cl }
        | .ax => { c.regs .ax with h := ah, l := al } }
  | _ => none

/-- The byte at `[esp + i]`. -/
def stackByte (i : Nat) : UInt8 := c.stack.getD i 0

/-- The byte at `[bp + i]`, in the frame of a routine. -/
def frameByte (i : Nat) : UInt8 := c.stackByte (((c.regs .bp).word - c.sp).toNat + i)

/-- The doubleword there. -/
def frameDword (i : Nat) : Bytes :=
  ⟨c.frameByte (i + 3), c.frameByte (i + 2), c.frameByte (i + 1), c.frameByte i⟩

end Cpu

inductive Seg where
  | ds | es | ss
  deriving DecidableEq, Repr

namespace Cpu

variable (c : Cpu)

@[simp] def seg : Seg → UInt16
  | .ds => c.ds
  | .es => c.es
  | .ss => c.ss

@[simp] def setSeg (s : Seg) (v : UInt16) : Cpu :=
  match s with
  | .ds => { c with ds := v }
  | .es => { c with es := v }
  | .ss => { c with ss := v }

/-- The address of `seg:[r]` in real mode. -/
def address (s : Seg) (r : Reg) : Nat := (c.seg s).toNat * 16 + (c.regs r).word.toNat

def load (a : Nat) : Bytes := ⟨c.mem (a + 3), c.mem (a + 2), c.mem (a + 1), c.mem a⟩

def store (a : Nat) (b : Bytes) : Cpu :=
  { c with mem := fun i =>
      if i = a then b.l else if i = a + 1 then b.h else if i = a + 2 then b.b2
      else if i = a + 3 then b.b3 else c.mem i }

end Cpu

/-! ## Instructions -/

/-- What keeps a routine from returning: a division fault, a pop off an empty
stack, a `ret` that goes astray, a loop that takes more passes than it was
given, a device that resets the processor. -/
inductive Fault where
  | divideError
  | stackEmpty
  | astray
  | unfinished
  | reset
  deriving DecidableEq, Repr

/-- Code that runs on a processor next to the world `σ` outside. -/
abbrev Asm (σ α : Type) : Type := Proc (Cpu × σ) Fault α

/-- What a software interrupt hands back. -/
structure Answer where
  regs : Reg → Bytes
  cf : Bool
  zf : Bool
  mem : Nat → UInt8

/-- The handler of a software interrupt. -/
abbrev Handler (σ : Type) : Type := Cpu → σ → Answer × σ

@[simp] def Cpu.answered (c : Cpu) (a : Answer) : Cpu :=
  { c with regs := a.regs, cf := a.cf, zf := a.zf, mem := a.mem }

/-! ## What a routine keeps -/

namespace Cpu

/-- The stack and the segments are the same. -/
structure Framed (c c' : Cpu) : Prop where
  sp : c'.sp = c.sp
  stack : c'.stack = c.stack
  seg : ∀ s, c'.seg s = c.seg s

/-- The processors are the same to 16-bit code, up to the flags and the
memory. -/
structure Alike (c c' : Cpu) : Prop extends Framed c c' where
  h : ∀ r, (c'.regs r).h = (c.regs r).h
  l : ∀ r, (c'.regs r).l = (c.regs r).l

variable {c c' c'' : Cpu}

theorem Framed.trans (h : c.Framed c') (h' : c'.Framed c'') : c.Framed c'' where
  sp := h'.sp.trans h.sp
  stack := h'.stack.trans h.stack
  seg s := (h'.seg s).trans (h.seg s)

theorem Alike.trans (h : c.Alike c') (h' : c'.Alike c'') : c.Alike c'' where
  toFramed := h.toFramed.trans h'.toFramed
  h r := (h'.h r).trans (h.h r)
  l r := (h'.l r).trans (h.l r)

theorem Alike.word (h : c.Alike c') (r : Reg) : (c'.regs r).word = (c.regs r).word := by
  rw [Bytes.word, Bytes.word, h.h, h.l]

theorem Alike.setFlags (h : c.Alike c') (zf cf : Bool) : c.Alike (c'.setFlags zf cf) :=
  ⟨⟨h.sp, h.stack, fun s => by rw [← h.seg s]; cases s <;> rfl⟩, h.h, h.l⟩

theorem Alike.set (h : c.Alike c') (r : Reg) {b b' : Bytes} (hh : b'.h = b.h) (hl : b'.l = b.l) :
    (c.set r b).Alike (c'.set r b') where
  sp := h.sp
  stack := h.stack
  seg s := by
    cases s
    · exact h.seg .ds
    · exact h.seg .es
    · exact h.seg .ss
  h r' := by
    simp only [Cpu.set, Function.update_apply]
    split
    · exact hh
    · exact h.h r'
  l r' := by
    simp only [Cpu.set, Function.update_apply]
    split
    · exact hl
    · exact h.l r'

theorem Alike.setWord (h : c.Alike c') (r : Reg) (w : UInt16) :
    (c.setWord r w).Alike (c'.setWord r w) := h.set r rfl rfl

theorem Alike.setByte (h : c.Alike c') (b : ByteReg) (v : UInt8) :
    (c.setByte b v).Alike (c'.setByte b v) := by
  apply h.set
  · split
    · rfl
    · exact h.h _
  · split
    · exact h.l _
    · rfl

/-- Where `bp` is the top of a frame and only `n` bytes came after it, the frame
is that part of the stack. -/
theorem frameByte_below {sp : UInt16} {n : Nat} {below frame : List UInt8}
    (hbp : c.regs .bp = .ofDword sp.toUInt32) (hsp : c.sp = sp - UInt16.ofNat n)
    (hstack : c.stack = below ++ frame) (hlen : below.length = n) (hn : n < 65536) (i : Nat) :
    c.frameByte i = frame.getD i 0 := by
  have hback : ∀ m : UInt16, sp - (sp - m) = m := by
    intro m
    grind
  have hdist : ((c.regs .bp).word - c.sp).toNat = below.length := by
    rw [hbp, hsp, Bytes.word_ofDword, UInt16.toUInt16_toUInt32, hback, UInt16.toNat_ofNat',
      Nat.mod_eq_of_lt hn, hlen]
  rw [frameByte, stackByte, hdist, hstack, List.getD_eq_getElem?_getD,
    List.getElem?_append_right (Nat.le_add_right _ _), Nat.add_sub_cancel_left,
    List.getD_eq_getElem?_getD]

/-- `popa` brings back what `pusha` saved, and leaves the flags alone. -/
theorem Framed.popa (h : c.pusha.Framed c') :
    ∃ c'', c'.popa = some c'' ∧ c''.cf = c'.cf ∧ c.Alike c'' := by
  have hstack := h.stack
  refine ⟨_, by rw [Cpu.popa, hstack]; rfl, ?_, ?_, ?_, ?_⟩
  · rfl
  · constructor
    · show c'.sp + 16 = c.sp
      rw [h.sp]
      exact UInt16.sub_add_cancel _ _
    · rfl
    · intro s
      rw [← show c.pusha.seg s = c.seg s by cases s <;> rfl, ← h.seg s]
      cases s <;> rfl
  · intro r
    cases r <;> rfl
  · intro r
    cases r <;> rfl

end Cpu

namespace Asm

variable {σ α : Type}

def upd (f : Cpu → Cpu) : Asm σ Unit := fun x => .ok ((), f x.1, x.2)

def tryUpd (e : Fault) (f : Cpu → Option Cpu) : Asm σ Unit := fun x =>
  match f x.1 with
  | some c => .ok ((), c, x.2)
  | none => .error (e, x)

def flag (p : Cpu → Bool) : Asm σ Bool := fun x => .ok (p x.1, x)

section

variable (r src : Reg) (b bsrc : ByteReg) (s : Seg)

@[simp] def pushw : Asm σ Unit := upd fun c => c.pushWord (c.regs r)

@[simp] def pushl : Asm σ Unit := upd fun c => c.pushDword (c.regs r)

def popw : Asm σ Unit := tryUpd .stackEmpty fun c =>
  c.popWord.map fun x => x.2.set r (.join (c.regs r) x.1)

def popl : Asm σ Unit := tryUpd .stackEmpty fun c => c.popDword.map fun x => x.2.set r x.1

@[simp] def pusha : Asm σ Unit := upd .pusha

def popa : Asm σ Unit := tryUpd .stackEmpty Cpu.popa

@[simp] def pushSeg : Asm σ Unit := upd fun c => c.pushWord (.ofDword (c.seg s).toUInt32)

def popSeg : Asm σ Unit := tryUpd .stackEmpty fun c =>
  c.popWord.map fun x => x.2.setSeg s x.1.word

@[simp] def pushwImm (v : UInt16) : Asm σ Unit := upd fun c => c.pushWord (.ofDword v.toUInt32)

@[simp] def movb : Asm σ Unit := upd fun c => c.setByte b (c.byte bsrc)

@[simp] def movbImm (v : UInt8) : Asm σ Unit := upd fun c => c.setByte b v

@[simp] def movw : Asm σ Unit := upd fun c => c.setWord r (c.regs src).word

@[simp] def movwImm (v : UInt16) : Asm σ Unit := upd fun c => c.setWord r v

@[simp] def movl : Asm σ Unit := upd fun c => c.set r (c.regs src)

@[simp] def movlImm (v : UInt32) : Asm σ Unit := upd fun c => c.set r (.ofDword v)

/-- `mov r32, [ebp + i]`. -/
@[simp] def movlFrame (i : Nat) : Asm σ Unit := upd fun c => c.set r (c.frameDword i)

/-- `mov r8, [bp + i]`. -/
@[simp] def movbFrame (i : Nat) : Asm σ Unit := upd fun c => c.setByte b (c.frameByte i)

/-- `mov r8, [esp + i]`. -/
@[simp] def movbStack (i : Nat) : Asm σ Unit := upd fun c => c.setByte b (c.stackByte i)

/-- `mov r32, seg:[src]`. -/
@[simp] def movlLoad (r : Reg) (s : Seg) (src : Reg) : Asm σ Unit := upd fun c =>
  c.set r (c.load (c.address s src))

/-- `mov seg:[r], src`. -/
@[simp] def movlStore (s : Seg) (r src : Reg) : Asm σ Unit := upd fun c =>
  c.store (c.address s r) (c.regs src)

/-- `mov ds:[offset], r8`. -/
@[simp] def movbStore (offset : UInt16) (b : ByteReg) : Asm σ Unit := upd fun c =>
  { c with mem := Function.update c.mem (c.ds.toNat * 16 + offset.toNat) (c.byte b) }

/-- `mov seg:[r], r8`. -/
@[simp] def movbStoreAt (s : Seg) (r : Reg) (b : ByteReg) : Asm σ Unit := upd fun c =>
  { c with mem := Function.update c.mem (c.address s r) (c.byte b) }

/-- `mov seg:[r], r16`, where the upper byte is in the segment as well. -/
@[simp] def movwStoreAt (s : Seg) (r src : Reg) : Asm σ Unit := upd fun c =>
  { c with
    mem := Function.update (Function.update c.mem (c.address s r) (c.regs src).l)
      (c.address s r + 1) (c.regs src).h }

/-- With the direction flag clear: it is not kept here, and code that relies on
this is started with it clear. -/
@[simp] def lodsb : Asm σ Unit := upd fun c =>
  (c.setByte .al (c.mem (c.address .ds .si))).setWord .si ((c.regs .si).word + 1)

@[simp] def movSeg (s : Seg) (r : Reg) : Asm σ Unit := upd fun c => c.setSeg s (c.regs r).word

@[simp] def movFromCr0 : Asm σ Unit := upd fun c => c.set r c.cr0

@[simp] def movToCr0 : Asm σ Unit := upd fun c => { c with cr0 := c.regs r }

/-- `mov sp, v`: there is nothing on the stack that begins here. -/
@[simp] def movSpImm (v : UInt16) : Asm σ Unit := upd fun c => { c with sp := v, stack := [] }

@[simp] def movEbpEsp : Asm σ Unit := upd fun c => c.set .bp (.ofDword c.sp.toUInt32)

/-- `mov esp, ebp`: off goes what is below the frame. -/
@[simp] def movEspEbp : Asm σ Unit := upd fun c =>
  { c with
    sp := (c.regs .bp).word
    stack := c.stack.drop ((c.regs .bp).word - c.sp).toNat }

@[simp] def xorb : Asm σ Unit := upd fun c =>
  (c.setByte b (c.byte b ^^^ c.byte bsrc)).setFlags (c.byte b ^^^ c.byte bsrc == 0) false

@[simp] def xorw : Asm σ Unit := upd fun c =>
  (c.setWord r ((c.regs r).word ^^^ (c.regs src).word)).setFlags
    ((c.regs r).word ^^^ (c.regs src).word == 0) false

@[simp] def orb : Asm σ Unit := upd fun c =>
  (c.setByte b (c.byte b ||| c.byte bsrc)).setFlags (c.byte b ||| c.byte bsrc == 0) false

@[simp] def orbImm (v : UInt8) : Asm σ Unit := upd fun c =>
  (c.setByte b (c.byte b ||| v)).setFlags (c.byte b ||| v == 0) false

@[simp] def andbImm (v : UInt8) : Asm σ Unit := upd fun c =>
  (c.setByte b (c.byte b &&& v)).setFlags (c.byte b &&& v == 0) false

@[simp] def andlImm (v : UInt32) : Asm σ Unit := upd fun c =>
  (c.set r (.ofDword ((c.regs r).dword &&& v))).setFlags ((c.regs r).dword &&& v == 0) false

/-- `shl r8, n`; the flags are not modelled. -/
@[simp] def shlb (n : UInt8) : Asm σ Unit := upd fun c => c.setByte b (c.byte b <<< n)

/-- `shr r8, n`; the flags are not modelled. -/
@[simp] def shrb (n : UInt8) : Asm σ Unit := upd fun c => c.setByte b (c.byte b >>> n)

/-- `shr r32, n`; the flags are not modelled. -/
@[simp] def shrl (n : UInt32) : Asm σ Unit := upd fun c =>
    c.set r (.ofDword ((c.regs r).dword >>> n))

@[simp] def subbImm (v : UInt8) : Asm σ Unit := upd fun c =>
  (c.setByte b (c.byte b - v)).setFlags (c.byte b - v == 0) (c.byte b < v)

@[simp] def incw : Asm σ Unit := upd fun c =>
  (c.setWord r ((c.regs r).word + 1)).setFlags ((c.regs r).word + 1 == 0) c.cf

@[simp] def decw : Asm σ Unit := upd fun c =>
  (c.setWord r ((c.regs r).word - 1)).setFlags ((c.regs r).word - 1 == 0) c.cf

@[simp] def testw : Asm σ Unit := upd fun c =>
  c.setFlags ((c.regs r).word &&& (c.regs src).word == 0) false

@[simp] def cmpwImm (v : UInt16) : Asm σ Unit := upd fun c =>
  c.setFlags ((c.regs r).word == v) ((c.regs r).word < v)

@[simp] def cmplImm (v : UInt32) : Asm σ Unit := upd fun c =>
  c.setFlags ((c.regs r).dword == v) ((c.regs r).dword < v)

/-- `div word`: `dx:ax` by `m`, the quotient into `ax`, the remainder into
`dx`. -/
def divw (m : UInt16) : Asm σ Unit := tryUpd .divideError fun c =>
  let dividend := (c.regs .dx).word.toNat * 65536 + (c.regs .ax).word.toNat
  if m = 0 ∨ 65536 ≤ dividend / m.toNat then none
  else some ((c.setWord .ax (UInt16.ofNat (dividend / m.toNat))).setWord .dx
    (UInt16.ofNat (dividend % m.toNat)))

end

@[simp] def stc : Asm σ Unit := upd fun c => c.setFlags c.zf true

@[simp] def cli : Asm σ Unit := upd fun c => { c with interrupts := false }

@[simp] def sti : Asm σ Unit := upd fun c => { c with interrupts := true }

/-- `jmp selector:next`. -/
@[simp] def jmpFar (selector : UInt16) : Asm σ Unit := upd fun c => { c with cs := selector }

/-- Whether `jc` jumps; `jnc` jumps if not. -/
@[simp] def jc : Asm σ Bool := flag Cpu.cf

/-- Whether `je` jumps; `jne` and `jnz` jump if not. -/
@[simp] def je : Asm σ Bool := flag Cpu.zf

def int (handler : Handler σ) : Asm σ Unit := fun x =>
  let (a, s) := handler x.1 x.2
  .ok ((), x.1.answered a, s)

/-- `ret` of a 16-bit near call. -/
def retw : Asm σ Unit := tryUpd .stackEmpty fun c => c.popWord.map fun x => { x.2 with ip := x.1 }

/-- `ret` of a 32-bit near call. -/
def retl : Asm σ Unit := tryUpd .stackEmpty fun c =>
  c.popDword.map fun x => { x.2 with ip := x.1 }

/-- A far `ret` in 16-bit code, to an offset in a segment. -/
def retf : Asm σ Unit := tryUpd .stackEmpty fun c =>
  c.popWord.bind fun x => x.2.popWord.map fun y => { y.2 with ip := x.1, cs := y.1.word }

/-- Execution goes on behind a call only if the routine returned there. -/
def returned (next : Bytes) : Asm σ Unit :=
  tryUpd .astray fun c => if c.ip = next then some c else none

/-- A 16-bit near call; the next instruction is at `next`. -/
def callw (next : Bytes) (routine : Asm σ Unit) : Asm σ Unit := do
  upd fun c => c.pushWord next
  routine
  returned (.join ⟨0, 0, 0, 0⟩ next)

/-- A 32-bit near call. -/
def calll (next : Bytes) (routine : Asm σ Unit) : Asm σ Unit := do
  upd fun c => c.pushDword next
  routine
  returned next

/-! ## Execution, one instruction after the other -/

section

variable {β : Type} {f : Cpu → Cpu} {c c' : Cpu} {s : σ} {next : Bytes}

theorem upd_eq : (upd f : Asm σ Unit) (c, s) = .ok ((), f c, s) := rfl

@[simp] theorem upd_bind (k : Unit → Asm σ β) : (upd f >>= k) (c, s) = k () (f c, s) := rfl

theorem tryUpd_bind {e : Fault} {g : Cpu → Option Cpu} (h : g c = some c') (k : Unit → Asm σ β) :
    (tryUpd e g >>= k) (c, s) = k () (c', s) := by
  apply Proc.bind_ok
  rw [tryUpd, h]

@[simp] theorem flag_bind (p : Cpu → Bool) (k : Bool → Asm σ β) :
    (flag p >>= k) (c, s) = k (p c) (c, s) := rfl

/-- `div` of a dividend that fits in a word. -/
theorem divw_bind {m : UInt16} (hdx : (c.regs .dx).word = 0) (hm : 0 < m) (k : Unit → Asm σ β) :
    (divw m >>= k) (c, s) = k () ((c.setWord .ax ((c.regs .ax).word / m)).setWord .dx
      ((c.regs .ax).word % m), s) := by
  have hquotient : (c.regs .ax).word.toNat / m.toNat < 65536 :=
    (Nat.div_le_self _ _).trans_lt (c.regs .ax).word.toNat_lt
  have hdividend : (c.regs .dx).word.toNat * 65536 + (c.regs .ax).word.toNat
      = (c.regs .ax).word.toNat := by
    rw [hdx, UInt16.toNat_zero, Nat.zero_mul, Nat.zero_add]
  have hok : ¬ (m = 0 ∨ 65536 ≤ (c.regs .ax).word.toNat / m.toNat) := by
    rintro (rfl | hlarge)
    · exact absurd hm (by decide)
    · omega
  apply tryUpd_bind
  rw [hdividend, if_neg hok, ← UInt16.toNat_div, ← UInt16.toNat_mod, UInt16.ofNat_toNat,
    UInt16.ofNat_toNat]

section

/-! What comes off the stack of a processor that is given field by field. -/

variable (regs : Reg → Bytes) (sp : UInt16) (l h b2 b3 : UInt8) (rest : List UInt8) (ip : Bytes)
  (cf zf i : Bool) (cs ds es ss : UInt16) (cr0 : Bytes) (mem : Nat → UInt8) (r : Reg) (sr : Seg)

@[simp] theorem popw_bind (k : Unit → Asm σ β) :
    (popw r >>= k) (⟨regs, sp, l :: h :: rest, ip, cf, zf, i, cs, ds, es, ss, cr0, mem⟩, s)
      = k () (⟨Function.update regs r { regs r with h, l }, sp + 2, rest, ip, cf, zf, i, cs, ds,
        es, ss, cr0, mem⟩, s) := rfl

@[simp] theorem popw_eq :
    (popw r : Asm σ Unit) (⟨regs, sp, l :: h :: rest, ip, cf, zf, i, cs, ds, es, ss, cr0, mem⟩, s)
      = .ok ((), ⟨Function.update regs r { regs r with h, l }, sp + 2, rest, ip, cf, zf, i, cs, ds,
        es, ss, cr0, mem⟩, s) := rfl

@[simp] theorem retw_bind (k : Unit → Asm σ β) :
    (retw >>= k) (⟨regs, sp, l :: h :: rest, ip, cf, zf, i, cs, ds, es, ss, cr0, mem⟩, s)
      = k () (⟨regs, sp + 2, rest, ⟨0, 0, h, l⟩, cf, zf, i, cs, ds, es, ss, cr0, mem⟩, s) := rfl

@[simp] theorem returned_eq (h : c.ip = next) : returned next (c, s) = .ok ((), c, s) := by
  rw [returned, tryUpd, if_pos h]

end

/-- A call of a routine that returns to where it was called from. -/
theorem callw_ok {routine : Asm σ Unit} {s' : σ}
    (h : routine (c.pushWord next, s) = .ok ((), c', s'))
    (hip : c'.ip = .join ⟨0, 0, 0, 0⟩ next) : callw next routine (c, s) = .ok ((), c', s') := by
  rw [callw, upd_bind, Proc.bind_ok h, returned_eq hip]

theorem calll_ok {routine : Asm σ Unit} {s' : σ}
    (h : routine (c.pushDword next, s) = .ok ((), c', s')) (hip : c'.ip = next) :
    calll next routine (c, s) = .ok ((), c', s') := by
  rw [calll, upd_bind, Proc.bind_ok h, returned_eq hip]

end

/-! ## Runs through interrupts -/

/-- The code returns, and `Q` holds of what it leaves. -/
def Runs (m : Asm σ α) (c : Cpu) (s : σ) (Q : α → Cpu → σ → Prop) : Prop :=
  ∃ a c' s', m (c, s) = .ok (a, c', s') ∧ Q a c' s'

namespace Runs

variable {β : Type} {c c' : Cpu} {s : σ} {Q : β → Cpu → σ → Prop}

theorem pure {b : β} (h : Q b c s) : Runs (Pure.pure b) c s Q := ⟨b, c, s, rfl, h⟩

theorem bind {m : Asm σ α} {k : α → Asm σ β}
    (h : Runs m c s fun a c' s' => Runs (k a) c' s' Q) : Runs (m >>= k) c s Q := by
  obtain ⟨a, c', s', hm, b, c'', s'', hrun, hq⟩ := h
  exact ⟨b, c'', s'', (Proc.bind_ok hm).trans hrun, hq⟩

theorem mono {m : Asm σ β} {P : β → Cpu → σ → Prop} (h : Runs m c s P)
    (hPQ : ∀ b c' s', P b c' s' → Q b c' s') : Runs m c s Q := by
  obtain ⟨b, c', s', hm, hp⟩ := h
  exact ⟨b, c', s', hm, hPQ b c' s' hp⟩

theorem upd {f : Cpu → Cpu} {k : Unit → Asm σ β} (h : Runs (k ()) (f c) s Q) :
    Runs (Asm.upd f >>= k) c s Q := h

theorem last {f : Cpu → Cpu} {Q : Unit → Cpu → σ → Prop} (h : Q () (f c) s) :
    Runs (Asm.upd f) c s Q := ⟨(), f c, s, rfl, h⟩

theorem tryUpd {e : Fault} {f : Cpu → Option Cpu} {k : Unit → Asm σ β} (hf : f c = some c')
    (h : Runs (k ()) c' s Q) : Runs (Asm.tryUpd e f >>= k) c s Q := by
  rw [Runs, tryUpd_bind hf]
  exact h

theorem flag {p : Cpu → Bool} {k : Bool → Asm σ β} (h : Runs (k (p c)) c s Q) :
    Runs (Asm.flag p >>= k) c s Q := h

/-- Whatever an interrupt answers, the run must go on. -/
theorem int {handler : Handler σ} {k : Unit → Asm σ β}
    (h : ∀ a t, handler c s = (a, t) → Runs (k ()) (c.answered a) t Q) :
    Runs (Asm.int handler >>= k) c s Q := h _ _ rfl

theorem popw {r : Reg} {l h : UInt8} {rest : List UInt8} {k : Unit → Asm σ β}
    (hstack : c.stack = l :: h :: rest)
    (hk : Runs (k ()) ({ c with stack := rest, sp := c.sp + 2 }.set r { c.regs r with h, l }) s Q) :
    Runs (Asm.popw r >>= k) c s Q := by
  apply tryUpd _ hk
  simp only [Cpu.popWord, hstack]
  rfl

theorem popl {r : Reg} {l h b2 b3 : UInt8} {rest : List UInt8} {k : Unit → Asm σ β}
    (hstack : c.stack = l :: h :: b2 :: b3 :: rest)
    (hk : Runs (k ()) ({ c with stack := rest, sp := c.sp + 4 }.set r ⟨b3, b2, h, l⟩) s Q) :
    Runs (Asm.popl r >>= k) c s Q := by
  apply tryUpd _ hk
  simp only [Cpu.popDword, hstack]
  rfl

theorem popSeg {sr : Seg} {l h : UInt8} {rest : List UInt8} {k : Unit → Asm σ β}
    (hstack : c.stack = l :: h :: rest)
    (hk : Runs (k ()) ({ c with stack := rest, sp := c.sp + 2 }.setSeg sr
      (Bytes.word ⟨0, 0, h, l⟩)) s Q) :
    Runs (Asm.popSeg sr >>= k) c s Q := by
  apply tryUpd _ hk
  simp only [Cpu.popWord, hstack]
  rfl

theorem retw {l h : UInt8} {rest : List UInt8} {Q : Unit → Cpu → σ → Prop}
    (hstack : c.stack = l :: h :: rest)
    (hk : Q () { c with stack := rest, sp := c.sp + 2, ip := ⟨0, 0, h, l⟩ } s) :
    Runs Asm.retw c s Q := by
  refine ⟨(), _, s, ?_, hk⟩
  simp only [Asm.retw, Asm.tryUpd, Cpu.popWord, hstack]
  rfl

theorem retl {l h b2 b3 : UInt8} {rest : List UInt8} {Q : Unit → Cpu → σ → Prop}
    (hstack : c.stack = l :: h :: b2 :: b3 :: rest)
    (hk : Q () { c with stack := rest, sp := c.sp + 4, ip := ⟨b3, b2, h, l⟩ } s) :
    Runs Asm.retl c s Q := by
  refine ⟨(), _, s, ?_, hk⟩
  simp only [Asm.retl, Asm.tryUpd, Cpu.popDword, hstack]
  rfl

theorem callw {next : Bytes} {routine : Asm σ Unit} {Q : Unit → Cpu → σ → Prop}
    (h : Runs routine (c.pushWord next) s fun _ c' s' =>
      c'.ip = .join ⟨0, 0, 0, 0⟩ next ∧ Q () c' s') : Runs (Asm.callw next routine) c s Q := by
  obtain ⟨⟨⟩, c', s', hrun, hip, hq⟩ := h
  exact ⟨(), c', s', callw_ok hrun hip, hq⟩

theorem calll {next : Bytes} {routine : Asm σ Unit} {Q : Unit → Cpu → σ → Prop}
    (h : Runs routine (c.pushDword next) s fun _ c' s' => c'.ip = next ∧ Q () c' s') :
    Runs (Asm.calll next routine) c s Q := by
  obtain ⟨⟨⟩, c', s', hrun, hip, hq⟩ := h
  exact ⟨(), c', s', calll_ok hrun hip, hq⟩

end Runs

end Asm

end I386
