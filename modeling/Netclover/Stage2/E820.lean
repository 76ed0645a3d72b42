import Netclover.Lib.CLayout
import Netclover.Stage2.MemDetect
import Netclover.Stage2.RealMode

/-!
# The answers of E820 (`E820NextBlock`)

`E820NextBlock` instruction by instruction. The result goes through
`enterProtectedMode`, which leaves the lower half of it and the upper half of
CR0 in `eax` (`e820NextBlock_runs`). Where the BIOS keeps what it should, C code
sees its namesake in `MemDetect` (`stubNextBlock_eq`).
-/

namespace Netclover.Stage2

open I386 Asm Proc

variable {σ : Type}

namespace X86

/-! ## `E820NextBlock` -/

/-- The result in `eax`, and the continuation stored, behind `int 15h`. -/
def e820Result : Asm σ Unit := do
  if ← jc then
    -- .error
    movlImm .ax 0xFFFFFFFF
  else
    cmplImm .ax e820Signature
    if ← je then
      movl .ax .cx
      movlStore .ds .si .bx
    else
      -- .error
      movlImm .ax 0xFFFFFFFF

/-- Up to `int 15h`: the block at `[bp + 8]`, the continuation at
`[bp + 12]`. -/
def e820Request : Asm σ Unit := do
  newCallFrame
  enterRealMode
  pushl .bx
  pushl .cx
  pushl .dx
  pushl .si
  pushl .di
  pushSeg .ds
  pushSeg .es
  linearToSegOffset 8 .es .di
  linearToSegOffset 12 .ds .si
  movlLoad .bx .ds .si
  movlImm .ax 0xE820
  movlImm .dx e820Signature
  movlImm .cx 24

def e820NextBlock (int15 : Handler σ) : Asm σ Unit := do
  e820Request
  int int15
  e820Result
  -- .ending
  popSeg .es
  popSeg .ds
  popl .di
  popl .si
  popl .dx
  popl .cx
  popl .bx
  enterProtectedMode
  restoreCallFrame
  retl

/-- The registers saved, in a frame in real mode. -/
def saved (c : Cpu) : Cpu :=
  let y := realMode (framed c)
  let y := ((((y.pushDword (c.regs .bx)).pushDword (c.regs .cx)).pushDword (c.regs .dx)).pushDword
    (c.regs .si)).pushDword (c.regs .di)
  (y.pushWord (.ofDword (0 : UInt16).toUInt32)).pushWord (.ofDword c.es.toUInt32)

/-- What goes into `int 15h`. -/
def requested (c : Cpu) : Cpu :=
  let y := pointed 12 .ds .si (pointed 8 .es .di (saved c))
  (((y.set .bx (y.load (y.address .ds .si))).set .ax (.ofDword 0xE820)).set .dx
    (.ofDword e820Signature)).set .cx (.ofDword 24)

theorem e820Request_eq : (e820Request : Asm σ Unit) = upd requested := by
  rw [e820Request, newCallFrame_eq, enterRealMode_eq, linearToSegOffset_eq 8 .es (by decide),
    linearToSegOffset_eq 12 .ds (by decide)]
  rfl

/-- The call is answered: no carry, and the signature. -/
def answered (a : Answer) : Bool := !a.cf && (a.regs .ax).dword == e820Signature

/-- What `e820Result` leaves in `eax`. -/
def e820Eax (a : Answer) : Bytes := if answered a then a.regs .cx else .ofDword 0xFFFFFFFF

theorem e820Result_runs (c : Cpu) (a : Answer) (s : σ) {Q : Unit → Cpu → σ → Prop}
    (h : ∀ c', c'.regs = Function.update a.regs .ax (e820Eax a) → c'.sp = c.sp →
      c'.stack = c.stack → c'.cr0 = c.cr0 → c'.mem = (if answered a then
        ((c.answered a).store ((c.answered a).address .ds .si) (a.regs .bx)).mem else a.mem) →
      Q () c' s) : Runs e820Result (c.answered a) s Q := by
  rw [e820Result]
  apply Runs.flag
  show Runs (if a.cf = true then _ else _) _ _ _
  by_cases hcf : a.cf = true
  · have ha : answered a = false := by simp [answered, hcf]
    rw [if_pos hcf]
    apply Runs.last
    apply h
    · simp [e820Eax, ha]
    · rfl
    · rfl
    · rfl
    · simp [ha]
  · rw [if_neg hcf]
    apply Runs.upd
    apply Runs.flag
    show Runs (if ((a.regs .ax).dword == e820Signature) = true then _ else _) _ _ _
    by_cases hsig : ((a.regs .ax).dword == e820Signature) = true
    · have ha : answered a = true := by simp [answered, hcf, hsig]
      rw [if_pos hsig]
      apply Runs.upd
      apply Runs.last
      apply h
      · simp [e820Eax, ha, Cpu.store]
      · rfl
      · rfl
      · rfl
      · rw [if_pos ha]
        rfl
    · have ha : answered a = false := by simp [answered, hcf, hsig]
      rw [if_neg hsig]
      apply Runs.last
      apply h
      · simp [e820Eax, ha]
      · rfl
      · rfl
      · rfl
      · simp [ha]

/-- What `e820NextBlock` leaves in memory. -/
def e820Mem (x : Cpu) (a : Answer) : Nat → UInt8 :=
  if answered a then
    ((x.answered a).store ((x.answered a).address .ds .si) (a.regs .bx)).mem
  else a.mem

/-- `e820NextBlock` returns the lower half of its result, below the upper half
of CR0. -/
theorem e820NextBlock_runs (int15 : Handler σ) (ret : Bytes) (c : Cpu) (s : σ)
    (hbp : ∀ x s, (int15 x s).1.regs .bp = x.regs .bp) {Q : Unit → Cpu → σ → Prop}
    (h : ∀ a t c', int15 (requested (c.pushDword ret)) s = (a, t) →
      c'.regs .ax = .join c.cr0 (e820Eax a) →
      c'.mem = e820Mem (requested (c.pushDword ret)) a → Q () c' t) :
    Runs (calll ret (e820NextBlock int15)) c s Q := by
  apply Runs.calll
  rw [e820NextBlock, e820Request_eq, enterProtectedMode_eq, restoreCallFrame]
  simp only [bind_assoc]
  apply Runs.upd
  generalize hx : requested _ = x at h ⊢
  have hbpx : x.regs .bp = .ofDword (c.sp - 4 - 4).toUInt32 := hx ▸ rfl
  have hspx : x.sp = c.sp - 4 - 4 - 4 - 4 - 4 - 4 - 4 - 2 - 2 := hx ▸ rfl
  have hcr0x : Bytes.join x.cr0 = Bytes.join c.cr0 := hx ▸ rfl
  obtain ⟨esl, esh, dsl, dsh, hstack⟩ : ∃ esl esh dsl dsh, x.stack = esl :: esh :: dsl :: dsh ::
      (c.regs .di).l :: (c.regs .di).h :: (c.regs .di).b2 :: (c.regs .di).b3 ::
      (c.regs .si).l :: (c.regs .si).h :: (c.regs .si).b2 :: (c.regs .si).b3 ::
      (c.regs .dx).l :: (c.regs .dx).h :: (c.regs .dx).b2 :: (c.regs .dx).b3 ::
      (c.regs .cx).l :: (c.regs .cx).h :: (c.regs .cx).b2 :: (c.regs .cx).b3 ::
      (c.regs .bx).l :: (c.regs .bx).h :: (c.regs .bx).b2 :: (c.regs .bx).b3 ::
      (c.regs .bp).l :: (c.regs .bp).h :: (c.regs .bp).b2 :: (c.regs .bp).b3 ::
      ret.l :: ret.h :: ret.b2 :: ret.b3 :: c.stack := hx ▸ ⟨_, _, _, _, rfl⟩
  apply Runs.int
  intro a t hanswer
  have hbpa : a.regs .bp = x.regs .bp := by
    rw [← hbp x s, hanswer]
  apply Runs.bind
  apply e820Result_runs
  intro y hregs hsp hstacky hcr0 hmem
  refine Runs.popSeg (by rw [hstacky]; exact hstack) ?_
  refine Runs.popSeg rfl ?_
  refine Runs.popl rfl ?_
  refine Runs.popl rfl ?_
  refine Runs.popl rfl ?_
  refine Runs.popl rfl ?_
  refine Runs.popl rfl ?_
  apply Runs.upd
  generalize hz : protectedMode _ = z
  have hbpz : z.regs .bp = y.regs .bp := hz ▸ rfl
  have hspz : z.sp = y.sp + 2 + 2 + 4 + 4 + 4 + 4 + 4 := hz ▸ rfl
  have hstackz : z.stack = (c.regs .bp).l :: (c.regs .bp).h :: (c.regs .bp).b2 ::
      (c.regs .bp).b3 :: ret.l :: ret.h :: ret.b2 :: ret.b3 :: c.stack := hz ▸ rfl
  have haxz : z.regs .ax = .join y.cr0 (y.regs .ax) := hz ▸ rfl
  have hmemz : z.mem = y.mem := hz ▸ rfl
  -- the frame is on top again
  have htop : (z.regs .bp).word - z.sp = 0 := by
    rw [hbpz, hspz, hsp, hspx, hregs, Function.update_of_ne (by decide), hbpa, hbpx,
      Bytes.word_ofDword, UInt16.toUInt16_toUInt32]
    grind
  apply Runs.upd
  refine Runs.popl (by rw [htop]; exact hstackz) ?_
  refine Runs.retl rfl ?_
  refine ⟨rfl, h a t _ hanswer ?_ ?_⟩
  · show z.regs .ax = _
    rw [haxz, hcr0, hregs, Function.update_self, hcr0x]
  · show z.mem = _
    rw [hmemz, hmem, e820Mem]

/-! ## What `int 15h` gets -/

/-- The arguments of a call, in the frame that `saved` leaves. -/
theorem frameDword_saved (d : Cpu) (ret : Bytes) (args : List Bytes) (i : Nat) :
    (saved ((pushArgs d args).pushDword ret)).frameDword (8 + i) =
      ⟨(pushArgs d args).stack.getD (i + 3) 0,
      (pushArgs d args).stack.getD (i + 2) 0, (pushArgs d args).stack.getD (i + 1) 0,
      (pushArgs d args).stack.getD i 0⟩ := by
  generalize pushArgs d args = c
  generalize hy : saved _ = y
  have hbp : y.regs .bp = .ofDword (c.sp - 4 - 4).toUInt32 := hy ▸ rfl
  have hsp : y.sp = c.sp - 4 - 4 - UInt16.ofNat 24 := by
    have hpushed : y.sp = c.sp - 4 - 4 - 4 - 4 - 4 - 4 - 4 - 2 - 2 := hy ▸ rfl
    rw [hpushed]
    show _ = c.sp - 4 - 4 - 24
    grind
  obtain ⟨esl, esh, dsl, dsh, hstack⟩ : ∃ esl esh dsl dsh, y.stack = [esl, esh, dsl, dsh,
      (c.regs .di).l, (c.regs .di).h, (c.regs .di).b2, (c.regs .di).b3,
      (c.regs .si).l, (c.regs .si).h, (c.regs .si).b2, (c.regs .si).b3,
      (c.regs .dx).l, (c.regs .dx).h, (c.regs .dx).b2, (c.regs .dx).b3,
      (c.regs .cx).l, (c.regs .cx).h, (c.regs .cx).b2, (c.regs .cx).b3,
      (c.regs .bx).l, (c.regs .bx).h, (c.regs .bx).b2, (c.regs .bx).b3] ++
      ((c.regs .bp).l :: (c.regs .bp).h :: (c.regs .bp).b2 :: (c.regs .bp).b3 ::
      ret.l :: ret.h :: ret.b2 :: ret.b3 :: c.stack) := hy ▸ ⟨_, _, _, _, rfl⟩
  have harg : ∀ j, y.frameByte (8 + j) = c.stack.getD j 0 := by
    intro j
    rw [Cpu.frameByte_below hbp hsp hstack rfl (by decide), Nat.add_comm]
    rfl
  rw [Cpu.frameDword, Nat.add_assoc, Nat.add_assoc, Nat.add_assoc, harg, harg, harg, harg]

/-- A linear address of 20 bits, as a segment and an offset. -/
theorem linear_address {v : UInt32} (h : v.toNat < 2 ^ 20) :
    (Bytes.ofDword (v >>> 4)).word.toNat * 16 + (Bytes.ofDword (v &&& 0xF)).word.toNat
      = v.toNat := by
  have hshift : (v >>> 4).toNat = v.toNat / 16 := by
    rw [UInt32.toNat_shiftRight]
    exact Nat.shiftRight_eq_div_pow _ 4
  have hand : (v &&& 0xF).toNat = v.toNat % 16 := by
    rw [UInt32.toNat_and]
    exact Nat.and_two_pow_sub_one_eq_mod _ 4
  rw [Bytes.word_ofDword, Bytes.word_ofDword, UInt32.toNat_toUInt16, UInt32.toNat_toUInt16, hshift,
    hand]
  omega

theorem frameDword_pointed (i : Nat) (s : Seg) {r : Reg} (hr : r ≠ .bp) (c : Cpu) (j : Nat) :
    (pointed i s r c).frameDword j = c.frameDword j := by
  cases s <;> simp [pointed, Cpu.frameDword, Cpu.frameByte, Cpu.stackByte,
    Function.update_of_ne hr.symm]

theorem address_pointed (i : Nat) (c : Cpu) {v : UInt32} (hv : c.frameDword i = .ofDword v)
    (h : v.toNat < 2 ^ 20) : (pointed i .ds .si c).address .ds .si = v.toNat := by
  show (Bytes.ofDword ((c.frameDword i).dword >>> 4)).word.toNat * 16
    + (Bytes.ofDword ((c.frameDword i).dword &&& 0xF)).word.toNat = _
  rw [hv, Bytes.dword_ofDword, linear_address h]

theorem address_requested (c : Cpu) :
    (requested c).address .ds .si
      = (pointed 12 .ds .si (pointed 8 .es .di (saved c))).address .ds .si := by
  rw [requested]
  generalize pointed 12 .ds .si _ = y
  simp [Cpu.address]

theorem mem_requested (c : Cpu) : (requested c).mem = c.mem := by
  simp [requested, pointed, saved, realMode, framed]

theorem requested_address (d : Cpu) (ret : Bytes) (block : UInt32) {continuation : UInt32}
    (h : continuation.toNat < 2 ^ 20) :
    (requested ((pushArgs d [.ofDword block, .ofDword continuation]).pushDword ret)).address .ds .si
      = continuation.toNat := by
  rw [address_requested]
  refine address_pointed 12 _ ?_ h
  rw [frameDword_pointed 8 .es (by decide)]
  have hframe := frameDword_saved d ret [.ofDword block, .ofDword continuation] 4
  exact hframe.trans rfl

end X86

/-! ## `E820NextBlock` as C code calls it -/

/-- The block and the continuation go in, and come out behind the int that is
returned. -/
abbrev NextBlock (σ : Type) : Type :=
  E820Block → UInt32 → Proc σ Stop (Int32 × E820Block × UInt32)

/-- `block`, in memory. -/
def E820Block.storeAt (block : E820Block) (a : Nat) (mem : Nat → UInt8) : Nat → UInt8 :=
  CLayout.store a 8 block.base.toNat (CLayout.store (a + 8) 8 block.length.toNat
    (CLayout.store (a + 16) 4 block.type.toNat (CLayout.store (a + 20) 4 block.acpi.toNat mem)))

def E820Block.loadAt (a : Nat) (mem : Nat → UInt8) : E820Block :=
  ⟨UInt64.ofNat (CLayout.load mem a 8), UInt64.ofNat (CLayout.load mem (a + 8) 8),
    UInt32.ofNat (CLayout.load mem (a + 16) 4), UInt32.ofNat (CLayout.load mem (a + 20) 4)⟩

/-- Where `MemDetect` calls from: the processor there, whatever state the world
is in, what CR0 holds, what stands behind the call, and where `block` and
`continuation` are. -/
structure DetectFrame (σ : Type) where
  cpu : σ → Cpu
  cr0 : Bytes
  behind : Bytes
  block : UInt32
  continuation : UInt32

/-- The processor at the call, the arguments pushed. -/
def DetectFrame.calls (frame : DetectFrame σ) (block : E820Block) (continuation : UInt32) (s : σ) :
    Cpu :=
  X86.pushArgs { frame.cpu s with
    cr0 := frame.cr0
    mem := CLayout.store frame.continuation.toNat 4 continuation.toNat
      (block.storeAt frame.block.toNat (frame.cpu s).mem) }
    [.ofDword frame.block, .ofDword frame.continuation]

/-- A handler next to the last of its answers. -/
def noting (int15 : Handler σ) : Handler (σ × Option Answer) := fun c w =>
  let (a, s) := int15 c w.1
  (a, s, some a)

/-- `E820NextBlock`. It always returns (`stubNextBlock_ok`). -/
def stubNextBlock (int15 : Handler σ) (frame : DetectFrame σ) : NextBlock (σ × Option Answer) :=
  fun block continuation w =>
    match calll frame.behind (X86.e820NextBlock (noting int15))
        (frame.calls block continuation w.1, w) with
    | .ok (_, c, t) => .ok (((c.regs .ax).dword.toInt32, E820Block.loadAt frame.block.toNat c.mem,
        UInt32.ofNat (CLayout.load c.mem frame.continuation.toNat 4)), t)
    | .error (_, _, t) => .error (.unfinished, t)

/-- What goes into `int 15h`. -/
def DetectFrame.asks (frame : DetectFrame σ) (block : E820Block) (continuation : UInt32) (s : σ) :
    Cpu :=
  X86.requested ((frame.calls block continuation s).pushDword frame.behind)

theorem stubNextBlock_ok {int15 : Handler σ} (hbp : ∀ x s, (int15 x s).1.regs .bp = x.regs .bp)
    (frame : DetectFrame σ) (block : E820Block) (continuation : UInt32)
    (w : σ × Option Answer) :
    let x := frame.asks block continuation w.1
    let r := int15 x w.1
    stubNextBlock int15 frame block continuation w
      = .ok (((Bytes.join frame.cr0 (X86.e820Eax r.1)).dword.toInt32,
        E820Block.loadAt frame.block.toNat (X86.e820Mem x r.1),
        UInt32.ofNat (CLayout.load (X86.e820Mem x r.1) frame.continuation.toNat 4)),
        r.2, some r.1) := by
  intro x r
  have hruns : Runs (calll frame.behind (X86.e820NextBlock (noting int15)))
      (frame.calls block continuation w.1) w fun _ c' t =>
      c'.regs .ax = .join frame.cr0 (X86.e820Eax r.1) ∧ c'.mem = X86.e820Mem x r.1 ∧
        t = (r.2, some r.1) := by
    apply X86.e820NextBlock_runs
    · intro y v
      exact hbp y v.1
    · intro a t c' hanswer hax hmem
      obtain ⟨rfl, rfl⟩ := Prod.mk.inj hanswer
      exact ⟨hax, hmem, rfl⟩
  obtain ⟨⟨⟩, c', t, hrun, hax, hmem, rfl⟩ := hruns
  simp only [stubNextBlock, hrun, hax, hmem]

/-! ## The firmware behind it -/

/-- The mask of the upper half. -/
theorem and_upper {n : Nat} (h : n < 2 ^ 32) : n &&& 0xFFFF0000 = n / 65536 * 65536 := by
  have hmask : (0xFFFF0000 : Nat) = (2 ^ 16 - 1) <<< 16 := by decide
  have hshift : n / 65536 * 65536 = (n >>> 16) <<< 16 := by
    rw [Nat.shiftLeft_eq, Nat.shiftRight_eq_div_pow]
  rw [hmask, hshift]
  apply Nat.eq_of_testBit_eq
  intro i
  rw [Nat.testBit_and, Nat.testBit_shiftLeft, Nat.testBit_shiftLeft, Nat.testBit_two_pow_sub_one,
    Nat.testBit_shiftRight]
  by_cases hlow : 16 ≤ i
  · rw [Nat.add_sub_cancel' hlow]
    by_cases hhigh : i < 32
    · simp [hlow, show i - 16 < 16 by omega]
    · rw [Nat.testBit_lt_two_pow (h.trans_le (Nat.pow_le_pow_right (by decide) (by omega)))]
      simp
  · simp [hlow]

theorem enterProtectedMode_dword (cr0 eax : Bytes) :
    enterProtectedMode cr0.dword eax.dword = (Bytes.join cr0 eax).dword := by
  have hcr0 := cr0.dword.toNat_lt
  have hlow : (eax.dword &&& 0xFFFF).toNat = eax.dword.toNat % 65536 := by
    rw [UInt32.toNat_and]
    exact Nat.and_two_pow_sub_one_eq_mod _ 16
  have hhigh : (cr0.dword &&& 0xFFFF0000).toNat = 2 ^ 16 * (cr0.dword.toNat / 65536) := by
    rw [UInt32.toNat_and, Nat.mul_comm]
    exact and_upper hcr0
  have h₂ := cr0.b2.toNat_lt
  have h₁ := cr0.h.toNat_lt
  have h₀ := cr0.l.toNat_lt
  have h₁' := eax.h.toNat_lt
  have h₀' := eax.l.toNat_lt
  rw [← UInt32.toNat_inj, enterProtectedMode, UInt32.toNat_or, hlow, hhigh,
    ← Nat.two_pow_add_eq_or_of_lt (Nat.mod_lt _ (by decide)), Bytes.toNat_dword, Bytes.toNat_dword,
    Bytes.toNat_dword]
  simp only [Bytes.join]
  omega
/-- What C code sees of an answer. -/
def replyOf (block : UInt32) (a : Answer) : E820Reply :=
  ⟨a.cf, (a.regs .ax).dword, (a.regs .bx).dword, (a.regs .cx).dword,
    E820Block.loadAt block.toNat a.mem⟩

/-- The firmware that a handler makes for `MemDetect`. -/
def DetectFrame.firmware (frame : DetectFrame σ) (int15 : Handler σ)
    (hcr0 : frame.cr0.dword.toNat < 2 ^ 31) : Firmware (σ × Option Answer) where
  int15 continuation block w :=
    let r := int15 (frame.asks block continuation w.1) w.1
    (replyOf frame.block r.1, r.2, some r.1)
  cr0 := frame.cr0.dword
  paging := hcr0

/-- The two locals lie apart, the continuation where real mode reaches it. -/
structure DetectFrame.Placed (frame : DetectFrame σ) : Prop where
  reach : frame.continuation.toNat < 2 ^ 20
  apart : frame.block.toNat + 24 ≤ frame.continuation.toNat ∨
    frame.continuation.toNat + 4 ≤ frame.block.toNat

/-- What the BIOS documents: it keeps `ebp` and `esi`, and all memory but the
buffer. -/
structure KeepsCaller (int15 : Handler σ) (frame : DetectFrame σ) : Prop where
  bp : ∀ x s, (int15 x s).1.regs .bp = x.regs .bp
  si : ∀ x s, (int15 x s).1.regs .si = x.regs .si
  mem : ∀ x s i, i < frame.block.toNat ∨ frame.block.toNat + 24 ≤ i →
    (int15 x s).1.mem i = x.mem i

theorem E820Block.loadAt_congr {mem mem' : Nat → UInt8} {a : Nat}
    (h : ∀ i, a ≤ i → i < a + 24 → mem i = mem' i) :
    E820Block.loadAt a mem = E820Block.loadAt a mem' := by
  have hpart : ∀ k n, k + n ≤ 24 → CLayout.load mem (a + k) n = CLayout.load mem' (a + k) n := by
    intro k n hkn
    apply CLayout.load_congr
    intro i hi hi'
    exact h i (by omega) (by omega)
  rw [loadAt, loadAt, hpart 8 8 (by decide), hpart 16 4 (by decide), hpart 20 4 (by decide),
    show CLayout.load mem a 8 = CLayout.load mem' a 8 from hpart 0 8 (by decide)]

theorem load_store_dword (x : Cpu) (a : Nat) (b : Bytes) :
    CLayout.load (x.store a b).mem a 4 = b.dword.toNat := by
  rw [Bytes.toNat_dword]
  simp [CLayout.load, Cpu.store, Nat.add_assoc]
  omega

theorem e820NextBlock_failed {fw : Firmware σ} {block : E820Block} {continuation : UInt32} {s : σ}
    (h : ((fw.int15 continuation block s).1.carry ||
      (fw.int15 continuation block s).1.eax != e820Signature) = true) :
    e820NextBlock fw block continuation s
      = .ok (((enterProtectedMode fw.cr0 (-1)).toInt32, (fw.int15 continuation block s).1.buffer,
        continuation), (fw.int15 continuation block s).2) := by
  rw [e820NextBlock, bind_ok (act_apply (fw.int15 continuation block) s), if_pos h]
  rfl

theorem e820NextBlock_answered {fw : Firmware σ} {block : E820Block} {continuation : UInt32} {s : σ}
    (h : ¬ ((fw.int15 continuation block s).1.carry ||
      (fw.int15 continuation block s).1.eax != e820Signature) = true) :
    e820NextBlock fw block continuation s
      = .ok (((enterProtectedMode fw.cr0 (fw.int15 continuation block s).1.ecx).toInt32,
        (fw.int15 continuation block s).1.buffer, (fw.int15 continuation block s).1.ebx),
        (fw.int15 continuation block s).2) := by
  rw [e820NextBlock, bind_ok (act_apply (fw.int15 continuation block) s), if_neg h]
  rfl

section

variable {int15 : Handler σ} {frame : DetectFrame σ} {x : Cpu} {a : Answer}

/-- An answered call leaves the continuation where C code keeps it, and the
block as the BIOS filled it. -/
theorem e820Mem_answered (hframe : frame.Placed) (ha : X86.answered a = true)
    (haddress : x.address .ds .si = frame.continuation.toNat)
    (hsi : a.regs .si = x.regs .si) :
    E820Block.loadAt frame.block.toNat (X86.e820Mem x a)
        = E820Block.loadAt frame.block.toNat a.mem ∧
      CLayout.load (X86.e820Mem x a) frame.continuation.toNat 4 = (a.regs .bx).dword.toNat := by
  have hat : (x.answered a).address .ds .si = frame.continuation.toNat := by
    rw [← haddress, Cpu.address, Cpu.address, ← hsi]
    rfl
  rw [X86.e820Mem, if_pos ha, hat]
  refine ⟨?_, load_store_dword _ _ _⟩
  apply E820Block.loadAt_congr
  intro i hi hi'
  have hapart := hframe.apart
  simp only [Cpu.store]
  rw [if_neg (by omega), if_neg (by omega), if_neg (by omega), if_neg (by omega)]
  rfl

/-- A call that is not leaves the continuation alone. -/
theorem e820Mem_failed (hframe : frame.Placed) (ha : ¬ X86.answered a = true)
    (hmem : ∀ i, i < frame.block.toNat ∨ frame.block.toNat + 24 ≤ i → a.mem i = x.mem i) :
    X86.e820Mem x a = a.mem ∧ CLayout.load (X86.e820Mem x a) frame.continuation.toNat 4
      = CLayout.load x.mem frame.continuation.toNat 4 := by
  rw [X86.e820Mem, if_neg ha]
  refine ⟨rfl, CLayout.load_congr ?_⟩
  intro i hi hi'
  have hapart := hframe.apart
  exact hmem i (by omega)

end

/-- **`E820NextBlock` is its namesake** in `MemDetect` over this firmware. -/
theorem stubNextBlock_eq {int15 : Handler σ} {frame : DetectFrame σ}
    (hint : KeepsCaller int15 frame) (hframe : frame.Placed)
    (hcr0 : frame.cr0.dword.toNat < 2 ^ 31) :
    stubNextBlock int15 frame = e820NextBlock (frame.firmware int15 hcr0) := by
  funext block continuation w
  have hasked : CLayout.load (frame.asks block continuation w.1).mem frame.continuation.toNat 4
      = continuation.toNat := by
    rw [DetectFrame.asks, X86.mem_requested]
    exact CLayout.load_store _ continuation.toNat_lt
  have haddress : (frame.asks block continuation w.1).address .ds .si
      = frame.continuation.toNat := by
    rw [DetectFrame.asks, DetectFrame.calls, X86.requested_address _ _ _ hframe.reach]
  have hsi := hint.si (frame.asks block continuation w.1) w.1
  have hmem := hint.mem (frame.asks block continuation w.1) w.1
  have hreply : (frame.firmware int15 hcr0).int15 continuation block w
      = (replyOf frame.block (int15 (frame.asks block continuation w.1) w.1).1,
        (int15 (frame.asks block continuation w.1) w.1).2,
        some (int15 (frame.asks block continuation w.1) w.1).1) := rfl
  have hnegative : (-1 : UInt32) = (Bytes.ofDword 0xFFFFFFFF).dword := by
    rw [Bytes.dword_ofDword]
    decide
  rw [stubNextBlock_ok hint.bp]
  generalize frame.asks block continuation w.1 = x at hasked haddress hsi hmem hreply ⊢
  generalize int15 x w.1 = r at hsi hmem hreply ⊢
  cases hcall : X86.answered r.1 with
  | true =>
    have hgo : ¬ ((replyOf frame.block r.1).carry ||
        (replyOf frame.block r.1).eax != e820Signature) = true := by
      simpa [X86.answered, replyOf] using hcall
    obtain ⟨hblock, hstored⟩ := e820Mem_answered hframe hcall haddress hsi
    rw [e820NextBlock_answered (by rw [hreply]; exact hgo), hreply, hblock, hstored, X86.e820Eax,
      if_pos hcall, UInt32.ofNat_toNat, ← enterProtectedMode_dword]
    rfl
  | false =>
    have hcall' : ¬ X86.answered r.1 = true := by rw [hcall]; decide
    have hstop : ((replyOf frame.block r.1).carry ||
        (replyOf frame.block r.1).eax != e820Signature) = true := by
      simp only [X86.answered, Bool.and_eq_false_iff, Bool.not_eq_false'] at hcall
      simpa [replyOf] using hcall
    obtain ⟨hblock, hkept⟩ := e820Mem_failed hframe hcall' hmem
    rw [e820NextBlock_failed (by rw [hreply]; exact hstop), hreply, hkept, hblock, hasked,
      X86.e820Eax, if_neg hcall', UInt32.ofNat_toNat, hnegative, ← enterProtectedMode_dword]
    rfl

end Netclover.Stage2
