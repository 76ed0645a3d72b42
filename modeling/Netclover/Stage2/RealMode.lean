import Netclover.Stage1.DiskRoutines

/-!
# The way into real mode and back (`libs/x86.asm`)

The macros and the disk stubs that C code calls, instruction by instruction.
`diskRead16` calls the BIOS with the registers of its namesake
(`diskRead16_runs`). `diskReset16` takes its argument from where its return
address lies (`diskReset16_runs`).
-/

namespace Netclover.Stage2.X86

open I386 Asm

variable {σ : Type}

/-! ## The macros -/

def enterRealMode : Asm σ Unit := do
  pushw .ax
  jmpFar 0x18
  -- .pmode16
  movFromCr0 .ax
  andbImm .al 0xFE
  movToCr0 .ax
  jmpFar 0
  -- .rmode
  xorw .ax .ax
  movSeg .ds .ax
  movSeg .ss .ax
  popw .ax
  sti

def enterProtectedMode : Asm σ Unit := do
  pushw .ax
  cli
  movFromCr0 .ax
  orbImm .al 1
  movToCr0 .ax
  jmpFar 0x08
  -- .endingPM
  movwImm .ax 0x10
  movSeg .ds .ax
  movSeg .ss .ax
  popw .ax

def newCallFrame : Asm σ Unit := do
  pushl .bp
  movEbpEsp

def restoreCallFrame : Asm σ Unit := do
  movEspEbp
  popl .bp

/-- `LinearToSegOffset [bp + i], s, r`. -/
def linearToSegOffset (i : Nat) (s : Seg) (r : Reg) : Asm σ Unit := do
  movlFrame r i
  shrl r 4
  movSeg s r
  movlFrame r i
  andlImm r 0xF

/-! ## The disk stubs -/

/-- `diskReset16`; `next` is behind the call of `boot_disk_reset`. -/
def diskReset16 (int13 : Handler σ) (next : Bytes) : Asm σ Unit := do
  pushw .dx
  movbStack .dl 4
  enterRealMode
  callw next (Stage1.bootDiskReset int13)
  enterProtectedMode
  popw .dx
  retl

/-- The registers of a read, from the arguments in the frame. -/
def loadRequest : Asm σ Unit := do
  movbFrame .dl 8
  movbFrame .ch 12
  movbFrame .cl 13
  shlb .cl 6
  movbFrame .dh 16
  movbFrame .al 20
  andbImm .al 0x3F
  orb .cl .al
  movbFrame .al 24
  linearToSegOffset 28 .es .bx
  movbImm .ah 0x02

def diskRead16 (int13 : Handler σ) : Asm σ Unit := do
  newCallFrame
  enterRealMode
  pushl .bx
  pushSeg .es
  loadRequest
  int int13
  movb .al .ah
  xorb .ah .ah
  -- .ending
  popSeg .es
  popl .bx
  enterProtectedMode
  restoreCallFrame
  retl

/-! ## What the macros do -/

/-- In real mode, with the upper half of CR0 in that of `eax`. -/
def realMode (c : Cpu) : Cpu :=
  { c.set .ax (.join c.cr0 (c.regs .ax)) with
    cr0 := { c.cr0 with l := c.cr0.l &&& 0xFE }, cf := false, zf := true, interrupts := true
    cs := 0, ds := 0, ss := 0 }

/-- In protected mode, likewise. -/
def protectedMode (c : Cpu) : Cpu :=
  { c.set .ax (.join c.cr0 (c.regs .ax)) with
    cr0 := { c.cr0 with l := c.cr0.l ||| 1 }, cf := false, zf := c.cr0.l ||| 1 == 0
    interrupts := false, cs := 0x08, ds := 0x10, ss := 0x10 }

theorem enterRealMode_eq : (enterRealMode : Asm σ Unit) = upd realMode := by
  funext ⟨c, s⟩
  simp [enterRealMode, upd_eq, realMode]

theorem enterProtectedMode_eq : (enterProtectedMode : Asm σ Unit) = upd protectedMode := by
  funext ⟨c, s⟩
  simp [enterProtectedMode, upd_eq, protectedMode]

/-- The frame of a call: `ebp` saved, and `ebp` at the top of the stack. -/
def framed (c : Cpu) : Cpu :=
  (c.pushDword (c.regs .bp)).set .bp (.ofDword (c.sp - 4).toUInt32)

theorem newCallFrame_eq : (newCallFrame : Asm σ Unit) = upd framed := rfl

def pointed (i : Nat) (s : Seg) (r : Reg) (c : Cpu) : Cpu :=
  ((c.set r (.ofDword ((c.frameDword i).dword &&& 0xF))).setSeg s
    (Bytes.ofDword ((c.frameDword i).dword >>> 4)).word).setFlags
    ((c.frameDword i).dword &&& 0xF == 0) false

theorem linearToSegOffset_eq (i : Nat) (s : Seg) {r : Reg} (hr : r ≠ .bp) :
    (linearToSegOffset i s r : Asm σ Unit) = upd (pointed i s r) := by
  funext ⟨c, w⟩
  cases s <;> simp [linearToSegOffset, upd_eq, pointed, Cpu.frameDword, Cpu.frameByte,
    Cpu.stackByte, Function.update_of_ne hr.symm]

/-! ## What the disk stubs do -/

/-- `diskReset16` resets the drive whose number is the third byte of the
return address: `push dx` takes two bytes, so that `[esp + 4]` is not yet the
argument. -/
theorem diskReset16_runs (int13 : Handler σ) (next ret : Bytes) (c : Cpu) (s : σ)
    {Q : Unit → Cpu → σ → Prop}
    (h : ∀ x a t c', x.byte .ah = 0 → x.byte .dl = ret.b2 → int13 x s = (a, t) →
      (c'.regs .ax).word = (if a.cf then 1 else 0) → Q () c' t) :
    Runs (calll ret (diskReset16 int13 next)) c s Q := by
  apply Runs.calll
  rw [diskReset16, enterRealMode_eq, enterProtectedMode_eq]
  apply Runs.upd
  apply Runs.upd
  apply Runs.upd
  apply Runs.bind
  apply Stage1.bootDiskReset_runs
  intro x a t y hx hanswer hax hy
  have hstack : y.stack = (c.regs .dx).l :: (c.regs .dx).h :: ret.l :: ret.h :: ret.b2 :: ret.b3 ::
    c.stack := hy.stack
  apply Runs.upd
  refine Runs.popw (by exact hstack) ?_
  refine Runs.retl rfl ?_
  refine ⟨rfl, h x a t _ ?_ ?_ hanswer ?_⟩
  · exact congrArg (fun r => r.ax.h) hx
  · exact congrArg (fun r => r.dx.l) hx
  · exact hax

/-- The arguments of a C call, the first one on top. -/
def pushArgs (c : Cpu) (args : List Bytes) : Cpu := args.foldr (fun arg c => c.pushDword arg) c

/-- An `int8_t` as an argument. -/
def int8Arg (b : UInt8) : Bytes :=
  let sign := if b < 0x80 then 0 else 0xFF
  ⟨sign, sign, sign, b⟩

/-- A `uint16_t`. -/
def uint16Arg (w : UInt16) : Bytes := Bytes.setWord ⟨0, 0, 0, 0⟩ w

/-- The arguments of `diskRead16`. -/
def readArgs (drive : UInt8) (chs : Chs) (count : UInt8) (dataOut : UInt32) : List Bytes :=
  [int8Arg drive, uint16Arg chs.cylinder, uint16Arg chs.head, uint16Arg chs.sector,
    ⟨0, 0, 0, count⟩, .ofDword dataOut]

/-! Loads from a frame do not move it. -/

section

variable (c : Cpu) (b : ByteReg) (v : UInt8) (zf cf : Bool) (i : Nat)

theorem frameByte_setByte : (c.setByte b v).frameByte i = c.frameByte i := by
  cases b <;> rfl

theorem frameByte_setFlags : (c.setFlags zf cf).frameByte i = c.frameByte i := rfl

theorem byte_setByte (b' : ByteReg) :
    (c.setByte b v).byte b' = if b' = b then v else c.byte b' := by
  cases b <;> cases b' <;> rfl

theorem byte_setFlags : (c.setFlags zf cf).byte b = c.byte b := rfl

end

theorem request_pointed {c : Cpu} {dataOut : UInt32} (h : c.frameDword 28 = .ofDword dataOut) :
    Stage1.request ((pointed 28 .es .bx c).setByte .ah 0x02)
      = ⟨⟨0x02, c.byte .al⟩, (Stage2.linearToSegOffset dataOut).2, ⟨c.byte .ch, c.byte .cl⟩,
        ⟨c.byte .dh, c.byte .dl⟩, (Stage2.linearToSegOffset dataOut).1⟩ := by
  simp [Stage1.request, pointed, Stage2.linearToSegOffset, h]

/-- Where the frame holds the arguments, they are loaded as in `diskRead16`
above. -/
theorem loadRequest_leaves {c : Cpu} {drive count : UInt8} {chs : Chs} {dataOut : UInt32} (s : σ)
    (h8 : c.frameByte 8 = drive) (h12 : c.frameByte 12 = chs.cylinder.toUInt8)
    (h13 : c.frameByte 13 = (chs.cylinder >>> 8).toUInt8) (h16 : c.frameByte 16 = chs.head.toUInt8)
    (h20 : c.frameByte 20 = chs.sector.toUInt8) (h24 : c.frameByte 24 = count)
    (h28 : c.frameDword 28 = .ofDword dataOut) :
    ∃ c', loadRequest (c, s) = .ok ((), c', s) ∧
      Stage1.request c' = Stage2.diskRead16 drive chs count dataOut ∧
      c'.regs .bp = c.regs .bp ∧ c'.sp = c.sp ∧ c'.stack = c.stack := by
  rw [loadRequest, linearToSegOffset_eq 28 .es (by decide)]
  simp only [movbFrame, shlb, andbImm, orb, movbImm, upd_bind, upd_eq, frameByte_setByte,
    frameByte_setFlags, byte_setByte, byte_setFlags, reduceCtorEq, if_true, if_false, h8, h12, h13,
    h16, h20, h24]
  refine ⟨_, rfl, ?_, rfl, rfl, rfl⟩
  refine (request_pointed (by exact h28)).trans ?_
  simp only [byte_setByte, byte_setFlags, reduceCtorEq, if_true, if_false, diskRead16_eq]

/-- `diskRead16` calls the BIOS with the registers of its namesake, and returns
what the BIOS leaves in `ah`. -/
theorem diskRead16_runs (int13 : Handler σ) (ret : Bytes) (c : Cpu) (s : σ) (drive : UInt8)
    (chs : Chs) (count : UInt8) (dataOut : UInt32)
    (hbp : ∀ x s, (int13 x s).1.regs .bp = x.regs .bp) {Q : Unit → Cpu → σ → Prop}
    (h : ∀ x a t c', Stage1.request x = Stage2.diskRead16 drive chs count dataOut →
      int13 x s = (a, t) → (c'.regs .ax).word = (a.regs .ax).h.toUInt16 → c'.mem = a.mem →
      Q () c' t) :
    Runs (calll ret (diskRead16 int13)) (pushArgs c (readArgs drive chs count dataOut)) s Q := by
  apply Runs.calll
  rw [diskRead16, newCallFrame_eq, enterRealMode_eq, enterProtectedMode_eq, restoreCallFrame]
  simp only [bind_assoc]
  generalize hd : pushArgs c (readArgs drive chs count dataOut) = d
  apply Runs.upd
  apply Runs.upd
  apply Runs.upd
  apply Runs.upd
  generalize hy : Cpu.pushWord _ _ = y
  have hbpy : y.regs .bp = .ofDword (d.sp - 4 - 4).toUInt32 := hy ▸ rfl
  have hspy : y.sp = d.sp - 4 - 4 - 4 - 2 := hy ▸ rfl
  obtain ⟨esl, esh, hstack⟩ : ∃ esl esh, y.stack = esl :: esh ::
      (d.regs .bx).l :: (d.regs .bx).h :: (d.regs .bx).b2 :: (d.regs .bx).b3 ::
      (d.regs .bp).l :: (d.regs .bp).h :: (d.regs .bp).b2 :: (d.regs .bp).b3 ::
      ret.l :: ret.h :: ret.b2 :: ret.b3 :: d.stack := hy ▸ ⟨_, _, rfl⟩
  have harg : ∀ i, y.frameByte (8 + i) = d.stack.getD i 0 := by
    intro i
    have hlist : y.stack = [esl, esh, (d.regs .bx).l, (d.regs .bx).h, (d.regs .bx).b2,
        (d.regs .bx).b3] ++ ((d.regs .bp).l :: (d.regs .bp).h :: (d.regs .bp).b2 ::
        (d.regs .bp).b3 :: ret.l :: ret.h :: ret.b2 :: ret.b3 :: d.stack) := hstack
    have hsix : y.sp = d.sp - 4 - 4 - UInt16.ofNat 6 := by
      rw [hspy]
      show _ = d.sp - 4 - 4 - 6
      grind
    rw [Cpu.frameByte_below hbpy hsix hlist rfl (by decide), Nat.add_comm]
    rfl
  have hdata : y.frameDword 28 = .ofDword dataOut := by
    rw [Cpu.frameDword, harg 20, harg 21, harg 22, harg 23, ← hd]
    rfl
  have hdrive : y.frameByte 8 = drive := by rw [harg 0, ← hd]; rfl
  have hcylinder : y.frameByte 12 = chs.cylinder.toUInt8 := by rw [harg 4, ← hd]; rfl
  have hcylinder' : y.frameByte 13 = (chs.cylinder >>> 8).toUInt8 := by rw [harg 5, ← hd]; rfl
  have hhead : y.frameByte 16 = chs.head.toUInt8 := by rw [harg 8, ← hd]; rfl
  have hsector : y.frameByte 20 = chs.sector.toUInt8 := by rw [harg 12, ← hd]; rfl
  have hcount : y.frameByte 24 = count := by rw [harg 16, ← hd]; rfl
  obtain ⟨x, hload, hrequest, hbpx, hspx, hstackx⟩ :=
    loadRequest_leaves s hdrive hcylinder hcylinder' hhead hsector hcount hdata
  refine Runs.bind ⟨(), x, s, hload, ?_⟩
  apply Runs.int
  intro a t hanswer
  have hbpa : a.regs .bp = y.regs .bp := by
    rw [← hbpx, ← hbp x s, hanswer]
  apply Runs.upd
  apply Runs.upd
  refine Runs.popSeg (by exact hstackx.trans hstack) ?_
  refine Runs.popl rfl ?_
  apply Runs.upd
  generalize hz : protectedMode _ = z
  have hbpz : z.regs .bp = a.regs .bp := hz ▸ rfl
  have hspz : z.sp = x.sp + 2 + 4 := hz ▸ rfl
  have hstackz : z.stack = (d.regs .bp).l :: (d.regs .bp).h :: (d.regs .bp).b2 ::
      (d.regs .bp).b3 :: ret.l :: ret.h :: ret.b2 :: ret.b3 :: d.stack := hz ▸ rfl
  have haxz : (z.regs .ax).h = (a.regs .ax).h ^^^ (a.regs .ax).h ∧
      (z.regs .ax).l = (a.regs .ax).h := hz ▸ ⟨rfl, rfl⟩
  have hmemz : z.mem = a.mem := hz ▸ rfl
  -- the frame is on top again
  have htop : (z.regs .bp).word - z.sp = 0 := by
    rw [hbpz, hspz, hspx, hspy, hbpa, hbpy, Bytes.word_ofDword, UInt16.toUInt16_toUInt32]
    grind
  apply Runs.upd
  refine Runs.popl (by rw [htop]; exact hstackz) ?_
  refine Runs.retl rfl ?_
  refine ⟨rfl, h x a t _ hrequest hanswer ?_ hmemz⟩
  show (z.regs .ax).word = _
  rw [Bytes.word, haxz.1, haxz.2, UInt8.xor_self]
  simp

end Netclover.Stage2.X86
