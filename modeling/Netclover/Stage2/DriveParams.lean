import Netclover.Stage2.DiskRetries
import Netclover.Stage2.E820

/-!
# The geometry of a drive (`diskGetDriveParams16`, `DISK_Init`)

`diskGetDriveParams16` instruction by instruction: it returns, and stores what
its namesake in `Geometry` makes of the answer of the BIOS, or nothing
(`diskGetDriveParams16_runs`). `DISK_Init` on top of it leaves a disk on which
`DISK_ReadSectors` delivers what the drive has (`disk_delivers`).
-/

namespace Netclover.Stage2

open I386 Asm

variable {σ : Type}

namespace X86

/-! ## `diskGetDriveParams16` -/

/-- Up to `int 13h`. -/
def driveRequest : Asm σ Unit := do
  newCallFrame
  enterRealMode
  pushSeg .es
  pushw .bx
  pushl .si
  pushw .di
  movbFrame .dl 8
  movbImm .ah 0x08
  xorw .di .di
  movSeg .es .di
  stc

/-- `.set_params`. -/
def setParams : Asm σ Unit := do
  -- Drive type
  linearToSegOffset 12 .es .si
  movbStoreAt .es .si .bl
  -- Cylinders
  movb .bl .ch
  movb .bh .cl
  shrb .bh 6
  incw .bx
  linearToSegOffset 16 .es .si
  movwStoreAt .es .si .bx
  -- Sectors
  xorb .ch .ch
  andbImm .cl 0x3F
  linearToSegOffset 24 .es .si
  movwStoreAt .es .si .cx
  -- Heads
  movb .cl .dh
  incw .cx
  linearToSegOffset 20 .es .si
  movwStoreAt .es .si .cx

/-- Behind `int 13h`. -/
def driveResult : Asm σ Unit := do
  if ← jc then
    movwImm .ax 1
  else
    -- .flag_clear
    xorw .ax .ax
    setParams

def diskGetDriveParams16 (int13 : Handler σ) : Asm σ Unit := do
  driveRequest
  int int13
  driveResult
  -- .ending
  popw .di
  popl .si
  popw .bx
  popSeg .es
  enterProtectedMode
  restoreCallFrame
  retl

/-! ## Stores through a pointer of the caller -/

/-- The frame is the same, and so are the registers but `si`. -/
structure Stored (mem : Nat → UInt8) (c c' : Cpu) : Prop where
  regs : ∀ r, r ≠ .si → c'.regs r = c.regs r
  sp : c'.sp = c.sp
  stack : c'.stack = c.stack
  mem : c'.mem = mem

theorem frameDword_congr {c c' : Cpu} (hbp : c'.regs .bp = c.regs .bp) (hsp : c'.sp = c.sp)
    (hstack : c'.stack = c.stack) (i : Nat) : c'.frameDword i = c.frameDword i := by
  simp only [Cpu.frameDword, Cpu.frameByte, Cpu.stackByte, hbp, hsp, hstack]

theorem Stored.frameDword {mem : Nat → UInt8} {c c' : Cpu} (h : Stored mem c c') (i : Nat) :
    c'.frameDword i = c.frameDword i :=
  frameDword_congr (h.regs .bp (by decide)) h.sp h.stack i

theorem store_word (a : Nat) (b : Bytes) (mem : Nat → UInt8) :
    CLayout.store a 2 b.word.toNat mem
      = Function.update (Function.update mem a b.l) (a + 1) b.h := by
  have hl : UInt8.ofNat b.word.toNat = b.l := by
    rw [← UInt8.toNat_inj, UInt8.toNat_ofNat', Bytes.toNat_word]
    have hlt := b.l.toNat_lt
    omega
  have hh : UInt8.ofNat (b.word.toNat / 256) = b.h := by
    have hlt := b.l.toNat_lt
    have hlt' := b.h.toNat_lt
    rw [← UInt8.toNat_inj, UInt8.toNat_ofNat', Bytes.toNat_word]
    omega
  rw [CLayout.store, CLayout.store, CLayout.store, hl, hh]

section

variable {c : Cpu} {i : Nat} {v : UInt32} (hv : c.frameDword i = .ofDword v)
  (h : v.toNat < 2 ^ 20) (s : σ)
include hv h

theorem address_out : (pointed i .es .si c).address .es .si = v.toNat := by
  show (Bytes.ofDword ((c.frameDword i).dword >>> 4)).word.toNat * 16
    + (Bytes.ofDword ((c.frameDword i).dword &&& 0xF)).word.toNat = _
  rw [hv, Bytes.dword_ofDword, linear_address h]

theorem movbOut_runs (b : ByteReg) :
    Runs (do linearToSegOffset i .es .si; movbStoreAt .es .si b) c s fun _ c' t =>
      t = s ∧ Stored (CLayout.store v.toNat 1 (c.byte b).toNat c.mem) c c' := by
  rw [linearToSegOffset_eq i .es (by decide)]
  apply Runs.upd
  apply Runs.last
  refine ⟨rfl, fun r hr => Function.update_of_ne hr _ _, rfl, rfl, ?_⟩
  have hbyte : (pointed i .es .si c).byte b = c.byte b := by cases b <;> rfl
  show Function.update c.mem _ _ = _
  rw [address_out hv h, hbyte, CLayout.store, CLayout.store, UInt8.ofNat_toNat]

theorem movwOut_runs {r : Reg} (hr : r ≠ .si) :
    Runs (do linearToSegOffset i .es .si; movwStoreAt .es .si r) c s fun _ c' t =>
      t = s ∧ Stored (CLayout.store v.toNat 2 (c.regs r).word.toNat c.mem) c c' := by
  rw [linearToSegOffset_eq i .es (by decide)]
  apply Runs.upd
  apply Runs.last
  refine ⟨rfl, fun r hr => Function.update_of_ne hr _ _, rfl, rfl, ?_⟩
  have hreg : (pointed i .es .si c).regs r = c.regs r := Function.update_of_ne hr _ _
  show Function.update (Function.update c.mem _ _) _ _ = _
  rw [address_out hv h, hreg, store_word]

end

/-! ## What `int 13h` gets -/

/-- The processor at `int 13h`, in a call with these arguments on the stack. -/
structure Asks (c x : Cpu) : Prop where
  ah : x.byte .ah = 0x08
  dl : x.byte .dl = c.stackByte 4
  cf : x.cf = true
  di : (x.regs .di).word = 0
  es : x.es = 0
  sp : x.sp = c.sp - 4 - 2 - 2 - 4 - 2
  bp : x.regs .bp = .ofDword (c.sp - 4).toUInt32
  stack : x.stack = (c.regs .di).l :: (c.regs .di).h ::
    (c.regs .si).l :: (c.regs .si).h :: (c.regs .si).b2 :: (c.regs .si).b3 ::
    (c.regs .bx).l :: (c.regs .bx).h :: c.es.toUInt8 :: (c.es >>> 8).toUInt8 ::
    (c.regs .bp).l :: (c.regs .bp).h :: (c.regs .bp).b2 :: (c.regs .bp).b3 :: c.stack
  mem : x.mem = c.mem

/-- The frame goes on behind the one of `ebp` that was saved. -/
theorem Asks.frameByte {c x : Cpu} (h : Asks c x) (i : Nat) :
    x.frameByte (4 + i) = c.stackByte i := by
  have hsp : x.sp = c.sp - 4 - UInt16.ofNat 10 := by
    rw [h.sp]
    show _ = c.sp - 4 - 10
    grind
  have hstack : x.stack = [(c.regs .di).l, (c.regs .di).h, (c.regs .si).l, (c.regs .si).h,
      (c.regs .si).b2, (c.regs .si).b3, (c.regs .bx).l, (c.regs .bx).h, c.es.toUInt8,
      (c.es >>> 8).toUInt8] ++ ((c.regs .bp).l :: (c.regs .bp).h :: (c.regs .bp).b2 ::
      (c.regs .bp).b3 :: c.stack) := h.stack
  rw [Cpu.frameByte_below h.bp hsp hstack rfl (by decide), Nat.add_comm]
  rfl

theorem Asks.frameDword {c x : Cpu} (h : Asks c x) (i : Nat) : x.frameDword (4 + i)
    = ⟨c.stackByte (i + 3), c.stackByte (i + 2), c.stackByte (i + 1), c.stackByte i⟩ := by
  rw [Cpu.frameDword, Nat.add_assoc, Nat.add_assoc, Nat.add_assoc, h.frameByte, h.frameByte,
    h.frameByte, h.frameByte]

theorem driveRequest_runs (c : Cpu) (s : σ) :
    Runs driveRequest c s fun _ x t => t = s ∧ Asks c x := by
  rw [driveRequest, newCallFrame_eq, enterRealMode_eq]
  apply Runs.upd
  apply Runs.upd
  apply Runs.upd
  apply Runs.upd
  apply Runs.upd
  apply Runs.upd
  generalize hy : Cpu.pushWord _ _ = y
  have hsp : y.sp = c.sp - 4 - 2 - 2 - 4 - 2 := hy ▸ rfl
  have hbp : y.regs .bp = .ofDword (c.sp - 4).toUInt32 := hy ▸ rfl
  have hmem : y.mem = c.mem := hy ▸ rfl
  have hes : (Bytes.ofDword c.es.toUInt32).l = c.es.toUInt8 ∧
      (Bytes.ofDword c.es.toUInt32).h = (c.es >>> 8).toUInt8 := by
    rw [← UInt8.toNat_inj, ← UInt8.toNat_inj]
    simp [Bytes.ofDword]
  have hstack : y.stack = [(c.regs .di).l, (c.regs .di).h, (c.regs .si).l, (c.regs .si).h,
      (c.regs .si).b2, (c.regs .si).b3, (c.regs .bx).l, (c.regs .bx).h, c.es.toUInt8,
      (c.es >>> 8).toUInt8] ++ ((c.regs .bp).l :: (c.regs .bp).h :: (c.regs .bp).b2 ::
      (c.regs .bp).b3 :: c.stack) := by
    rw [← hes.1, ← hes.2, ← hy]
    rfl
  have hdrive : y.frameByte 8 = c.stackByte 4 := by
    have hten : y.sp = c.sp - 4 - UInt16.ofNat 10 := by
      rw [hsp]
      show _ = c.sp - 4 - 10
      grind
    rw [Cpu.frameByte_below hbp hten hstack rfl (by decide)]
    rfl
  apply Runs.upd
  apply Runs.upd
  apply Runs.upd
  apply Runs.upd
  apply Runs.last
  refine ⟨rfl, rfl, hdrive, rfl, ?_, ?_, hsp, hbp, hstack, hmem⟩
  · simp
  · simp

end X86

/-! ## What is stored -/

/-- The pointers that `diskGetDriveParams16` is given. -/
structure DriveOuts where
  driveType : UInt32
  cylinders : UInt32
  heads : UInt32
  sectors : UInt32

/-- The order of the stores is that of `.set_params`. -/
def DriveParams.storeAt (params : DriveParams) (outs : DriveOuts) (mem : Nat → UInt8) :
    Nat → UInt8 :=
  CLayout.store outs.heads.toNat 2 params.heads.toNat
    (CLayout.store outs.sectors.toNat 2 params.sectors.toNat
      (CLayout.store outs.cylinders.toNat 2 params.cylinders.toNat
        (CLayout.store outs.driveType.toNat 1 params.driveType.toNat mem)))

namespace X86

/-- The pointers are in the frame. -/
structure Given (outs : DriveOuts) (c : Cpu) : Prop where
  driveType : c.frameDword 12 = .ofDword outs.driveType
  cylinders : c.frameDword 16 = .ofDword outs.cylinders
  heads : c.frameDword 20 = .ofDword outs.heads
  sectors : c.frameDword 24 = .ofDword outs.sectors

/-- Real mode reaches them. -/
structure Reached (outs : DriveOuts) : Prop where
  driveType : outs.driveType.toNat < 2 ^ 20
  cylinders : outs.cylinders.toNat < 2 ^ 20
  heads : outs.heads.toNat < 2 ^ 20
  sectors : outs.sectors.toNat < 2 ^ 20

/-- The geometry in the registers. -/
def paramsOf (regs : Reg → Bytes) : DriveParams :=
  Stage2.diskGetDriveParams16 (regs .bx).l ⟨(regs .cx).h, (regs .cx).l⟩
    ⟨(regs .dx).h, (regs .dx).l⟩

/-- What is left to `.ending`: the frame, `di` and the upper half of `ebx` as
they were, and a status. -/
structure Resulted (status : UInt16) (mem : Nat → UInt8) (c c' : Cpu) : Prop where
  status : (c'.regs .ax).word = status
  bp : c'.regs .bp = c.regs .bp
  di : c'.regs .di = c.regs .di
  bx : (c'.regs .bx).b3 = (c.regs .bx).b3 ∧ (c'.regs .bx).b2 = (c.regs .bx).b2
  sp : c'.sp = c.sp
  stack : c'.stack = c.stack
  mem : c'.mem = mem

theorem setParams_runs {outs : DriveOuts} {c : Cpu} (hgiven : Given outs c)
    (hreached : Reached outs) (s : σ) : Runs setParams c s fun _ c' t => t = s ∧
      Resulted (c.regs .ax).word ((paramsOf c.regs).storeAt outs c.mem) c c' := by
  rw [setParams, ← bind_assoc]
  apply Runs.bind
  apply (movbOut_runs hgiven.driveType hreached.driveType s .bl).mono
  rintro - c₁ t ⟨rfl, h₁⟩
  apply Runs.upd
  apply Runs.upd
  apply Runs.upd
  apply Runs.upd
  rw [← bind_assoc]
  apply Runs.bind
  generalize hx₁ : Cpu.setFlags _ _ _ = x₁
  obtain ⟨hcylinders, hupper, hothers₁, hframe₁, hmem₁⟩ :
      (x₁.regs .bx).word = (paramsOf c.regs).cylinders ∧
      ((x₁.regs .bx).b3 = (c.regs .bx).b3 ∧ (x₁.regs .bx).b2 = (c.regs .bx).b2) ∧
      (∀ r, r ≠ .si → r ≠ .bx → x₁.regs r = c.regs r) ∧ (x₁.sp = c.sp ∧ x₁.stack = c.stack) ∧
      x₁.mem = CLayout.store outs.driveType.toNat 1 (paramsOf c.regs).driveType.toNat c.mem := by
    subst hx₁
    refine ⟨?_, ?_, fun r hsi hbx => ?_, ⟨h₁.sp, h₁.stack⟩, h₁.mem⟩
    · simp [paramsOf, Stage2.diskGetDriveParams16, Reg16.inc, Reg16.word_ofWord, h₁.regs]
      rfl
    · simp [h₁.regs]
    · simp [h₁.regs r hsi, hbx]
  have hbp₁ := hothers₁ .bp (by decide) (by decide)
  have hframe : ∀ i, x₁.frameDword i = c.frameDword i :=
    frameDword_congr hbp₁ hframe₁.1 hframe₁.2
  apply (movwOut_runs ((hframe 16).trans hgiven.cylinders) hreached.cylinders t (by decide)).mono
  rintro - c₂ t ⟨rfl, h₂⟩
  apply Runs.upd
  apply Runs.upd
  rw [← bind_assoc]
  apply Runs.bind
  generalize hx₂ : Cpu.setFlags _ _ _ = x₂
  obtain ⟨hsectors, hch, hothers₂, hframe₂, hmem₂⟩ :
      (x₂.regs .cx).word = (paramsOf c.regs).sectors ∧ (x₂.regs .cx).h = 0 ∧
      (∀ r, r ≠ .si → r ≠ .cx → x₂.regs r = x₁.regs r) ∧ (x₂.sp = c.sp ∧ x₂.stack = c.stack) ∧
      x₂.mem = c₂.mem := by
    subst hx₂
    refine ⟨?_, ?_, fun r hsi hcx => ?_, ⟨h₂.sp.trans hframe₁.1, h₂.stack.trans hframe₁.2⟩, rfl⟩
    · have hcx : c₂.regs .cx = c.regs .cx :=
        (h₂.regs .cx (by decide)).trans (hothers₁ .cx (by decide) (by decide))
      simp [paramsOf, Stage2.diskGetDriveParams16, hcx, Bytes.word, Reg16.word]
    · simp
    · simp [h₂.regs r hsi, hcx]
  have hframe : ∀ i, x₂.frameDword i = c.frameDword i :=
    frameDword_congr ((hothers₂ .bp (by decide) (by decide)).trans hbp₁) hframe₂.1 hframe₂.2
  apply (movwOut_runs ((hframe 24).trans hgiven.sectors) hreached.sectors t (by decide)).mono
  rintro - c₃ t ⟨rfl, h₃⟩
  apply Runs.upd
  apply Runs.upd
  generalize hx₃ : Cpu.setFlags _ _ _ = x₃
  obtain ⟨hheads, hothers₃, hframe₃, hmem₃⟩ :
      (x₃.regs .cx).word = (paramsOf c.regs).heads ∧
      (∀ r, r ≠ .si → r ≠ .cx → x₃.regs r = x₁.regs r) ∧ (x₃.sp = c.sp ∧ x₃.stack = c.stack) ∧
      x₃.mem = c₃.mem := by
    subst hx₃
    refine ⟨?_, fun r hsi hcx => ?_, ⟨h₃.sp.trans hframe₂.1, h₃.stack.trans hframe₂.2⟩, rfl⟩
    · have hcx : (c₃.regs .cx).h = 0 := (congrArg Bytes.h (h₃.regs .cx (by decide))).trans hch
      have hdx : c₃.regs .dx = c.regs .dx := (h₃.regs .dx (by decide)).trans
        ((hothers₂ .dx (by decide) (by decide)).trans (hothers₁ .dx (by decide) (by decide)))
      simp [paramsOf, Stage2.diskGetDriveParams16, Reg16.inc, Reg16.word_ofWord, hcx, hdx]
      rfl
    · simp [h₃.regs r hsi, hothers₂ r hsi hcx, hcx]
  have hframe : ∀ i, x₃.frameDword i = c.frameDword i :=
    frameDword_congr ((hothers₃ .bp (by decide) (by decide)).trans hbp₁) hframe₃.1 hframe₃.2
  apply (movwOut_runs ((hframe 20).trans hgiven.heads) hreached.heads t (by decide)).mono
  rintro - c₄ t ⟨rfl, h₄⟩
  have hregs : ∀ r, r ≠ .si → r ≠ .cx → c₄.regs r = x₁.regs r :=
    fun r hsi hcx => (h₄.regs r hsi).trans (hothers₃ r hsi hcx)
  have hbx := hregs .bx (by decide) (by decide)
  refine ⟨rfl, ?_, ?_, ?_, ?_, h₄.sp.trans hframe₃.1, h₄.stack.trans hframe₃.2, ?_⟩
  · exact congrArg Bytes.word
      ((hregs .ax (by decide) (by decide)).trans (hothers₁ .ax (by decide) (by decide)))
  · exact (hregs .bp (by decide) (by decide)).trans hbp₁
  · exact (hregs .di (by decide) (by decide)).trans (hothers₁ .di (by decide) (by decide))
  · rw [hbx]
    exact hupper
  · rw [h₄.mem, hheads, hmem₃, h₃.mem, hsectors, hmem₂, h₂.mem, hcylinders, hmem₁,
      DriveParams.storeAt]

/-- Behind `int 13h`: a status, and the parameters if there was no carry. -/
theorem driveResult_runs {outs : DriveOuts} {x : Cpu} {a : Answer}
    (hbp : a.regs .bp = x.regs .bp) (hgiven : Given outs x) (hreached : Reached outs) (s : σ) :
    Runs driveResult (x.answered a) s fun _ c' t => t = s ∧
      Resulted (if a.cf then 1 else 0)
        (if a.cf then a.mem else (paramsOf a.regs).storeAt outs a.mem) (x.answered a) c' := by
  rw [driveResult]
  apply Runs.flag
  show Runs (if a.cf = true then _ else _) _ _ _
  by_cases hcf : a.cf = true
  · rw [if_pos hcf, if_pos hcf, if_pos hcf]
    apply Runs.last
    exact ⟨rfl, by simp, rfl, rfl, ⟨rfl, rfl⟩, rfl, rfl, rfl⟩
  · rw [if_neg hcf, if_neg hcf, if_neg hcf]
    apply Runs.upd
    generalize hy : Cpu.setFlags _ _ _ = y
    have hregs : ∀ r, r ≠ .ax → y.regs r = a.regs r := by
      intro r hr
      subst hy
      simp [hr]
    have hframe : ∀ i, y.frameDword i = x.frameDword i :=
      frameDword_congr ((hregs .bp (by decide)).trans hbp) (hy ▸ rfl) (hy ▸ rfl)
    have hgiven' : Given outs y :=
      ⟨(hframe 12).trans hgiven.driveType, (hframe 16).trans hgiven.cylinders,
        (hframe 20).trans hgiven.heads, (hframe 24).trans hgiven.sectors⟩
    have hparams : paramsOf y.regs = paramsOf a.regs := by
      rw [paramsOf, hregs .bx (by decide), hregs .cx (by decide), hregs .dx (by decide), paramsOf]
    apply (setParams_runs hgiven' hreached s).mono
    rintro - c' t ⟨rfl, h⟩
    have hbx := hregs .bx (by decide)
    refine ⟨rfl, h.status.trans ?_, h.bp.trans (hregs .bp (by decide)),
      h.di.trans (hregs .di (by decide)), ?_, h.sp.trans (hy ▸ rfl), h.stack.trans (hy ▸ rfl), ?_⟩
    · subst hy
      simp
    · rw [h.bx.1, h.bx.2, hbx]
      exact ⟨rfl, rfl⟩
    · rw [h.mem, hparams, ← hy]
      rfl

/-- The arguments of `diskGetDriveParams16`. -/
def driveArgs (drive : UInt8) (outs : DriveOuts) : List Bytes :=
  [int8Arg drive, .ofDword outs.driveType, .ofDword outs.cylinders, .ofDword outs.heads,
    .ofDword outs.sectors]

/-- Back in C code: the registers that it relies on are its own, the upper
halves of `ebx` and `edi` if the BIOS leaves them alone. -/
structure Back (a : Answer) (c c' : Cpu) : Prop where
  sp : c'.sp = c.sp
  stack : c'.stack = c.stack
  bp : c'.regs .bp = c.regs .bp
  si : c'.regs .si = c.regs .si
  bx : c'.regs .bx = .join (a.regs .bx) (c.regs .bx)
  di : c'.regs .di = .join (a.regs .di) (c.regs .di)
  es : c'.es = c.es
  segments : c'.cs = 0x08 ∧ c'.ds = 0x10 ∧ c'.ss = 0x10
  interrupts : c'.interrupts = false

/-- **`diskGetDriveParams16`** asks the BIOS for the drive, in real mode and
with the registers that some BIOSes need, and comes back to C code with the
carry as its result and, if that is clear, the parameters stored. -/
theorem diskGetDriveParams16_runs (int13 : Handler σ) (ret : Bytes) (c : Cpu) (s : σ)
    (drive : UInt8) {outs : DriveOuts} (hreached : Reached outs)
    (hbp : ∀ x s, (int13 x s).1.regs .bp = x.regs .bp) {Q : Unit → Cpu → σ → Prop}
    (h : ∀ x a t c', x.byte .ah = 0x08 → x.byte .dl = drive → x.cf = true →
      x.es = 0 → (x.regs .di).word = 0 → x.mem = c.mem → int13 x s = (a, t) →
      (c'.regs .ax).word = (if a.cf then 1 else 0) →
      c'.mem = (if a.cf then a.mem else (paramsOf a.regs).storeAt outs a.mem) →
      Back a (pushArgs c (driveArgs drive outs)) c' → Q () c' t) :
    Runs (calll ret (diskGetDriveParams16 int13)) (pushArgs c (driveArgs drive outs)) s Q := by
  apply Runs.calll
  rw [diskGetDriveParams16, enterProtectedMode_eq, restoreCallFrame]
  simp only [bind_assoc]
  generalize hd : pushArgs c (driveArgs drive outs) = d at h ⊢
  apply Runs.bind
  apply (driveRequest_runs (d.pushDword ret) s).mono
  rintro - x t ⟨rfl, hasks⟩
  apply Runs.int
  intro a t' hanswer
  have hbpa : a.regs .bp = x.regs .bp := by
    rw [← hbp x t, hanswer]
  obtain ⟨hdl, hmem, hgiven⟩ : x.byte .dl = drive ∧ x.mem = c.mem ∧ Given outs x := by
    subst hd
    exact ⟨hasks.dl, hasks.mem, hasks.frameDword 8, hasks.frameDword 12, hasks.frameDword 16,
      hasks.frameDword 20⟩
  apply Runs.bind
  apply (driveResult_runs hbpa hgiven hreached t').mono
  rintro - y t' ⟨rfl, hresult⟩
  refine Runs.popw (hresult.stack.trans hasks.stack) ?_
  refine Runs.popl rfl ?_
  refine Runs.popw rfl ?_
  refine Runs.popSeg rfl ?_
  apply Runs.upd
  generalize hz : protectedMode _ = z
  have hbpz : z.regs .bp = y.regs .bp := hz ▸ rfl
  have hspz : z.sp = y.sp + 2 + 4 + 2 + 2 := hz ▸ rfl
  have hstackz : z.stack = (d.regs .bp).l :: (d.regs .bp).h :: (d.regs .bp).b2 ::
      (d.regs .bp).b3 :: ret.l :: ret.h :: ret.b2 :: ret.b3 :: d.stack := hz ▸ rfl
  have haxz : (z.regs .ax).word = (y.regs .ax).word := hz ▸ rfl
  have hmemz : z.mem = y.mem := hz ▸ rfl
  have hsiz : z.regs .si = d.regs .si := hz ▸ rfl
  have hbxz : z.regs .bx = .join (y.regs .bx) (d.regs .bx) := hz ▸ rfl
  have hdiz : z.regs .di = .join (y.regs .di) (d.regs .di) := hz ▸ rfl
  have hesz : z.es = d.es := by
    rw [← hz]
    exact Bytes.word_setWord ⟨0, 0, 0, 0⟩ d.es
  have hsegments : z.cs = 0x08 ∧ z.ds = 0x10 ∧ z.ss = 0x10 := hz ▸ ⟨rfl, rfl, rfl⟩
  have hinterrupts : z.interrupts = false := hz ▸ rfl
  -- the frame is on top again
  have hbp : (z.regs .bp).word = d.sp - 4 - 4 := by
    have hbpy : y.regs .bp = .ofDword (d.sp - 4 - 4).toUInt32 :=
      hresult.bp.trans (hbpa.trans hasks.bp)
    rw [hbpz, hbpy, Bytes.word_ofDword, UInt16.toUInt16_toUInt32]
  have htop : (z.regs .bp).word - z.sp = 0 := by
    have hspy : y.sp = d.sp - 4 - 4 - 2 - 2 - 4 - 2 := hresult.sp.trans hasks.sp
    rw [hbp, hspz, hspy]
    grind
  apply Runs.upd
  refine Runs.popl (by rw [htop]; exact hstackz) ?_
  refine Runs.retl rfl ?_
  refine ⟨rfl, h x a t' _ hasks.ah hdl hasks.cf hasks.es hasks.di hmem hanswer
    (haxz.trans hresult.status) (hmemz.trans hresult.mem) ?_⟩
  refine ⟨?_, rfl, rfl, hsiz, ?_, ?_, hesz, hsegments, hinterrupts⟩
  · show (z.regs .bp).word + 4 + 4 = d.sp
    rw [hbp]
    grind
  · show z.regs .bx = _
    rw [hbxz, Bytes.join, hresult.bx.1, hresult.bx.2]
    rfl
  · show z.regs .di = _
    rw [hdiz, hresult.di]
    rfl

end X86

/-! ## `DISK_Init` -/

/-- Where `DISK_Init` calls from: the processor there, whatever state the world
is in, what stands behind the call, and where the four locals are. -/
structure ParamsFrame (σ : Type) where
  cpu : σ → Cpu
  behind : Bytes
  outs : DriveOuts

def DriveParams.loadAt (outs : DriveOuts) (mem : Nat → UInt8) : DriveParams :=
  ⟨UInt8.ofNat (CLayout.load mem outs.driveType.toNat 1),
    UInt16.ofNat (CLayout.load mem outs.cylinders.toNat 2),
    UInt16.ofNat (CLayout.load mem outs.heads.toNat 2),
    UInt16.ofNat (CLayout.load mem outs.sectors.toNat 2)⟩

/-- The status and the locals behind the call. It always returns
(`stubDriveParams_eq`). -/
def stubDriveParams (int13 : Handler σ) (frame : ParamsFrame σ) (drive : UInt8) (s : σ) :
    (UInt16 × DriveParams) × σ :=
  match calll frame.behind (X86.diskGetDriveParams16 int13)
      (X86.pushArgs (frame.cpu s) (X86.driveArgs drive frame.outs), s) with
  | .ok (_, c, t) => (((c.regs .ax).word, .loadAt frame.outs c.mem), t)
  | .error (_, _, t) => ((1, ⟨0, 0, 0, 0⟩), t)

def diskInit (int13 : Handler σ) (frame : ParamsFrame σ) (disk : Disk) (driveNumber : UInt8)
    (s : σ) : (UInt16 × Disk) × σ :=
  let ((result, params), s) := stubDriveParams int13 frame driveNumber s
  if result ≠ 0 then ((result, disk), s)
  else ((0, ⟨driveNumber, params.cylinders, params.heads, params.sectors⟩), s)

/-- The locals lie apart, where real mode reaches them. -/
structure ParamsFrame.Placed (frame : ParamsFrame σ) : Prop where
  reached : X86.Reached frame.outs
  apart : [(frame.outs.driveType.toNat, 1), (frame.outs.cylinders.toNat, 2),
    (frame.outs.heads.toNat, 2), (frame.outs.sectors.toNat, 2)].Pairwise
      fun x y => x.1 + x.2 ≤ y.1 ∨ y.1 + y.2 ≤ x.1

/-- The parameters are loaded back. -/
theorem ParamsFrame.Placed.loadAt_storeAt {frame : ParamsFrame σ} (h : frame.Placed)
    (params : DriveParams) (mem : Nat → UInt8) :
    DriveParams.loadAt frame.outs (params.storeAt frame.outs mem) = params := by
  have hapart := h.apart
  simp only [List.pairwise_cons, List.mem_cons, List.not_mem_nil, or_false, forall_eq_or_imp,
    forall_eq, List.Pairwise.nil, and_true, false_imp_iff, implies_true] at hapart
  obtain ⟨⟨htc, hth, hts⟩, ⟨hch, hcs⟩, hhs⟩ := hapart
  have htype := params.driveType.toNat_lt
  have hcylinders := params.cylinders.toNat_lt
  have hheads := params.heads.toNat_lt
  have hsectors := params.sectors.toNat_lt
  rw [DriveParams.loadAt, DriveParams.storeAt]
  simp (disch := omega) only [CLayout.load_store, CLayout.load_store_of_disjoint]
  simp

/-- `diskGetDriveParams16` from C: the status is the carry, and the locals have
what the registers say. -/
theorem stubDriveParams_eq {int13 : Handler σ}
    (hbp : ∀ x s, (int13 x s).1.regs .bp = x.regs .bp) {frame : ParamsFrame σ}
    (hframe : frame.Placed) (drive : UInt8) (s : σ) :
    ∃ x, (x.byte .ah = 0x08 ∧ x.byte .dl = drive) ∧
      let r := stubDriveParams int13 frame drive s
      r.2 = (int13 x s).2 ∧ r.1.1 = (if (int13 x s).1.cf then 1 else 0) ∧
        ((int13 x s).1.cf = false → r.1.2 = X86.paramsOf (int13 x s).1.regs) := by
  have hruns : Runs (calll frame.behind (X86.diskGetDriveParams16 int13))
      (X86.pushArgs (frame.cpu s) (X86.driveArgs drive frame.outs)) s fun _ c' t =>
      ∃ x, (x.byte .ah = 0x08 ∧ x.byte .dl = drive) ∧ t = (int13 x s).2 ∧
        (c'.regs .ax).word = (if (int13 x s).1.cf then 1 else 0) ∧
        ((int13 x s).1.cf = false → DriveParams.loadAt frame.outs c'.mem
          = X86.paramsOf (int13 x s).1.regs) := by
    apply X86.diskGetDriveParams16_runs int13 frame.behind (frame.cpu s) s drive hframe.reached hbp
    intro x a t c' hah hdl _ _ _ _ hanswer hax hmem _
    refine ⟨x, ⟨hah, hdl⟩, ?_⟩
    rw [hanswer]
    refine ⟨rfl, hax, fun hcf => ?_⟩
    have hcf : a.cf = false := hcf
    rw [hmem, hcf, if_neg Bool.false_ne_true, hframe.loadAt_storeAt]
  obtain ⟨⟨⟩, c', t, hrun, x, hasked, rfl, hax, hparams⟩ := hruns
  have hstub : stubDriveParams int13 frame drive s
      = (((c'.regs .ax).word, .loadAt frame.outs c'.mem), (int13 x s).2) := by
    rw [stubDriveParams, hrun]
  refine ⟨x, hasked, ?_⟩
  rw [hstub]
  exact ⟨rfl, hax, hparams⟩

/-! ## A drive behind the BIOS -/

/-- A BIOS with a drive of so many cylinders, heads and sectors in a track:
function 8 tells them, and a read inside of them that succeeds has loaded what
is there. -/
structure Drive (int13 : Handler σ) (drive : UInt8) (cylinders heads sectors : Nat)
    (img : Fat12.Image) : Prop extends Conventional int13 where
  params : ∀ c s, c.byte .ah = 0x08 → c.byte .dl = drive → (int13 c s).1.cf = false →
    let r := (int13 c s).1.regs
    (r .cx).h.toNat + 256 * ((r .cx).l >>> 6).toNat + 1 = cylinders ∧
      (r .dx).h.toNat + 1 = heads ∧ ((r .cx).l &&& 0x3F).toNat = sectors
  read : ∀ c s n, let r := Stage1.request c
    r.ax.h = 0x02 → r.ax.l.toNat = n → r.dx.l = drive → r.cylinder < cylinders → r.head < heads →
    1 ≤ r.sector → r.sector ≤ sectors → (int13 c s).1.cf = false →
    Block.ofMem (512 * n) (fun i => (int13 c s).1.mem (r.address + i))
      = imageSectors img ((r.cylinder * heads + r.head) * sectors + r.sector - 1) n

/-- The geometry in numbers. -/
theorem Drive.paramsOf {int13 : Handler σ} {drive : UInt8} {cylinders heads sectors : Nat}
    {img : Fat12.Image} (h : Drive int13 drive cylinders heads sectors img) {x : Cpu} {s : σ}
    (hah : x.byte .ah = 0x08) (hdl : x.byte .dl = drive) (hcf : (int13 x s).1.cf = false) :
    let params := X86.paramsOf (int13 x s).1.regs
    params.cylinders.toNat = cylinders ∧ params.heads.toNat = heads ∧
      params.sectors.toNat = sectors := by
  obtain ⟨hcylinders, hheads, hsectors⟩ := h.params x s hah hdl hcf
  obtain ⟨hC, hH, hS⟩ := diskGetDriveParams16_spec ((int13 x s).1.regs .bx).l
    ⟨((int13 x s).1.regs .cx).h, ((int13 x s).1.regs .cx).l⟩
    ⟨((int13 x s).1.regs .dx).h, ((int13 x s).1.regs .dx).l⟩
  rw [toNat_shiftRight_6] at hcylinders
  rw [toNat_and_3f] at hsectors
  exact ⟨hC.trans hcylinders, hH.trans hheads, hS.trans hsectors⟩

/-- The registers have no room for more. -/
theorem Drive.bounds {int13 : Handler σ} {drive : UInt8} {cylinders heads sectors : Nat}
    {img : Fat12.Image} (h : Drive int13 drive cylinders heads sectors img) {x : Cpu} {s : σ}
    (hah : x.byte .ah = 0x08) (hdl : x.byte .dl = drive) (hcf : (int13 x s).1.cf = false) :
    cylinders ≤ 1024 ∧ heads ≤ 256 ∧ sectors < 64 := by
  obtain ⟨hcylinders, hheads, hsectors⟩ := h.params x s hah hdl hcf
  have hch := ((int13 x s).1.regs .cx).h.toNat_lt
  have hcl := ((int13 x s).1.regs .cx).l.toNat_lt
  have hdh := ((int13 x s).1.regs .dx).h.toNat_lt
  rw [toNat_shiftRight_6] at hcylinders
  rw [toNat_and_3f] at hsectors
  omega

/-- `DISK_Init` fails with the BIOS, and leaves the disk alone then; else the disk
has the geometry of the drive. -/
theorem diskInit_spec {int13 : Handler σ} {drive : UInt8} {cylinders heads sectors : Nat}
    {img : Fat12.Image} (hdrive : Drive int13 drive cylinders heads sectors img)
    {frame : ParamsFrame σ} (hframe : frame.Placed) (disk : Disk) (s : σ) :
    ∃ x, (x.byte .ah = 0x08 ∧ x.byte .dl = drive) ∧
      let r := diskInit int13 frame disk drive s
      r.2 = (int13 x s).2 ∧ ((int13 x s).1.cf = true → r.1 = (1, disk)) ∧
        ((int13 x s).1.cf = false → r.1.1 = 0 ∧ r.1.2.id = drive ∧
          r.1.2.cylinders.toNat = cylinders ∧ r.1.2.heads.toNat = heads ∧
          r.1.2.sectors.toNat = sectors) := by
  obtain ⟨x, hasked, hworld, hstatus, hparams⟩ := stubDriveParams_eq hdrive.bp hframe drive s
  refine ⟨x, hasked, ?_⟩
  have hgeometry := hdrive.paramsOf hasked.1 hasked.2 (s := s)
  rw [diskInit]
  rcases hr : stubDriveParams int13 frame drive s with ⟨⟨result, params⟩, t⟩
  rw [hr] at hworld hstatus hparams
  dsimp only at hworld hstatus hparams ⊢
  subst hworld
  cases hcf : (int13 x s).1.cf with
  | true =>
    rw [hcf, if_pos rfl] at hstatus
    subst hstatus
    rw [if_pos (by decide)]
    exact ⟨rfl, fun _ => rfl, fun h => nomatch h⟩
  | false =>
    rw [hcf, if_neg Bool.false_ne_true] at hstatus
    subst hstatus
    rw [if_neg (by decide)]
    refine ⟨rfl, (fun h => nomatch h), fun _ => ⟨rfl, rfl, ?_⟩⟩
    rw [hparams hcf]
    exact hgeometry hcf

/-- A read through `diskRead16` that returns zero has delivered the sectors. -/
theorem stubBios_delivers {int13 : Handler σ} {disk : Disk} {img : Fat12.Image}
    (hdrive : Drive int13 disk.id disk.cylinders.toNat disk.heads.toNat disk.sectors.toNat img)
    (caller : Caller σ) {lba dataOut : UInt32} {count : UInt8} (hlba : lba.toNat < disk.capacity)
    (hC : disk.cylinders.toNat ≤ 1024) (hH : disk.heads.toNat ≤ 256) (hS : disk.sectors.toNat < 64)
    (hdata : dataOut.toNat < 2 ^ 20) (buffer : Sectors count.toNat)
    (w : σ × List (Retry.Event Int13 Int13)) :
    let r := (stubBios int13 caller dataOut).read disk.id (diskLba2Chs disk lba) count.toNat
      buffer w
    r.1.1 = 0 → r.1.2 = imageSectors img lba.toNat count.toNat := by
  obtain ⟨hcylinder, hhead, hfirst, hlast, hplace⟩ := diskLba2Chs_spec hlba
  obtain ⟨hc, hh, hs, ha⟩ := diskRead16_lba2Chs disk.id count hC hH hS hlba hdata
  have hruns : Runs (calll caller.behindRead (X86.diskRead16 (Stage1.logging int13)))
      (X86.pushArgs (caller.cpu w.1)
        (X86.readArgs disk.id (diskLba2Chs disk lba) count dataOut)) w fun _ c' t =>
      (c'.regs .ax).word = 0 → Block.ofMem (512 * count.toNat)
        (fun i => c'.mem (dataOut.toNat + i)) = imageSectors img lba.toNat count.toNat := by
    apply X86.diskRead16_runs
    · intro x v
      exact hdrive.bp x v.1
    · intro x a t c' hrequest hanswer hax hmem hzero
      have ha' : (int13 x w.1).1 = a := congrArg Prod.fst hanswer
      have hah : x.byte .ah = 0x02 := congrArg (fun r => r.ax.h) hrequest
      have hstatus : (a.regs .ax).h = 0 := by
        rw [hax] at hzero
        rw [← UInt8.toNat_inj, ← UInt8.toNat_toUInt16, hzero]
        rfl
      have hcf : (int13 x w.1).1.cf = false := by
        rw [← hdrive.status x w.1 hah, ha']
        exact hstatus
      have hread := hdrive.read x w.1 count.toNat
      have heq := diskRead16_eq disk.id (diskLba2Chs disk lba) count dataOut
      have hal : (diskRead16 disk.id (diskLba2Chs disk lba) count dataOut).ax.l = count := by
        rw [heq]
      have hdl : (diskRead16 disk.id (diskLba2Chs disk lba) count dataOut).dx.l = disk.id := by
        rw [heq]
      dsimp only at hread
      rw [hrequest, hc, hh, hs, ha, hplace, hal, hdl] at hread
      have hloaded := hread rfl rfl rfl hcylinder hhead hfirst hlast hcf
      rw [ha'] at hloaded
      rw [hmem]
      exact hloaded
  obtain ⟨⟨⟩, c', t, hrun, hdelivers⟩ := hruns
  simp only [stubBios, UInt8.ofNat_toNat, hrun]
  exact hdelivers

/-- **`DISK_ReadSectors` delivers what the drive has**, on the disk that
`DISK_Init` has left: through the stubs, for every sector of the drive and
however often the BIOS fails on the way, a result of zero means that the sectors
are there. If function 8 fails, `DISK_Init` says so. -/
theorem disk_delivers {int13 : Handler σ} {drive : UInt8} {cylinders heads sectors : Nat}
    {img : Fat12.Image} (hdrive : Drive int13 drive cylinders heads sectors img)
    {frame : ParamsFrame σ} (hframe : frame.Placed) (caller : Caller σ) (disk : Disk) (s : σ) :
    ∃ x, (x.byte .ah = 0x08 ∧ x.byte .dl = drive) ∧
      let r := diskInit int13 frame disk drive s
      r.2 = (int13 x s).2 ∧ ((int13 x s).1.cf = true → r.1 = (1, disk)) ∧
        ((int13 x s).1.cf = false → r.1.1 = 0 ∧
          ∀ (lba dataOut : UInt32) (count : UInt8) (buffer : Sectors count.toNat)
            (w : σ × List (Retry.Event Int13 Int13)),
            lba.toNat < cylinders * heads * sectors → dataOut.toNat < 2 ^ 20 →
            let q := diskReadSectors (stubBios int13 caller dataOut) r.1.2 lba count.toNat buffer w
            q.1.1 = 0 → q.1.2 = imageSectors img lba.toNat count.toNat) := by
  obtain ⟨x, hasked, hworld, hfailed, hdone⟩ := diskInit_spec hdrive hframe disk s
  refine ⟨x, hasked, hworld, hfailed, fun hcf => ?_⟩
  obtain ⟨hzero, hid, hC, hH, hS⟩ := hdone hcf
  refine ⟨hzero, fun lba dataOut count buffer w hlba hdata hok => ?_⟩
  generalize (diskInit int13 frame disk drive s).1.2 = disk' at hid hC hH hS hok ⊢
  obtain ⟨hboundC, hboundH, hboundS⟩ := hdrive.bounds hasked.1 hasked.2 hcf
  have hcapacity : lba.toNat < disk'.capacity := by
    rw [Disk.capacity, hC, hH, hS]
    exact hlba
  rw [← hid, ← hC, ← hH, ← hS] at hdrive
  exact readAttempts_delivers (fun buffer w => stubBios_delivers hdrive caller hcapacity
    (hC ▸ hboundC) (hH ▸ hboundH) (hS ▸ hboundS) hdata buffer w) 3 0 buffer w (by simp) hok

/-! ## A floppy disk -/

/-- A BIOS with one drive of 80 cylinders, 2 heads and 18 sectors in a track. -/
def sampleFloppy (img : Fat12.Image) : Handler Unit := fun c s =>
  let r := Stage1.request c
  (⟨Function.update (Function.update (Function.update c.regs .ax ⟨0, 0, 0, 0⟩) .cx
      ⟨0, 0, 79, 18⟩) .dx ⟨0, 0, 1, 2⟩, false, false, fun a =>
    if r.address ≤ a ∧ a < r.address + 512 * r.ax.l.toNat then
      (imageSectors img ((r.cylinder * 2 + r.head) * 18 + r.sector - 1) r.ax.l.toNat).bytes.getD
        (a - r.address) 0
    else c.mem a⟩, s)

theorem sampleFloppy_drive (img : Fat12.Image) : Drive (sampleFloppy img) 0 80 2 18 img where
  bp _ _ := rfl
  status _ _ _ := ⟨fun _ => rfl, fun _ => rfl⟩
  params _ _ _ _ _ := by
    show (79 : UInt8).toNat + 256 * ((18 : UInt8) >>> 6).toNat + 1 = 80 ∧
      (1 : UInt8).toNat + 1 = 2 ∧ ((18 : UInt8) &&& 0x3F).toNat = 18
    decide
  read c s n := by
    rintro r - rfl - - - - - -
    refine Subtype.ext (List.ext_getElem ?_ fun i hi hi' => ?_)
    · rw [(imageSectors _ _ _).property]
      exact (Block.ofMem _ _).property
    · have hlt : i < 512 * r.ax.l.toNat := by
        rw [(Block.ofMem _ _).property] at hi
        exact hi
      have hin : r.address ≤ r.address + i ∧
          r.address + i < r.address + 512 * r.ax.l.toNat := by omega
      have hbyte : (Block.ofMem (512 * r.ax.l.toNat) fun i =>
          (sampleFloppy img c s).1.mem (r.address + i)).val[i]
          = (sampleFloppy img c s).1.mem (r.address + i) := by
        simp [Block.ofMem]
      rw [hbyte]
      show (if _ then _ else _) = _
      rw [if_pos hin, Nat.add_sub_cancel_left]
      exact List.getD_eq_getElem _ _ hi'

/-- Calls from the first 64 KiB, with the locals at 0x7B00. -/
def sampleParamsFrame : ParamsFrame Unit :=
  ⟨fun _ => Stage1.sampleCpu fun _ => ⟨0, 0, 0, 0⟩, ⟨0, 0, 0x90, 0x40⟩,
    ⟨0x7B00, 0x7B02, 0x7B04, 0x7B06⟩⟩

theorem sampleParamsFrame_placed : sampleParamsFrame.Placed where
  reached := ⟨by decide, by decide, by decide, by decide⟩
  apart := by decide

def sampleFloppyCaller : Caller Unit :=
  ⟨fun _ => Stage1.sampleCpu fun _ => ⟨0, 0, 0, 0⟩, ⟨0, 0, 0x90, 0x10⟩, ⟨0, 0, 0x8F, 0x40⟩,
    ⟨0, 0, 0x80, 0x30⟩⟩

/-- The last sector of the disk. -/
theorem disk_delivers_sample :
    let disk := (diskInit (sampleFloppy sampleImage) sampleParamsFrame ⟨0, 0, 0, 0⟩ 0 ()).1.2
    let q := diskReadSectors (stubBios (sampleFloppy sampleImage) sampleFloppyCaller 0x30000) disk
      2879 (1 : UInt8).toNat (Block.pad 512 []) ((), [])
    q.1.1 = 0 → q.1.2 = imageSectors sampleImage (2879 : UInt32).toNat (1 : UInt8).toNat := by
  obtain ⟨x, -, -, -, hdone⟩ := disk_delivers (sampleFloppy_drive sampleImage)
    sampleParamsFrame_placed sampleFloppyCaller ⟨0, 0, 0, 0⟩ ()
  exact (hdone rfl).2 2879 0x30000 1 (Block.pad 512 []) ((), []) (by decide) (by decide)

end Netclover.Stage2
