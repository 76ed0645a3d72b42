import Netclover.Lib.I386
import Netclover.Lib.Retry
import Netclover.Stage2.Geometry

/-!
# The disk routines of the first stage (`boot.asm`)

`boot_lba_to_chs`, `boot_disk_read` and `boot_disk_reset`, instruction by
instruction. The first addresses a sector as `diskRead16` of the second stage
does (`bootLbaToChs_eq`). The second makes up to three attempts and gives every
register but `ax` back, whatever the BIOS does to them
(`bootDiskRead_retries`).
-/

namespace Netclover.Stage1

open I386 Asm Stage2

variable {σ : Type}

/-! ## The routines -/

/-- `boot_lba_to_chs`, with the geometry of the boot sector. -/
def bootLbaToChs (sectorsPerTrack heads : UInt16) : Asm σ Unit := do
  pushw .ax
  pushw .dx
  xorw .dx .dx
  divw sectorsPerTrack
  incw .dx
  movw .cx .dx
  xorw .dx .dx
  divw heads
  movb .dh .dl
  movb .ch .al
  shlb .ah 6
  orb .cl .ah
  popw .ax
  movb .dl .al
  popw .ax
  retw

/-- `boot_disk_reset`. -/
def bootDiskReset (int13 : Handler σ) : Asm σ Unit := do
  pusha
  xorb .ah .ah
  stc
  int int13
  if ← jc then
    -- .failure
    popa
    movwImm .ax 1
    retw
  else
    popa
    xorw .ax .ax
    retw

/-- The ways out of the loop of `boot_disk_read`. -/
inductive ReadExit where
  | resetFailed
  | failure
  | done

/-- A pass from `.retry` on, and whether `jnz` goes back there; `next` is
behind the call of `boot_disk_reset`. -/
def bootDiskReadPass (int13 : Handler σ) (next : Bytes) (_ : ReadExit) :
    Asm σ (ReadExit × Bool) := do
  pusha
  stc
  int int13
  popa
  if ← jc then
    pushw .ax
    callw next (bootDiskReset int13)
    cmpwImm .ax 0
    if ← je then
      -- .disk_resetted
      popw .ax
      decw .di
      testw .di .di
      return (.failure, !(← je))
    else
      popw .ax
      return (.resetFailed, false)
  else
    return (.done, false)

/-- `boot_disk_read`, with a loop of at most `fuel` passes. -/
def bootDiskRead (int13 : Handler σ) (next : Bytes) (fuel : Nat) : Asm σ Unit := do
  pusha
  movbImm .ah 0x02
  movwImm .di 3
  match ← Proc.iterate .unfinished (bootDiskReadPass int13 next) fuel .failure with
  | .resetFailed =>
    popa
    movwImm .ax 2
    retw
  | .failure =>
    popa
    movwImm .ax 1
    retw
  | .done =>
    popa
    xorw .ax .ax
    retw

/-! ## The address of a sector -/

/-- What `boot_lba_to_chs` leaves behind, in words. -/
theorem bootLbaToChs_leaves (c : Cpu) (s : σ) (next : Bytes) {sectorsPerTrack heads : UInt16}
    (hsectors : 0 < sectorsPerTrack) (hheads : 0 < heads) :
    let lba := (c.regs .ax).word
    ∃ c', callw next (bootLbaToChs sectorsPerTrack heads) (c, s) = .ok ((), c', s) ∧
      c'.byte .ch = (lba / sectorsPerTrack / heads).toUInt8 ∧
      c'.byte .cl = (lba % sectorsPerTrack + 1).toUInt8 |||
        ((lba / sectorsPerTrack / heads) >>> 8).toUInt8 <<< 6 ∧
      c'.byte .dh = (lba / sectorsPerTrack % heads).toUInt8 ∧
      c'.regs .ax = c.regs .ax ∧ c'.byte .dl = c.byte .dl ∧ c'.sp = c.sp ∧ c'.stack = c.stack := by
  simp [callw, bootLbaToChs, divw_bind _ hsectors, divw_bind _ hheads]

/-- `DISK_LBA2CHS` of a 16-bit LBA, in 16 bits. -/
theorem diskLba2Chs_word (disk : Disk) (lba : UInt16) : diskLba2Chs disk lba.toUInt32
    = ⟨lba / disk.sectors / disk.heads, lba / disk.sectors % disk.heads,
      lba % disk.sectors + 1⟩ := by
  rw [diskLba2Chs, ← UInt16.toUInt32_div, ← UInt16.toUInt32_div, ← UInt16.toUInt32_mod,
    ← UInt16.toUInt32_mod, UInt32.toUInt16_add]
  simp only [UInt16.toUInt16_toUInt32]
  rfl

/-- A sector number is kept by the mask. -/
theorem and_3f_of_lt {b : UInt8} (h : b.toNat < 64) : b &&& 0x3F = b := by
  rw [← UInt8.toNat_inj, toNat_and_3f, Nat.mod_eq_of_lt h]

/-- **The two stages address sectors alike**: for every 16-bit LBA and every
geometry, `boot_lba_to_chs` leaves in `ch`, `cl` and `dh` what `diskRead16`
calls the BIOS with, also where the cylinder is too large for its ten bits. -/
theorem bootLbaToChs_eq (c : Cpu) (s : σ) (next : Bytes) (disk : Disk)
    (hsectors : 1 ≤ disk.sectors.toNat ∧ disk.sectors.toNat ≤ 63)
    (hheads : 1 ≤ disk.heads.toNat ∧ disk.heads.toNat ≤ 256) (count : UInt8) (dataOut : UInt32) :
    ∃ c', callw next (bootLbaToChs disk.sectors disk.heads) (c, s) = .ok ((), c', s) ∧
      let r := diskRead16 disk.id (diskLba2Chs disk (c.regs .ax).word.toUInt32) count dataOut
      c'.byte .ch = r.cx.h ∧ c'.byte .cl = r.cx.l ∧ c'.byte .dh = r.dx.h ∧
      c'.regs .ax = c.regs .ax ∧ c'.byte .dl = c.byte .dl ∧ c'.sp = c.sp ∧ c'.stack = c.stack := by
  obtain ⟨c', hrun, hch, hcl, hdh, hkept⟩ := bootLbaToChs_leaves c s next
    (UInt16.lt_iff_toNat_lt.mpr hsectors.1) (UInt16.lt_iff_toNat_lt.mpr hheads.1)
  refine ⟨c', hrun, ?_⟩
  rw [diskLba2Chs_word, diskRead16_eq]
  generalize (c.regs .ax).word = lba at *
  have hsector : (lba % disk.sectors + 1).toUInt8.toNat < 64 := by
    have hmod := Nat.mod_lt lba.toNat hsectors.1
    rw [UInt16.toNat_toUInt8, UInt16.toNat_add, UInt16.toNat_mod]
    show (_ + 1) % _ % _ < _
    omega
  refine ⟨hch, ?_, hdh, hkept⟩
  -- the cylinder's upper bits and the sector number, the other way round
  rw [hcl, UInt8.or_comm]
  dsimp only
  rw [and_3f_of_lt hsector]

/-- A processor in real mode, with a stack below the boot sector. -/
def sampleCpu (regs : Reg → Bytes) : Cpu where
  regs := regs
  sp := 0x7BF0
  stack := List.replicate 16 0
  ip := ⟨0, 0, 0x7C, 0x50⟩
  cf := false
  zf := false
  interrupts := true
  cs := 0
  ds := 0
  es := 0
  ss := 0
  cr0 := ⟨0, 0, 0, 0x10⟩
  mem _ := 0

/-- The last sector of a floppy disk with 80 cylinders, 2 heads and 18
sectors. -/
theorem bootLbaToChs_eq_floppy : ∃ c', callw ⟨0, 0, 0x7C, 0x53⟩ (bootLbaToChs 18 2)
      (sampleCpu fun _ => ⟨0, 0, 0x0B, 0x3F⟩, ()) = .ok ((), c', ()) ∧
    c'.byte .ch = 79 ∧ c'.byte .cl = 18 ∧ c'.byte .dh = 1 := by
  obtain ⟨c', hrun, hch, hcl, hdh, -⟩ := bootLbaToChs_eq (sampleCpu fun _ => ⟨0, 0, 0x0B, 0x3F⟩)
    () ⟨0, 0, 0x7C, 0x53⟩ ⟨0, 80, 2, 18⟩ (by decide) (by decide) 1 0x7E00
  exact ⟨c', hrun, hch, hcl, hdh⟩

/-! ## Reading with retries -/

/-- The registers of `int 13h`. -/
def request (c : Cpu) : Int13 :=
  ⟨⟨c.byte .ah, c.byte .al⟩, (c.regs .bx).word, ⟨c.byte .ch, c.byte .cl⟩,
    ⟨c.byte .dh, c.byte .dl⟩, c.es⟩

/-- What is noted of an `int 13h`: function 0 resets the drive. -/
def diskEvent (r : Int13) (ok : Bool) : Retry.Event Int13 Int13 :=
  if r.ax.h = 0 then .reset r ok else .attempt r ok

/-- A BIOS that keeps a log. -/
def logging (int13 : Handler σ) : Handler (σ × List (Retry.Event Int13 Int13)) := fun c w =>
  let (a, s) := int13 c w.1
  (a, s, w.2 ++ [diskEvent (request c) (!a.cf)])

theorem logging_log {int13 : Handler σ} {c : Cpu} {a : Answer}
    {w t : σ × List (Retry.Event Int13 Int13)} (h : logging int13 c w = (a, t)) :
    t.2 = w.2 ++ [diskEvent (request c) (!a.cf)] := by
  cases h
  rfl

theorem request_alike {c c' : Cpu} (h : c.Alike c') : request c' = request c := by
  simp [request, h.word, h.h, h.l, show c'.es = c.es from h.seg .es]

/-- Behind a call that left something in `ax`. -/
theorem alike_returned {c c' : Cpu} {next : Bytes} (h : (c.pushWord next).Alike c') (b : Bytes)
    (zf cf : Bool) : (c.set .ax b).Alike { (c'.set .ax b).setFlags zf cf with
      stack := c.stack, sp := c'.sp + 2, ip := .join ⟨0, 0, 0, 0⟩ next } where
  sp := by
    show c'.sp + 2 = c.sp
    rw [h.sp]
    exact UInt16.sub_add_cancel _ _
  stack := rfl
  seg s := by
    cases s
    · exact h.seg .ds
    · exact h.seg .es
    · exact h.seg .ss
  h r := by
    cases r
    case ax => rfl
    all_goals exact h.h _
  l r := by
    cases r
    case ax => rfl
    all_goals exact h.l _

/-- `boot_disk_reset` calls the BIOS with function 0 and passes on whether
that failed. -/
theorem bootDiskReset_runs (int13 : Handler σ) (c : Cpu) (s : σ) (next : Bytes)
    {Q : Unit → Cpu → σ → Prop}
    (h : ∀ x a t c', request x = request (c.setByte .ah 0) → int13 x s = (a, t) →
      (c'.regs .ax).word = (if a.cf then 1 else 0) → (c.set .ax (c'.regs .ax)).Alike c' →
      Q () c' t) :
    Runs (callw next (bootDiskReset int13)) c s Q := by
  apply Runs.callw
  rw [bootDiskReset]
  apply Runs.upd
  apply Runs.upd
  apply Runs.upd
  apply Runs.int
  intro a t hanswer
  apply Runs.flag
  show Runs (if a.cf = true then _ else _) _ _ _
  generalize hx : Cpu.answered _ a = x
  have hframed : (c.pushWord next).pusha.Framed x := by
    subst hx
    exact ⟨rfl, rfl, fun s => by cases s <;> rfl⟩
  obtain ⟨y, hpopa, -, hy⟩ := hframed.popa
  have hstack : y.stack = next.l :: next.h :: c.stack := hy.stack
  by_cases hcf : a.cf = true
  · rw [if_pos hcf]
    apply Runs.tryUpd hpopa
    apply Runs.upd
    refine Runs.retw (by exact hstack) ?_
    refine ⟨rfl, h _ a t _ (by simp [request]) hanswer ?_ (alike_returned hy _ _ _)⟩
    simp [hcf]
  · rw [if_neg hcf]
    apply Runs.tryUpd hpopa
    apply Runs.upd
    refine Runs.retw (by exact hstack) ?_
    refine ⟨rfl, h _ a t _ (by simp [request]) hanswer ?_ (alike_returned hy _ _ _)⟩
    simp [hcf]

/-- The processor at `.retry`, with `k` attempts left. -/
def ready (c : Cpu) (k : Nat) : Cpu := (c.pusha.setByte .ah 0x02).setWord .di (UInt16.ofNat k)

/-- The registers at every read, and at every reset. -/
def readRequest (c : Cpu) : Int13 := request (c.setByte .ah 0x02)

def resetRequest (c : Cpu) : Int13 := request (c.setByte .ah 0)

theorem request_ready {c x : Cpu} {k : Nat} (h : (ready c k).Alike x) :
    request x = readRequest c ∧ request (x.setByte .ah 0) = resetRequest c :=
  ⟨(request_alike h).trans rfl, (request_alike (h.setByte .ah 0)).trans rfl⟩

theorem ready_decw {c x : Cpu} {k : Nat} (h : (ready c (k + 1)).Alike x) :
    (x.regs .di).word - 1 = UInt16.ofNat k ∧
      (ready c k).Alike (x.setWord .di (UInt16.ofNat k)) := by
  have hready : (ready c (k + 1)).setWord .di (UInt16.ofNat k) = ready c k := by
    simp [ready]
  refine ⟨?_, ?_⟩
  · rw [h.word]
    simp [ready]
  · rw [← hready]
    exact h.setWord .di _

/-- `jnz` behind `test di, di`. -/
theorem ofNat_test {k : Nat} (hk : k < 65535) :
    (!(UInt16.ofNat k &&& UInt16.ofNat k == 0)) = decide (k ≠ 0) := by
  have hzero : UInt16.ofNat k = 0 ↔ k = 0 := by
    rw [← UInt16.toNat_inj, UInt16.toNat_ofNat']
    show k % 65536 = 0 ↔ k = 0
    omega
  rw [UInt16.and_self]
  by_cases h : k = 0
  · simp [h]
  · simp [h, hzero]

/-- What was saved in front of a call comes back behind it. -/
theorem alike_popped {c c' : Cpu} (h : ((c.pushWord (c.regs .ax)).set .ax (c'.regs .ax)).Alike c') :
    c.Alike ({ c' with stack := c.stack, sp := c'.sp + 2 }.set .ax
      { c'.regs .ax with h := (c.regs .ax).h, l := (c.regs .ax).l }) where
  sp := by
    show c'.sp + 2 = c.sp
    rw [h.sp]
    exact UInt16.sub_add_cancel _ _
  stack := rfl
  seg s := by
    cases s
    · exact h.seg .ds
    · exact h.seg .es
    · exact h.seg .ss
  h r := by
    cases r
    case ax => rfl
    all_goals exact h.h _
  l r := by
    cases r
    case ax => rfl
    all_goals exact h.l _

/-- A pass reads once and resets the drive if that failed. -/
theorem bootDiskReadPass_runs (int13 : Handler σ) (next : Bytes) (exit : ReadExit) {c x : Cpu}
    {k : Nat} (hk : k < 65535) (hx : (ready c (k + 1)).Alike x)
    (w : σ × List (Retry.Event Int13 Int13)) :
    Runs (bootDiskReadPass (logging int13) next exit) x w fun r y t =>
      (r = (.done, false) ∧ (ready c (k + 1)).Alike y ∧
        t.2 = w.2 ++ [.attempt (readRequest c) true]) ∨
      (r = (.resetFailed, false) ∧ (ready c (k + 1)).Alike y ∧
        t.2 = w.2 ++ [.attempt (readRequest c) false, .reset (resetRequest c) false]) ∨
      (r = (.failure, decide (k ≠ 0)) ∧ (ready c k).Alike y ∧
        t.2 = w.2 ++ [.attempt (readRequest c) false, .reset (resetRequest c) true]) := by
  rw [bootDiskReadPass]
  apply Runs.upd
  apply Runs.upd
  apply Runs.int
  intro a t hanswer
  have hlog := logging_log hanswer
  rw [show request (x.pusha.setFlags x.pusha.zf true) = readRequest c from
    (request_ready hx).1] at hlog
  generalize hz : Cpu.answered _ a = z
  have hframed : x.pusha.Framed z := by
    subst hz
    exact ⟨rfl, rfl, fun s => by cases s <;> rfl⟩
  obtain ⟨y, hpopa, hcf, hy⟩ := hframed.popa
  have hcf : y.cf = a.cf := by
    rw [hcf, ← hz]
    rfl
  have hy := hx.trans hy
  apply Runs.tryUpd hpopa
  apply Runs.flag
  show Runs (if y.cf = true then _ else _) _ _ _
  by_cases hmiss : y.cf = true
  · rw [hcf] at hmiss
    rw [hcf, if_pos hmiss]
    apply Runs.upd
    apply Runs.bind
    apply bootDiskReset_runs
    intro u a' t' v hrequest hanswer' hax hv
    have hlog' := logging_log hanswer'
    rw [hrequest] at hlog'
    rw [show request ((y.pushWord (y.regs .ax)).setByte .ah 0) = resetRequest c from
      (request_ready hy).2, hlog, hmiss, List.append_assoc] at hlog'
    have hstack : v.stack = (y.regs .ax).l :: (y.regs .ax).h :: y.stack := hv.stack
    have hpopped := hy.trans (alike_popped hv)
    apply Runs.upd
    apply Runs.flag
    show Runs (if ((v.regs .ax).word == 0) = true then _ else _) _ _ _
    rw [hax]
    by_cases hstuck : a'.cf = true
    · rw [hstuck, if_neg (by decide)]
      refine Runs.popw (by exact hstack) ?_
      apply Runs.pure
      refine .inr (.inl ⟨rfl, ?_, ?_⟩)
      · exact hpopped.setFlags _ _
      · rw [hlog', hstuck]
        rfl
    · rw [if_neg hstuck, if_pos (by decide)]
      refine Runs.popw (by exact hstack) ?_
      generalize hp : Cpu.set _ _ _ = p
      have hp : (ready c (k + 1)).Alike p := hp ▸ hpopped.setFlags _ _
      obtain ⟨hdi, hready⟩ := ready_decw hp
      apply Runs.upd
      rw [hdi]
      apply Runs.upd
      apply Runs.flag
      apply Runs.pure
      refine .inr (.inr ⟨?_, (hready.setFlags _ _).setFlags _ _, ?_⟩)
      · simp [← ofNat_test hk]
      · rw [hlog', Bool.eq_false_iff.mpr hstuck]
        rfl
  · rw [if_neg hmiss]
    apply Runs.pure
    refine .inl ⟨rfl, hy, ?_⟩
    rw [hlog, ← hcf, Bool.eq_false_iff.mpr hmiss]
    rfl

/-- The way out that belongs to an outcome, and what it leaves in `ax`. -/
def readExit : Retry.Outcome → ReadExit
  | .done => .done
  | .stuck => .resetFailed
  | .exhausted => .failure

def readStatus : Retry.Outcome → UInt16
  | .done => 0
  | .stuck => 2
  | .exhausted => 1

/-- The passes with `k + 1` attempts left. -/
theorem bootDiskRead_loop (int13 : Handler σ) (next : Bytes) {c : Cpu} {k : Nat} (hk : k < 65535)
    {fuel : Nat} (hfuel : k < fuel) {exit : ReadExit} {x : Cpu} (hx : (ready c (k + 1)).Alike x)
    (w : σ × List (Retry.Event Int13 Int13)) :
    Runs (Proc.iterate .unfinished (bootDiskReadPass (logging int13) next) fuel exit) x w
      fun r y t => ∃ log o, t.2 = w.2 ++ log ∧
        Retry.Retries (· = readRequest c) (· = resetRequest c) (k + 1) log o ∧
        r = readExit o ∧ c.pusha.Framed y := by
  have hframed : ∀ j, c.pusha.Framed (ready c j) :=
    fun j => ⟨rfl, rfl, fun s => by cases s <;> rfl⟩
  induction fuel generalizing k exit x w with
  | zero => exact (Nat.not_lt_zero k hfuel).elim
  | succ fuel ih =>
    rw [Proc.iterate_succ]
    apply Runs.bind
    apply (bootDiskReadPass_runs int13 next exit hk hx w).mono
    rintro ⟨r, more⟩ y t (⟨hr, hy, hlog⟩ | ⟨hr, hy, hlog⟩ | ⟨hr, hy, hlog⟩)
    · cases hr
      exact Runs.pure ⟨_, .done, hlog, .done rfl, rfl, (hframed _).trans hy.toFramed⟩
    · cases hr
      exact Runs.pure ⟨_, .stuck, hlog, .stuck rfl rfl, rfl, (hframed _).trans hy.toFramed⟩
    · cases k with
      | zero =>
        cases hr
        exact Runs.pure ⟨_, .exhausted, hlog, .again rfl rfl .exhausted, rfl,
          (hframed _).trans hy.toFramed⟩
      | succ k =>
        cases hr
        apply (ih (by omega) (Nat.lt_of_succ_lt_succ hfuel) hy t).mono
        rintro r z u ⟨log, o, hlog', hretries, hexit, hz⟩
        refine ⟨_, o, ?_, .again rfl rfl hretries, hexit, hz⟩
        rw [hlog', hlog, List.append_assoc]
        rfl

/-- `boot_disk_read` makes three attempts and keeps all registers but `ax`. -/
theorem bootDiskRead_runs (int13 : Handler σ) (c : Cpu) (s : σ) (next resetNext : Bytes)
    {fuel : Nat} (hfuel : 3 ≤ fuel) :
    Runs (callw next (bootDiskRead (logging int13) resetNext fuel)) c (s, []) fun _ c' t =>
      ∃ o, Retry.Retries (· = readRequest c) (· = resetRequest c) 3 t.2 o ∧
        (c'.regs .ax).word = readStatus o ∧ (c.set .ax (c'.regs .ax)).Alike c' := by
  apply Runs.callw
  rw [bootDiskRead]
  apply Runs.upd
  apply Runs.upd
  apply Runs.upd
  apply Runs.bind
  have hready : (ready (c.pushWord next) 3).Alike (ready (c.pushWord next) 3) :=
    ⟨⟨rfl, rfl, fun _ => rfl⟩, fun _ => rfl, fun _ => rfl⟩
  apply (bootDiskRead_loop int13 resetNext (by decide) hfuel hready (s, [])).mono
  rintro exit y t ⟨log, o, hlog, hretries, rfl, hframed⟩
  rw [List.nil_append] at hlog
  subst hlog
  obtain ⟨z, hpopa, -, hz⟩ := hframed.popa
  have hstack : z.stack = next.l :: next.h :: c.stack := hz.stack
  cases o with
  | done =>
    apply Runs.tryUpd hpopa
    apply Runs.upd
    refine Runs.retw (by exact hstack) ?_
    exact ⟨rfl, .done, hretries, by simp [readStatus], alike_returned hz _ _ _⟩
  | stuck =>
    apply Runs.tryUpd hpopa
    apply Runs.upd
    refine Runs.retw (by exact hstack) ?_
    exact ⟨rfl, .stuck, hretries, by simp [readStatus], alike_returned hz _ _ _⟩
  | exhausted =>
    apply Runs.tryUpd hpopa
    apply Runs.upd
    refine Runs.retw (by exact hstack) ?_
    exact ⟨rfl, .exhausted, hretries, by simp [readStatus], alike_returned hz _ _ _⟩

/-- What a caller of `boot_disk_read` gets: at most three reads, all as asked
for, with one reset of the drive between two of them that succeeded; `ax` says
how they came out, and the other registers and the stack are as before. -/
structure ReadsWithRetries (c c' : Cpu) (log : List (Retry.Event Int13 Int13)) : Prop where
  attempts : log.countP Retry.Event.isAttempt ≤ 3
  alike : ∀ r ok, Retry.Event.attempt r ok ∈ log →
    r = ⟨⟨0x02, c.byte .al⟩, (c.regs .bx).word, ⟨c.byte .ch, c.byte .cl⟩,
      ⟨c.byte .dh, c.byte .dl⟩, c.es⟩
  resets : ∀ before mid after r ok r' ok',
    log = before ++ .attempt r ok :: (mid ++ .attempt r' ok' :: after) →
    (∀ e ∈ mid, e.isAttempt = false) →
    ∃ b, (b.ax.h = 0 ∧ b.dx.l = c.byte .dl) ∧ mid = [.reset b true]
  zero : (c'.regs .ax).word = 0 ↔ ∃ r, Retry.Event.attempt r true ∈ log
  two : (c'.regs .ax).word = 2 ↔ ∃ r, Retry.Event.reset r false ∈ log
  regs : ∀ r, r ≠ .ax → (c'.regs r).word = (c.regs r).word
  sp : c'.sp = c.sp
  stack : c'.stack = c.stack

/-- **`boot_disk_read`**, whatever the BIOS does: three reads with resets in
between at most, and 1 in `ax` exactly if all three failed and no reset did. -/
theorem bootDiskRead_retries (int13 : Handler σ) (c : Cpu) (s : σ) (next resetNext : Bytes)
    {fuel : Nat} (hfuel : 3 ≤ fuel) :
    ∃ c' t log, callw next (bootDiskRead (logging int13) resetNext fuel) (c, s, [])
        = .ok ((), c', t, log) ∧
      ReadsWithRetries c c' log ∧
      ((c'.regs .ax).word = 1 ↔
        log.countP Retry.Event.isMiss = 3 ∧ ∀ r, Retry.Event.reset r false ∉ log) := by
  obtain ⟨⟨⟩, c', ⟨t, log⟩, hrun, o, hretries, hax, halike⟩ :=
    bootDiskRead_runs int13 c s next resetNext hfuel
  have hcode : ∀ o', (c'.regs .ax).word = readStatus o' ↔ o = o' := by
    intro o'
    rw [hax]
    cases o <;> cases o' <;> decide
  refine ⟨c', t, log, hrun, ⟨hretries.attempts_le, ?_, ?_, ?_, ?_, ?_, halike.sp, halike.stack⟩, ?_⟩
  · intro r ok hmem
    exact hretries.attempt_mem hmem
  · intro before mid after r ok r' ok' hlog hmid
    obtain ⟨b, hb, hmid⟩ := hretries.between hlog hmid
    subst hb
    exact ⟨_, ⟨rfl, rfl⟩, hmid⟩
  · exact (hcode .done).trans hretries.done_iff
  · exact (hcode .stuck).trans hretries.stuck_iff
  · intro r hr
    rw [halike.word]
    simp [hr]
  · exact (hcode .exhausted).trans hretries.exhausted_iff

/-- A BIOS whose answer to the `k`-th call fails or not, and which overwrites
every register. -/
def sampleInt13 (fails : Nat → Bool) : Handler Nat := fun _ k =>
  (⟨fun _ => ⟨0xDE, 0xAD, 0xBE, 0xEF⟩, fails k, false, fun _ => 0⟩, k + 1)

/-- The second attempt succeeds. -/
theorem bootDiskRead_retries_sample : ∃ c' t log,
    callw ⟨0, 0, 0x7C, 0x60⟩ (bootDiskRead (logging (sampleInt13 (· == 0))) ⟨0, 0, 0x7D, 0x80⟩ 3)
      (sampleCpu fun _ => ⟨0, 0, 2, 1⟩, 0, []) = .ok ((), c', t, log) ∧
    ReadsWithRetries (sampleCpu fun _ => ⟨0, 0, 2, 1⟩) c' log := by
  obtain ⟨c', t, log, hrun, hreads, -⟩ := bootDiskRead_retries (sampleInt13 (· == 0))
    (sampleCpu fun _ => ⟨0, 0, 2, 1⟩) 0 ⟨0, 0, 0x7C, 0x60⟩ ⟨0, 0, 0x7D, 0x80⟩ (Nat.le_refl 3)
  exact ⟨c', t, log, hrun, hreads⟩

/-- Where three reads fail and the reset behind the third one does too, `ax`
is 2. -/
theorem bootDiskRead_resets_last : ∃ c' t log,
    callw ⟨0, 0, 0x7C, 0x60⟩
      (bootDiskRead (logging (sampleInt13 fun k => k % 2 == 0 || k == 5)) ⟨0, 0, 0x7D, 0x80⟩ 3)
      (sampleCpu fun _ => ⟨0, 0, 2, 1⟩, 0, []) = .ok ((), c', t, log) ∧
    log.countP Retry.Event.isMiss = 3 ∧ (c'.regs .ax).word ≠ 1 := by
  have hrun : Proc.passes (fun _ x => x.2.2.countP Retry.Event.isMiss == 3 &&
      (x.1.regs .ax).word == 2) (callw ⟨0, 0, 0x7C, 0x60⟩
        (bootDiskRead (logging (sampleInt13 fun k => k % 2 == 0 || k == 5)) ⟨0, 0, 0x7D, 0x80⟩ 3)
        (sampleCpu fun _ => ⟨0, 0, 2, 1⟩, 0, [])) = true := by decide +kernel
  obtain ⟨⟨⟩, ⟨c', t, log⟩, hrun, htest⟩ := Proc.of_passes hrun
  obtain ⟨hmiss, hax⟩ := (Bool.and_eq_true _ _).mp htest
  refine ⟨c', t, log, hrun, beq_iff_eq.mp hmiss, ?_⟩
  rw [beq_iff_eq.mp hax]
  decide

end Netclover.Stage1
