import Netclover.Stage2.E820

/-!
# The end of the memory map (`MemDetect` over `E820NextBlock`)

The loop of `MemDetect` ends at a result that is not positive, or at
continuation 0. A failure does not come back negative, since the upper half of
the result is that of CR0 (`memDetect_reports_iff`), and the loop does not look
at how many regions there are (`memDetect_inBounds_iff`).
-/

namespace Netclover.Stage2

open I386 Asm Proc

variable {σ : Type}

/-! ## The loop over any `E820NextBlock` -/

/-- One pass of the loop of `MemDetect`. -/
def detectPass (next : NextBlock σ) (st : DetectState) : Proc σ Stop (DetectState × Bool) :=
  if st.ret > 0 ∧ st.continuation ≠ 0 then
    if st.regionCount < maxE820Regions then do
      let memRegions := Function.update st.memRegions st.regionCount st.block
      let (ret, block, continuation) ← next st.block st.continuation
      return (⟨memRegions, block, continuation, st.regionCount + 1, ret⟩, true)
    else Proc.halt .outOfBounds
  else pure (st, false)

theorem memDetectPass_eq (fw : Firmware σ) : memDetectPass fw = detectPass (e820NextBlock fw) := rfl

/-- The loop comes to a test in this state. -/
inductive Tests (next : NextBlock σ) (memRegions : Nat → E820Block) (block : E820Block) (s : σ) :
    DetectState → σ → Prop
  | loop {ret : Int32} {block' : E820Block} {continuation : UInt32} {t u : σ} {st : DetectState} :
    next block 0 s = .ok ((ret, block', continuation), t) →
    Visits (detectPass next) ⟨memRegions, block', continuation, 0, ret⟩ t st u →
    Tests next memRegions block s st u

/-- Behind every call its result is tested. -/
theorem Tests.answer {next : NextBlock σ} {memRegions : Nat → E820Block} {block : E820Block}
    {s t : σ} {st : DetectState} (h : Tests next memRegions block s st t) :
    ∃ block' continuation u, next block' continuation u
      = .ok ((st.ret, st.block, st.continuation), t) := by
  obtain ⟨hfirst, hvisits⟩ := h
  cases hvisits with
  | start => exact ⟨_, _, _, hfirst⟩
  | pass _ hpass =>
    rw [detectPass] at hpass
    split at hpass
    · split at hpass
      · obtain ⟨⟨ret, block', continuation⟩, u, hnext, hrest⟩ := of_bind_ok hpass
        obtain ⟨hst, rfl⟩ := of_pure_ok hrest
        obtain rfl := (Prod.mk.inj hst).1
        exact ⟨_, _, _, hnext⟩
      · cases hpass
    · cases hpass

/-- Where the result is not positive, the loop ends as it is. -/
theorem detectPass_ends {next : NextBlock σ} {st : DetectState} (h : ¬ st.ret > 0) (s : σ) :
    detectPass next st s = .ok ((st, false), s) := by
  rw [detectPass, if_neg fun hgo => h hgo.1]
  rfl

/-! ## Whether a failure is reported -/

/-- The test behind a call sees ECX if the call is answered, and a negative int
if it is not, so that the loop ends as it is. -/
def Reported (next : NextBlock (σ × Option Answer)) (st : DetectState) (w : σ × Option Answer)
    (a : Answer) : Prop :=
  if X86.answered a = true then st.ret = (a.regs .cx).dword.toInt32
  else st.ret < 0 ∧ detectPass next st w = .ok ((st, false), w)

/-- The result comes through `enterProtectedMode`: the upper half of CR0 is that
of ECX if the call is answered, and of a negative int if it is not (bit 31
stands for paging). -/
def ComesThrough (cr0 : Bytes) (a : Answer) : Prop :=
  if X86.answered a = true then cr0.b3 = (a.regs .cx).b3 ∧ cr0.b2 = (a.regs .cx).b2
  else 0x80 ≤ cr0.b3

theorem dword_inj {a b : Bytes} (h : a.dword = b.dword) : a = b := by
  have hnat := congrArg UInt32.toNat h
  rw [Bytes.toNat_dword, Bytes.toNat_dword] at hnat
  have ha₂ := a.b2.toNat_lt
  have ha₁ := a.h.toNat_lt
  have ha₀ := a.l.toNat_lt
  have hb₂ := b.b2.toNat_lt
  have hb₁ := b.h.toNat_lt
  have hb₀ := b.l.toNat_lt
  have h₃ : a.b3 = b.b3 := UInt8.toNat_inj.mp (by omega)
  have h₂ : a.b2 = b.b2 := UInt8.toNat_inj.mp (by omega)
  have h₁ : a.h = b.h := UInt8.toNat_inj.mp (by omega)
  have h₀ : a.l = b.l := UInt8.toNat_inj.mp (by omega)
  cases a
  cases b
  dsimp only at h₃ h₂ h₁ h₀
  rw [h₃, h₂, h₁, h₀]

theorem dword_toInt32_inj {a b : Bytes} (h : a.dword.toInt32 = b.dword.toInt32) : a = b :=
  dword_inj (by rw [← UInt32.toUInt32_toInt32 a.dword, h, UInt32.toUInt32_toInt32])

theorem dword_toInt32_neg (b : Bytes) : b.dword.toInt32 < 0 ↔ 0x80 ≤ b.b3 := by
  have h₃ := b.b3.toNat_lt
  have h₂ := b.b2.toNat_lt
  have h₁ := b.h.toNat_lt
  have h₀ := b.l.toNat_lt
  have hdword := b.toNat_dword
  rw [Int32.lt_iff_toInt_lt, UInt8.le_iff_toNat_le]
  show b.dword.toInt32.toInt < 0 ↔ 128 ≤ b.b3.toNat
  by_cases hsign : b.dword.toNat < 2 ^ 31
  · rw [Libc.toInt_toInt32 _ hsign]
    omega
  · rw [Libc.toInt_toInt32_of_ge _ (by omega)]
    omega

/-- A result is what is expected of it if it comes through. -/
theorem join_reports (cr0 : Bytes) (a : Answer) :
    (if X86.answered a = true then
        (Bytes.join cr0 (X86.e820Eax a)).dword.toInt32 = (a.regs .cx).dword.toInt32
      else (Bytes.join cr0 (X86.e820Eax a)).dword.toInt32 < 0) ↔ ComesThrough cr0 a := by
  by_cases ha : X86.answered a = true
  · rw [if_pos ha, ComesThrough, if_pos ha, X86.e820Eax, if_pos ha]
    constructor
    · intro h
      have hjoin := dword_toInt32_inj h
      have h₃ : (Bytes.join cr0 (a.regs .cx)).b3 = _ := congrArg Bytes.b3 hjoin
      have h₂ : (Bytes.join cr0 (a.regs .cx)).b2 = _ := congrArg Bytes.b2 hjoin
      exact ⟨h₃, h₂⟩
    · rintro ⟨h₃, h₂⟩
      rw [Bytes.join, h₃, h₂]
  · rw [if_neg ha, ComesThrough, if_neg ha, dword_toInt32_neg]
    rfl

/-- **When a failure of E820 is reported**: in every run of `MemDetect`, the
results are as they should be behind every call if and only if each of them
comes through `enterProtectedMode`. -/
theorem memDetect_reports_iff {int15 : Handler σ}
    (hbp : ∀ x s, (int15 x s).1.regs .bp = x.regs .bp) (frame : DetectFrame σ)
    (memRegions : Nat → E820Block) (block : E820Block) (w : σ × Option Answer) :
    (∀ st t, Tests (stubNextBlock int15 frame) memRegions block w st t →
        ∃ a, t.2 = some a ∧ Reported (stubNextBlock int15 frame) st t a) ↔
      ∀ st t, Tests (stubNextBlock int15 frame) memRegions block w st t →
        ∃ a, t.2 = some a ∧ ComesThrough frame.cr0 a := by
  apply forall₃_congr
  intro st t h
  obtain ⟨block', continuation, u, hnext⟩ := h.answer
  rw [stubNextBlock_ok hbp] at hnext
  generalize (int15 (frame.asks block' continuation u.1) u.1) = r at hnext
  obtain ⟨hst, rfl⟩ := Prod.mk.inj (Except.ok.inj hnext)
  have hret := (Prod.mk.inj hst).1
  have hone : Reported (stubNextBlock int15 frame) st (r.2, some r.1) r.1 ↔
      ComesThrough frame.cr0 r.1 := by
    rw [← join_reports, Reported, ← hret]
    by_cases ha : X86.answered r.1 = true
    · rw [if_pos ha, if_pos ha]
    · rw [if_neg ha, if_neg ha]
      refine ⟨fun hboth => hboth.1, fun hneg => ⟨hneg, detectPass_ends ?_ _⟩⟩
      rw [← hret]
      exact Int32.not_lt.mpr (Int32.le_of_lt hneg)
  constructor
  · rintro ⟨a, ha, hreported⟩
    obtain rfl := Option.some.inj ha
    exact ⟨r.1, rfl, hone.mp hreported⟩
  · rintro ⟨a, ha, hthrough⟩
    obtain rfl := Option.some.inj ha
    exact ⟨r.1, rfl, hone.mpr hthrough⟩

/-- The handler delivers one block and says that there are more, and then
fails. -/
def sampleInt15 : Handler Nat := fun c n =>
  if n = 0 then
    (⟨Function.update (Function.update (Function.update c.regs .ax (.ofDword e820Signature)) .bx
      ⟨0, 0, 0, 1⟩) .cx ⟨0, 0, 0, 24⟩, false, c.zf, c.mem⟩, 1)
  else (⟨c.regs, true, c.zf, c.mem⟩, n + 1)

theorem sampleInt15_bp (x : Cpu) (n : Nat) : (sampleInt15 x n).1.regs .bp = x.regs .bp := by
  rw [sampleInt15]
  split
  · rfl
  · rfl

def sampleFrame : DetectFrame Nat where
  cpu _ := Stage1.sampleCpu fun _ => ⟨0, 0, 0, 0⟩
  cr0 := ⟨0, 0, 0, 0x11⟩
  behind := ⟨0, 0, 0x56, 0x78⟩
  block := 0x7000
  continuation := 0x7018

/-- The handler delivers one block after the other. -/
def sampleEndlessInt15 : Handler Nat := fun c n =>
  (⟨Function.update (Function.update (Function.update c.regs .ax (.ofDword e820Signature)) .bx
    ⟨0, 0, 0, 1⟩) .cx ⟨0, 0, 0, 24⟩, false, c.zf, c.mem⟩, n + 1)

/-- With the upper half of CR0 clear, 24 comes through. -/
theorem memDetect_reports_iff_sample :
    (∃ st t, Tests (stubNextBlock sampleEndlessInt15 sampleFrame) (fun _ => ⟨0, 0, 0, 0⟩)
      ⟨0, 0, 0, 0⟩ (0, none) st t) ∧
    ∀ st t, Tests (stubNextBlock sampleEndlessInt15 sampleFrame) (fun _ => ⟨0, 0, 0, 0⟩)
      ⟨0, 0, 0, 0⟩ (0, none) st t →
      ∃ a, t.2 = some a ∧ Reported (stubNextBlock sampleEndlessInt15 sampleFrame) st t a := by
  have hbp : ∀ x n, (sampleEndlessInt15 x n).1.regs .bp = x.regs .bp := by
    intro x n
    simp [sampleEndlessInt15]
  have hanswered : ∀ x n, X86.answered (sampleEndlessInt15 x n).1 = true := by
    intro x n
    simp [X86.answered, sampleEndlessInt15]
  have hcx : ∀ x n, (sampleEndlessInt15 x n).1.regs .cx = ⟨0, 0, 0, 24⟩ := by
    intro x n
    simp [sampleEndlessInt15]
  refine ⟨⟨_, _, .loop (stubNextBlock_ok hbp _ _ _ _) .start⟩,
    (memDetect_reports_iff hbp sampleFrame _ _ (0, none)).mpr ?_⟩
  intro st t htests
  obtain ⟨block, continuation, u, hnext⟩ := htests.answer
  rw [stubNextBlock_ok hbp] at hnext
  obtain ⟨-, rfl⟩ := Prod.mk.inj (Except.ok.inj hnext)
  refine ⟨_, rfl, ?_⟩
  rw [ComesThrough, if_pos (hanswered ..), hcx]
  exact ⟨rfl, rfl⟩

/-- The second call fails, and 65535 is returned, so that the loop goes on. -/
theorem memDetect_failure_missed : ¬ ∀ (int15 : Handler Nat),
    (∀ x s, (int15 x s).1.regs .bp = x.regs .bp) → ∀ (frame : DetectFrame Nat)
    (memRegions : Nat → E820Block) (block : E820Block) (w : Nat × Option Answer) (st : DetectState)
    (t : Nat × Option Answer), Tests (stubNextBlock int15 frame) memRegions block w st t →
      ∃ a, t.2 = some a ∧ Reported (stubNextBlock int15 frame) st t a := by
  intro h
  have hrun : passes (fun r w => r.1.ret == 0xFFFF && r.2 && w.2.any fun a => !X86.answered a)
      ((stubNextBlock sampleInt15 sampleFrame ⟨0, 0, 0, 0⟩ 0 >>= fun r =>
        detectPass (stubNextBlock sampleInt15 sampleFrame)
          ⟨fun _ => ⟨0, 0, 0, 0⟩, r.2.1, r.2.2, 0, r.1⟩) (0, none)) = true := by decide +kernel
  obtain ⟨⟨st, more⟩, t, hrun, htest⟩ := of_passes hrun
  simp only [Bool.and_eq_true, beq_iff_eq, Option.any_eq_true, Bool.not_eq_true'] at htest
  obtain ⟨⟨hret, rfl⟩, a, ha, hanswered⟩ := htest
  obtain ⟨⟨ret, block, continuation⟩, u, hfirst, hpass⟩ := of_bind_ok hrun
  obtain ⟨a', ha', hreported⟩ := h sampleInt15 sampleInt15_bp sampleFrame _ _ _ st t
    (.loop hfirst (.pass .start hpass))
  obtain rfl := Option.some.inj (ha.symm.trans ha')
  rw [Reported, if_neg (by rw [hanswered]; decide), hret] at hreported
  exact absurd hreported.1 (by decide)

/-! ## How many regions there are -/

/-- What `E820NextBlock` returns over this firmware. -/
def nextResult (fw : Firmware σ) (block : E820Block) (continuation : UInt32) (s : σ) :
    (Int32 × E820Block × UInt32) × σ :=
  let r := fw.int15 continuation block s
  if r.1.carry || r.1.eax != e820Signature then
    (((enterProtectedMode fw.cr0 (-1)).toInt32, r.1.buffer, continuation), r.2)
  else (((enterProtectedMode fw.cr0 r.1.ecx).toInt32, r.1.buffer, r.1.ebx), r.2)

theorem e820NextBlock_ok (fw : Firmware σ) (block : E820Block) (continuation : UInt32) (s : σ) :
    e820NextBlock fw block continuation s = .ok (nextResult fw block continuation s) := by
  rw [nextResult]
  split
  · rename_i hstop
    exact e820NextBlock_failed hstop
  · rename_i hgo
    exact e820NextBlock_answered hgo

/-- The answers of the firmware, each call where the one before left off. -/
def answers (fw : Firmware σ) (block : E820Block) (s : σ) : Nat → (Int32 × E820Block × UInt32) × σ
  | 0 => nextResult fw block 0 s
  | k + 1 =>
    let r := answers fw block s k
    nextResult fw r.1.2.1 r.1.2.2 r.2

/-- The loop ends at this answer. -/
def EndsAt (r : Int32 × E820Block × UInt32) : Prop := ¬ (r.1 > 0 ∧ r.2.2 ≠ 0)

/-- The result, the block and the continuation in hand. -/
def DetectState.inHand (st : DetectState) : Int32 × E820Block × UInt32 :=
  (st.ret, st.block, st.continuation)

section

variable {fw : Firmware σ} {memRegions : Nat → E820Block} {block : E820Block} {s t : σ}
  {st : DetectState}

/-- At a test, each region stands for an answer that did not end the loop, and
one more answer is in hand. -/
theorem Tests.counted (h : Tests (e820NextBlock fw) memRegions block s st t) :
    (st.inHand, t) = answers fw block s st.regionCount ∧ st.regionCount ≤ maxE820Regions ∧
      ∀ j < st.regionCount, ¬ EndsAt (answers fw block s j).1 := by
  obtain ⟨hfirst, hvisits⟩ := h
  induction hvisits with
  | start =>
    rw [e820NextBlock_ok] at hfirst
    exact ⟨(Except.ok.inj hfirst).symm, Nat.zero_le _, fun j hj => absurd hj (Nat.not_lt_zero j)⟩
  | pass _ hpass ih =>
    rename_i b c v u _
    obtain ⟨hhand, -, hgoing⟩ := ih
    rw [detectPass] at hpass
    split at hpass
    · rename_i hgo
      split at hpass
      · rename_i hroom
        obtain ⟨⟨ret, block', continuation⟩, w, hnext, hrest⟩ := of_bind_ok hpass
        obtain ⟨hst, rfl⟩ := of_pure_ok hrest
        obtain rfl := (Prod.mk.inj hst).1
        rw [e820NextBlock_ok] at hnext
        refine ⟨?_, hroom, ?_⟩
        · show _ = nextResult fw _ _ _
          rw [← hhand]
          exact (Except.ok.inj hnext).symm
        · intro j hj
          rcases Nat.lt_succ_iff_lt_or_eq.mp hj with hj | rfl
          · exact hgoing j hj
          · rw [← hhand]
            exact not_not_intro hgo
      · cases hpass
    · cases hpass

/-- As long as no answer ends the loop, and there is room, it comes to a test
with one region more. -/
theorem tests_of_going {k : Nat} (hroom : k ≤ maxE820Regions)
    (hgoing : ∀ j < k, ¬ EndsAt (answers fw block s j).1) :
    ∃ st t, Tests (e820NextBlock fw) memRegions block s st t ∧ st.regionCount = k ∧
      (st.inHand, t) = answers fw block s k := by
  induction k with
  | zero => exact ⟨_, _, .loop (e820NextBlock_ok fw block 0 s) .start, rfl, rfl⟩
  | succ k ih =>
    obtain ⟨st, t, ⟨hfirst, hvisits⟩, rfl, hhand⟩ :=
      ih (Nat.le_of_succ_le hroom) fun j hj => hgoing j (Nat.lt_succ_of_lt hj)
    have hgo : st.ret > 0 ∧ st.continuation ≠ 0 := by
      have hlast := hgoing _ (Nat.lt_succ_self _)
      rw [← hhand] at hlast
      exact not_not.mp hlast
    have hpass : detectPass (e820NextBlock fw) st t
        = .ok ((st.stores (nextResult fw st.block st.continuation t).1.2.1
          (nextResult fw st.block st.continuation t).1.2.2
          (nextResult fw st.block st.continuation t).1.1, true),
          (nextResult fw st.block st.continuation t).2) := by
      rw [detectPass, if_pos hgo, if_pos (Nat.lt_of_succ_le hroom),
        bind_ok (e820NextBlock_ok fw _ _ t)]
      rfl
    refine ⟨_, _, .loop hfirst (.pass hvisits hpass), rfl, ?_⟩
    show _ = nextResult fw _ _ _
    rw [← hhand]
    rfl

end

/-- The store of the pass that follows, if there is one, is in the array. -/
def DetectState.InBounds (st : DetectState) : Prop :=
  st.regionCount ≤ maxE820Regions ∧ (¬ EndsAt st.inHand → st.regionCount < maxE820Regions)

/-- **When the regions stay in the array**: in every run of `MemDetect`, if and
only if one of the first 257 answers ends the loop. -/
theorem memDetect_inBounds_iff (fw : Firmware σ) (memRegions : Nat → E820Block) (block : E820Block)
    (s : σ) : (∀ st t, Tests (e820NextBlock fw) memRegions block s st t → st.InBounds) ↔
      ∃ k ≤ maxE820Regions, EndsAt (answers fw block s k).1 := by
  constructor
  · intro hall
    by_contra hnone
    have hgoing : ∀ k ≤ maxE820Regions, ¬ EndsAt (answers fw block s k).1 :=
      fun k hk hends => hnone ⟨k, hk, hends⟩
    obtain ⟨st, t, htests, hcount, hhand⟩ := tests_of_going (Nat.le_refl _)
      fun j hj => hgoing j (Nat.le_of_lt hj)
    have hlast := hgoing _ (Nat.le_refl _)
    rw [← hhand] at hlast
    exact absurd ((hall st t htests).2 hlast) (by rw [hcount]; exact Nat.lt_irrefl _)
  · rintro ⟨k, hk, hends⟩ st t htests
    obtain ⟨hhand, hroom, hgoing⟩ := htests.counted
    refine ⟨hroom, fun hgo => ?_⟩
    have hlt : ¬ k < st.regionCount := fun hlt => hgoing k hlt hends
    have hne : k ≠ st.regionCount := by
      rintro rfl
      rw [← hhand] at hends
      exact hgo hends
    omega

/-- The firmware that never says that it has delivered the last block. -/
def endlessFirmware : Firmware Unit where
  int15 _ buffer s := (⟨false, e820Signature, 1, 24, buffer⟩, s)
  cr0 := 0x11
  paging := by decide

theorem endlessFirmware_going (k : Nat) :
    ¬ EndsAt (answers endlessFirmware ⟨0, 0, 0, 0⟩ () k).1 := by
  have hresult : ∀ (block : E820Block) (continuation : UInt32),
      nextResult endlessFirmware block continuation () = ((24, block, 1), ()) := by
    intro block continuation
    have hret : (enterProtectedMode 0x11 24).toInt32 = 24 := by decide
    show (((enterProtectedMode 0x11 24).toInt32, block, 1), ()) = _
    rw [hret]
  have hgo : ∀ block : E820Block, ¬ EndsAt (24, block, 1) := by
    intro block hends
    have hpos : (24 : Int32) > 0 := by decide
    have hmore : (1 : UInt32) ≠ 0 := by decide
    exact hends ⟨hpos, hmore⟩
  cases k with
  | zero =>
    rw [answers, hresult]
    exact hgo _
  | succ k =>
    rw [answers, hresult]
    exact hgo _

/-- The 257th region is not in the array. -/
theorem memDetect_overruns : ¬ ∀ (fw : Firmware Unit) (memRegions : Nat → E820Block)
    (block : E820Block) (st : DetectState) (t : Unit),
    Tests (e820NextBlock fw) memRegions block () st t → st.InBounds := by
  intro h
  obtain ⟨st, t, htests, hcount, hhand⟩ := tests_of_going (Nat.le_refl maxE820Regions)
    fun j _ => endlessFirmware_going j
  have hgo := endlessFirmware_going maxE820Regions
  rw [← hhand] at hgo
  have hlt := (h endlessFirmware (fun _ => ⟨0, 0, 0, 0⟩) ⟨0, 0, 0, 0⟩ st t htests).2 hgo
  rw [hcount] at hlt
  exact Nat.lt_irrefl _ hlt

end Netclover.Stage2
