import Netclover.Stage2.Fat

/-!
# The memory map (`memdetect.c` and `E820NextBlock`)

`MemDetect` asks the firmware for one block of the memory map after the other
and collects them. The firmware is an argument (`Firmware`), and so is what
the stack holds before. `Delivers` says which map a firmware delivers. The
loop tests the continuation of the block it has before it stores the block, so
that the block that comes with continuation 0, the last one, is not stored.
-/

namespace Netclover.Stage2

open Proc

variable {σ : Type}

/-! ## The firmware -/

/-- `E820BlockStruct`. -/
structure E820Block where
  base : UInt64
  length : UInt64
  type : UInt32
  acpi : UInt32
  deriving DecidableEq, Repr

def maxE820Regions : Nat := 256

/-- `E820Signature`, "SMAP". -/
def e820Signature : UInt32 := 0x534D4150

/-- What `int 15h` leaves: the carry flag, the registers, and the 24 bytes of
the buffer. -/
structure E820Reply where
  carry : Bool
  eax : UInt32
  ebx : UInt32
  ecx : UInt32
  buffer : E820Block

/-- `int 15h` with function 0xE820 on a continuation (`ebx`) and a buffer, and
CR0 while it runs: in real mode paging is off. -/
structure Firmware (σ : Type) where
  int15 : UInt32 → E820Block → σ → E820Reply × σ
  cr0 : UInt32
  paging : cr0.toNat < 2 ^ 31

/-! ## `E820NextBlock` -/

/-- `enterProtectedMode` saves `ax` and goes through `eax`: the upper half
comes back as that of CR0. -/
def enterProtectedMode (cr0 eax : UInt32) : UInt32 := (cr0 &&& 0xFFFF0000) ||| (eax &&& 0xFFFF)

/-- The result, the block and the continuation. -/
def e820NextBlock (fw : Firmware σ) (block : E820Block) (continuation : UInt32) :
    Proc σ Stop (Int32 × E820Block × UInt32) := do
  let reply ← Proc.act (fw.int15 continuation block)
  if reply.carry || reply.eax != e820Signature then
    return ((enterProtectedMode fw.cr0 (-1)).toInt32, reply.buffer, continuation)
  else return ((enterProtectedMode fw.cr0 reply.ecx).toInt32, reply.buffer, reply.ebx)

/-! ## `MemDetect` -/

/-- `memInfoStruct`, with what stands in the array `Regions` points to. -/
structure MemInfo where
  regionCount : Nat
  regions : Nat → E820Block

/-- The local variables. -/
structure DetectState where
  memRegions : Nat → E820Block
  block : E820Block
  continuation : UInt32
  regionCount : Nat
  ret : Int32

/-- One pass of the loop, with the test that guards it. A region past the
array may not be stored. -/
def memDetectPass (fw : Firmware σ) (st : DetectState) : Proc σ Stop (DetectState × Bool) :=
  if st.ret > 0 ∧ st.continuation ≠ 0 then
    if st.regionCount < maxE820Regions then do
      let memRegions := Function.update st.memRegions st.regionCount st.block
      let (ret, block, continuation) ← e820NextBlock fw st.block st.continuation
      return (⟨memRegions, block, continuation, st.regionCount + 1, ret⟩, true)
    else Proc.halt .outOfBounds
  else pure (st, false)

/-- `MemDetect`, on a stack that holds `memRegions` and `block`. Each pass fills
a region, so the array bounds the passes. -/
def memDetect (fw : Firmware σ) (memRegions : Nat → E820Block) (block : E820Block) :
    Proc σ Stop MemInfo := do
  let (ret, block, continuation) ← e820NextBlock fw block 0
  let st ← Proc.iterate .unfinished (memDetectPass fw) (maxE820Regions + 2)
    ⟨memRegions, block, continuation, 0, ret⟩
  return ⟨st.regionCount, st.memRegions⟩

/-! ## Maps -/

/-- A call that delivers the block: no carry, the signature, a size between
one byte and the 24 asked for, and the block in the buffer. -/
structure E820Reply.Gives (reply : E820Reply) (block : E820Block) : Prop where
  carry : reply.carry = false
  signature : reply.eax = e820Signature
  size : 1 ≤ reply.ecx.toNat ∧ reply.ecx.toNat ≤ 24
  buffer : reply.buffer = block

/-- From the continuation on, the firmware delivers these blocks, one a call.
It is 0 if there are none left. -/
def Continues (fw : Firmware σ) : List E820Block → UInt32 → E820Block → σ → Prop
  | [], continuation, _, _ => continuation = 0
  | block :: rest, continuation, buffer, s =>
    let r := fw.int15 continuation buffer s
    continuation ≠ 0 ∧ r.1.Gives block ∧ Continues fw rest r.1.ebx block r.2

/-- The firmware delivers the map: the first block on continuation 0, and the
others from there on. -/
def Delivers (fw : Firmware σ) : List E820Block → E820Block → σ → Prop
  | [], _, _ => False
  | block :: rest, buffer, s =>
    let r := fw.int15 0 buffer s
    r.1.Gives block ∧ Continues fw rest r.1.ebx block r.2

/-- The map that has been recorded: as many regions as it has blocks, and
these in order. -/
def MemInfo.Records (info : MemInfo) (map : List E820Block) : Prop :=
  info.regionCount = map.length ∧ ∀ i, (h : i < map.length) → info.regions i = map.get ⟨i, h⟩

/-- A size that is delivered comes back positive, whatever CR0 holds. -/
theorem enterProtectedMode_pos {cr0 ecx : UInt32} (hcr0 : cr0.toNat < 2 ^ 31)
    (hecx : 1 ≤ ecx.toNat ∧ ecx.toNat ≤ 24) : (enterProtectedMode cr0 ecx).toInt32 > 0 := by
  have hlow : (ecx &&& 0xFFFF).toNat = ecx.toNat := by
    rw [UInt32.toNat_and]
    show ecx.toNat &&& (2 ^ 16 - 1) = _
    rw [Nat.and_two_pow_sub_one_eq_mod]
    omega
  have hhigh : (cr0 &&& 0xFFFF0000).toNat < 2 ^ 31 := by
    rw [UInt32.toNat_and]
    exact Nat.lt_of_le_of_lt Nat.and_le_left hcr0
  have hor : (enterProtectedMode cr0 ecx).toNat
      = (cr0 &&& 0xFFFF0000).toNat ||| (ecx &&& 0xFFFF).toNat := UInt32.toNat_or _ _
  have hlt : (enterProtectedMode cr0 ecx).toNat < 2 ^ 31 := by
    rw [hor]
    exact Nat.or_lt_two_pow hhigh (by omega)
  have hle : 1 ≤ (enterProtectedMode cr0 ecx).toNat := by
    rw [hor]
    exact Nat.le_trans (by omega) Nat.right_le_or
  show (0 : Int32) < _
  rw [Int32.lt_iff_toInt_lt, Libc.toInt_toInt32 _ hlt]
  show (0 : Int) < _
  omega

/-- **`E820NextBlock`** on a call that delivers. -/
theorem e820NextBlock_gives {fw : Firmware σ} {buffer block : E820Block} {continuation : UInt32}
    {s : σ} (h : (fw.int15 continuation buffer s).1.Gives block) :
    ∃ ret : Int32, ret > 0 ∧ e820NextBlock fw buffer continuation s
      = .ok ((ret, block, (fw.int15 continuation buffer s).1.ebx),
        (fw.int15 continuation buffer s).2) := by
  have hnot : ¬ ((fw.int15 continuation buffer s).1.carry
      || (fw.int15 continuation buffer s).1.eax != e820Signature) = true := by
    rw [h.carry, h.signature]
    decide
  have hcall : (Proc.act (fw.int15 continuation buffer) : Proc σ Stop E820Reply) s
      = .ok ((fw.int15 continuation buffer s).1, (fw.int15 continuation buffer s).2) := rfl
  refine ⟨_, enterProtectedMode_pos fw.paging h.size, ?_⟩
  rw [e820NextBlock, bind_ok hcall, if_neg hnot, h.buffer]
  rfl

/-- The loop is over when the block in hand came with continuation 0. -/
theorem memDetectPass_stops {fw : Firmware σ} {st : DetectState} (h : st.continuation = 0) (s : σ) :
    memDetectPass fw st s = .ok ((st, false), s) := by
  have hstop : ¬ (st.ret > 0 ∧ st.continuation ≠ 0) := fun hgo => hgo.2 h
  rw [memDetectPass, if_neg hstop]
  rfl

/-- The block in hand is stored, and the next one taken. -/
def DetectState.stores (st : DetectState) (block : E820Block) (continuation : UInt32) (ret : Int32) :
    DetectState :=
  ⟨Function.update st.memRegions st.regionCount st.block, block, continuation, st.regionCount + 1,
    ret⟩

theorem memDetectPass_stores {fw : Firmware σ} {st : DetectState} {block : E820Block} {s : σ}
    (hret : st.ret > 0) (hgo : st.continuation ≠ 0) (hroom : st.regionCount < maxE820Regions)
    (h : (fw.int15 st.continuation st.block s).1.Gives block) :
    ∃ ret : Int32, ret > 0 ∧ memDetectPass fw st s
      = .ok ((st.stores block (fw.int15 st.continuation st.block s).1.ebx ret, true),
        (fw.int15 st.continuation st.block s).2) := by
  obtain ⟨ret, hret', hnext⟩ := e820NextBlock_gives h
  refine ⟨ret, hret', ?_⟩
  rw [memDetectPass, if_pos ⟨hret, hgo⟩, if_pos hroom, bind_ok hnext]
  rfl

/-- **The loop of `MemDetect`**, with a block in hand and the rest of the map
to come: it stores that block and all that come but the last. -/
theorem memDetect_loop {fw : Firmware σ} (map : List E820Block) : ∀ (n : Nat) (st : DetectState)
    (s : σ), st.ret > 0 → Continues fw map st.continuation st.block s →
    st.regionCount + map.length ≤ maxE820Regions → map.length < n →
    ∃ st' t, iterate .unfinished (memDetectPass fw) n st s = .ok (st', t) ∧
      st'.regionCount = st.regionCount + map.length ∧
      (∀ i, i < st.regionCount → st'.memRegions i = st.memRegions i) ∧
      ∀ i, i < map.length → st'.memRegions (st.regionCount + i)
        = (st.block :: map).getD i st.block := by
  induction map with
  | nil =>
    intro n st s _ hend _ hn
    obtain ⟨n, rfl⟩ : ∃ m, n = m + 1 := Nat.exists_eq_add_of_le' (Nat.zero_lt_of_lt hn)
    refine ⟨st, s, ?_, rfl, fun _ _ => rfl, ?_⟩
    · rw [iterate_succ, bind_ok (memDetectPass_stops hend s)]
      rfl
    · intro i hi
      simp at hi
  | cons block map ih =>
    intro n st s hret hcont hroom hn
    obtain ⟨n, rfl⟩ : ∃ m, n = m + 1 := Nat.exists_eq_add_of_le' (Nat.zero_lt_of_lt hn)
    rw [List.length_cons] at hroom hn
    obtain ⟨hgo, hgives, hrest⟩ := hcont
    obtain ⟨ret, hret', hpass⟩ := memDetectPass_stores hret hgo (by omega) hgives
    obtain ⟨st', t, hrun, hcount, hkept, hnew⟩ := ih n (st.stores block _ ret) _ hret' hrest
      (by show st.regionCount + 1 + map.length ≤ _; omega) (by omega)
    dsimp only [DetectState.stores] at hcount hkept hnew
    refine ⟨st', t, ?_, ?_, ?_, ?_⟩
    · rw [iterate_succ, bind_ok hpass]
      exact hrun
    · rw [hcount, List.length_cons]
      omega
    · intro i hi
      rw [hkept i (by omega), Function.update_of_ne (by omega)]
    · intro i hi
      cases i with
      | zero =>
        -- the block in hand, which the passes that follow leave alone
        rw [Nat.add_zero, hkept _ (Nat.lt_succ_self _), Function.update_self]
        rfl
      | succ i =>
        have hi' : i < map.length := by
          rw [List.length_cons] at hi
          omega
        rw [show st.regionCount + (i + 1) = st.regionCount + 1 + i by omega, hnew i hi',
          List.getD_cons_succ, List.getD_eq_getElem _ _ (by simp only [List.length_cons]; omega),
          List.getD_eq_getElem _ _ (by simp only [List.length_cons]; omega)]

/-- **`MemDetect` loses the last block**: of every map of up to 256 blocks it
records all but the last, so that it records the map itself never. -/
theorem memDetect_loses_last (fw : Firmware σ) (map : List E820Block) (memRegions : Nat → E820Block)
    (block : E820Block) (s : σ) (h : Delivers fw map block s) (hlen : map.length ≤ 256) :
    ∃ info t, memDetect fw memRegions block s = .ok (info, t) ∧
      info.Records map.dropLast ∧ ¬ info.Records map := by
  cases map with
  | nil => exact h.elim
  | cons first map =>
    obtain ⟨hgives, hrest⟩ := h
    obtain ⟨ret, hret, hnext⟩ := e820NextBlock_gives hgives
    rw [List.length_cons] at hlen
    obtain ⟨st, t, hrun, hcount, -, hnew⟩ := memDetect_loop map (maxE820Regions + 2)
      ⟨memRegions, first, (fw.int15 0 block s).1.ebx, 0, ret⟩ _ hret hrest
      (by show 0 + map.length ≤ 256; omega) (by show map.length < 258; omega)
    dsimp only at hcount hnew
    rw [Nat.zero_add] at hcount
    refine ⟨⟨st.regionCount, st.memRegions⟩, t, ?_, ⟨?_, ?_⟩, ?_⟩
    · rw [memDetect, bind_ok hnext]
      dsimp only
      rw [bind_ok hrun]
      rfl
    · dsimp only
      rw [hcount, List.length_dropLast, List.length_cons, Nat.add_sub_cancel]
    · intro i hi
      have hi' : i < map.length := by
        rw [List.length_dropLast, List.length_cons] at hi
        omega
      have hregion := hnew i hi'
      rw [Nat.zero_add] at hregion
      show st.memRegions i = _
      rw [hregion, List.getD_eq_getElem _ _ (by rw [List.length_cons]; omega), List.get_eq_getElem,
        List.getElem_dropLast]
    · -- one block is missing, so the counts differ
      rintro ⟨hall, -⟩
      dsimp only at hall
      rw [hcount, List.length_cons] at hall
      omega

/-! ## A firmware with a table -/

/-- The firmware that delivers the blocks of a table; the continuation is the
index of the next one. -/
def tableFirmware (map : List E820Block) : Firmware Unit where
  int15 continuation buffer s :=
    (⟨false, e820Signature,
      if continuation.toNat + 1 < map.length then continuation + 1 else 0, 24,
      map.getD continuation.toNat buffer⟩, s)
  cr0 := 0x10
  paging := by decide

/-- Low memory and one range above it. -/
def sampleMap : List E820Block := [⟨0, 0x9FC00, 1, 1⟩, ⟨0x100000, 0x7EE0000, 1, 1⟩]

theorem sampleMap_delivered (block : E820Block) :
    Delivers (tableFirmware sampleMap) sampleMap block () := by
  have hsize : 1 ≤ (24 : UInt32).toNat ∧ (24 : UInt32).toNat ≤ 24 := by decide
  have hnext : (0 : UInt32) + 1 ≠ 0 := by decide
  exact ⟨⟨rfl, rfl, hsize, rfl⟩, hnext, ⟨rfl, rfl, hsize, rfl⟩, rfl⟩

theorem memDetect_loses_last_sample : ∃ info t,
    memDetect (tableFirmware sampleMap) (fun _ => ⟨0, 0, 0, 0⟩) ⟨0, 0, 0, 0⟩ () = .ok (info, t) ∧
      info.Records [⟨0, 0x9FC00, 1, 1⟩] ∧ ¬ info.Records sampleMap :=
  memDetect_loses_last (tableFirmware sampleMap) sampleMap _ _ () (sampleMap_delivered _) (by decide)

/-- A map of two blocks comes out as one of one. -/
theorem memDetect_drops_block :
    ¬ ∀ (fw : Firmware Unit) (map : List E820Block) (memRegions : Nat → E820Block)
      (block : E820Block), Delivers fw map block () → map.length ≤ 256 →
      ∃ info t, memDetect fw memRegions block () = .ok (info, t) ∧ info.Records map := by
  intro h
  obtain ⟨info, t, hrun, hall, -⟩ := h (tableFirmware sampleMap) sampleMap (fun _ => ⟨0, 0, 0, 0⟩)
    ⟨0, 0, 0, 0⟩ (sampleMap_delivered _) (by decide)
  have hcount : passes (fun info _ => info.regionCount == 1)
      (memDetect (tableFirmware sampleMap) (fun _ => ⟨0, 0, 0, 0⟩) ⟨0, 0, 0, 0⟩ ()) = true := by
    decide +kernel
  rw [hrun] at hcount
  have hone : info.regionCount = 1 := by simpa [passes] using hcount
  rw [hone] at hall
  cases hall

end Netclover.Stage2
