import Mathlib.Logic.Function.Basic
import Netclover.Lib.Paging

/-!
# Page tables (`kernel/prekernel.asm`, `kernel/memory/pager.c`)

The tables the kernel is entered with, written down by the assembler, and the
tables `initPaging` builds under them: its stores go through the translation
that CR3 stands for, and only the last step changes CR3. Both translate the
kernel's gigabyte and the first 2 MiB alike (`initPaging_translates`).
-/

namespace Netclover.Kernel

open Paging

/-! ## Tables in the kernel's window -/

def kernelPage : UInt64 := 0xffffffffc0000000

/-- A table at a 4 KiB-aligned address of the kernel's window. -/
structure Table where
  addr : UInt64
  aligned : addr.toNat % 2 ^ 12 = 0
  inKernel : kernelPage.toNat ≤ addr.toNat

def getAddress (addr : UInt64) : UInt64 := addr - kernelPage

/-- `&table[i]`. -/
def elem (table : UInt64) (i : Nat) : UInt64 := table + 8 * UInt64.ofNat i

/-- Where a table is in physical memory. -/
def Table.phys (t : Table) : Nat := (getAddress t.addr).toNat

theorem toNat_kernelPage : kernelPage.toNat = 2 ^ 64 - 2 ^ 30 := rfl

theorem toNat_getAddress {v : UInt64} (h : kernelPage.toNat ≤ v.toNat) :
    (getAddress v).toNat = v.toNat - (2 ^ 64 - 2 ^ 30) := by
  rw [getAddress, UInt64.toNat_sub_of_le _ _ (by rw [UInt64.le_iff_toNat_le]; exact h),
    toNat_kernelPage]

theorem Table.toNat_addr (t : Table) : t.addr.toNat = 2 ^ 64 - 2 ^ 30 + t.phys := by
  have h := t.inKernel
  rw [Table.phys, toNat_getAddress h]
  rw [toNat_kernelPage] at h
  omega

theorem Table.phys_lt (t : Table) : t.phys < 2 ^ 30 := by
  have h := t.toNat_addr
  have hlt := t.addr.toNat_lt
  omega

theorem Table.phys_aligned (t : Table) : t.phys % 2 ^ 12 = 0 := by
  have h := t.toNat_addr
  have haligned := t.aligned
  omega

/-- The element of a table, in the window and in physical memory. -/
theorem Table.toNat_elem (t : Table) {i : Nat} (hi : i < 512) :
    kernelPage.toNat ≤ (elem t.addr i).toNat ∧
      (getAddress (elem t.addr i)).toNat = t.phys + 8 * i := by
  have haddr := t.toNat_addr
  have hlt := t.phys_lt
  have haligned := t.phys_aligned
  have h8 : (8 : UInt64).toNat = 8 := rfl
  have helem : (elem t.addr i).toNat = t.addr.toNat + 8 * i := by
    rw [elem, UInt64.toNat_add, UInt64.toNat_mul, UInt64.toNat_ofNat', h8]
    omega
  have hin : kernelPage.toNat ≤ (elem t.addr i).toNat := by
    rw [toNat_kernelPage]
    omega
  refine ⟨hin, ?_⟩
  rw [toNat_getAddress hin]
  omega

/-! ## Entries -/

/-- Setting the present bit of an even address. -/
theorem toNat_or_one {a : UInt64} (h : a.toNat % 2 = 0) : (a ||| 1).toNat = a.toNat + 1 := by
  have hshift : (a.toNat / 2) <<< 1 = a.toNat := by
    rw [Nat.shiftLeft_eq]
    omega
  have hor := Nat.shiftLeft_add_eq_or_of_lt (by decide : 1 < 2 ^ 1) (a.toNat / 2)
  rw [hshift] at hor
  rw [UInt64.toNat_or]
  exact hor.symm

/-- `getAddress(table) | 1`. -/
theorem Table.pointsTo (t : Table) : PointsTo (getAddress t.addr ||| 1) t.phys := by
  have haligned := t.phys_aligned
  have hlt := t.phys_lt
  have heven : (getAddress t.addr).toNat % 2 = 0 := by
    show t.phys % 2 = 0
    omega
  exact pointsTo_of_toNat (toNat_or_one heven) haligned (by omega)

/-- The entry `i` of a page directory that maps one page after the other. -/
theorem toNat_pageEntry {i : Nat} (hi : i < 512) :
    (UInt64.ofNat i <<< 21 ||| 0b10000011).toNat = i * 2 ^ 21 + 0x83 := by
  have hshift : (UInt64.ofNat i <<< 21).toNat = i <<< 21 := by
    rw [UInt64.toNat_shiftLeft, UInt64.toNat_ofNat']
    show (i % 2 ^ 64) <<< 21 % 2 ^ 64 = _
    rw [Nat.shiftLeft_eq, Nat.shiftLeft_eq]
    omega
  have hor := Nat.shiftLeft_add_eq_or_of_lt (by decide : 0x83 < 2 ^ 21) i
  rw [UInt64.toNat_or, hshift]
  show i <<< 21 ||| 0x83 = _
  rw [← hor, Nat.shiftLeft_eq]

/-! ## Addresses in the two windows -/

/-- The fields of an address of the kernel's gigabyte. -/
theorem bits_kernel {v : UInt64} (h : kernelPage ≤ v) : canonical v = true ∧ bits v 39 9 = 511 ∧
    bits v 30 9 = 511 ∧ bits v 21 9 < 512 ∧
    bits v 21 9 * 2 ^ 21 + bits v 0 21 = (getAddress v).toNat := by
  rw [UInt64.le_iff_toNat_le] at h
  have hlt := v.toNat_lt
  rw [toNat_getAddress h]
  rw [toNat_kernelPage] at h
  simp only [canonical, bits, Bool.or_eq_true, beq_iff_eq]
  omega

/-- The fields of an address of the first gigabyte. -/
theorem bits_low {v : UInt64} (h : v.toNat < 2 ^ 30) : canonical v = true ∧ bits v 39 9 = 0 ∧
    bits v 30 9 = 0 ∧ bits v 21 9 < 512 ∧ bits v 21 9 * 2 ^ 21 + bits v 0 21 = v.toNat := by
  simp only [canonical, bits, Bool.or_eq_true, beq_iff_eq]
  omega

/-! ## The tables of `prekernel.asm` -/

/-- Where the assembler's section is loaded: `init_page_pml4` is its start,
`$$`, and the section is aligned to 4 KiB for `init_page_dir`. -/
structure Prekernel where
  pml4 : Table
  fits : pml4.phys + 4 * 4096 ≤ 2 ^ 30

namespace Prekernel

variable (K : Prekernel)

def initPageDirTab : UInt64 := K.pml4.addr + 0x1000

def kernPageDirTab : UInt64 := K.pml4.addr + 0x2000

def initPageDir : UInt64 := K.pml4.addr + 0x3000

/-- `((label-$$-0xffffffffc0000000) | 1) + $$`. -/
def pointer (label : UInt64) : UInt64 := ((label - K.pml4.addr - kernelPage) ||| 1) + K.pml4.addr

/-- The quadword `k` of the section. -/
def word (k : Nat) : UInt64 :=
  if k < 512 then
    if k = 0 then K.pointer K.initPageDirTab
    else if k = 511 then K.pointer K.kernPageDirTab
    else 0
  else if k < 1024 then if k = 512 then K.pointer K.initPageDir else 0
  else if k < 1536 then if k = 1024 + 511 then K.pointer K.initPageDir else 0
  else UInt64.ofNat (k - 1536) <<< 21 ||| 0b10000011

/-- The section is in memory. -/
def Loaded (mem : Mem) : Prop := ∀ k, k < 2048 → mem (K.pml4.phys + 8 * k) = K.word k

/-- `mov eax, init_page_pml4 - 0xffffffffc0000000; mov cr3, eax`. -/
def cr3 : UInt64 := (K.pml4.addr - kernelPage).toUInt32.toUInt64

theorem frame_cr3 : frame K.cr3 = K.pml4.phys := by
  have haligned := K.pml4.phys_aligned
  have hlt := K.pml4.phys_lt
  have hcr3 : K.cr3.toNat = K.pml4.phys % 2 ^ 32 := by
    rw [cr3, UInt32.toNat_toUInt64, UInt64.toNat_toUInt32]
    rfl
  rw [frame, bits, hcr3]
  omega

theorem pointer_pointsTo {label : UInt64} {n : Nat}
    (hlabel : label = K.pml4.addr + UInt64.ofNat (4096 * n)) (hn : n < 4) :
    PointsTo (K.pointer label) (K.pml4.phys + 4096 * n) := by
  have haddr := K.pml4.toNat_addr
  have haligned := K.pml4.phys_aligned
  have hlt := K.pml4.phys_lt
  have hdiff : (label - K.pml4.addr - kernelPage).toNat = 4096 * n + 2 ^ 30 := by
    rw [hlabel, UInt64.add_comm, UInt64.add_sub_cancel, UInt64.toNat_sub, UInt64.toNat_ofNat',
      toNat_kernelPage]
    omega
  refine pointsTo_of_toNat ?_ (by omega) (by omega)
  rw [pointer, UInt64.toNat_add, toNat_or_one (by omega), hdiff]
  omega

/-- **The tables of `prekernel.asm`** map the kernel's gigabyte and the first
gigabyte to the same memory. -/
theorem walk_loaded {mem : Mem} (h : K.Loaded mem) :
    (∀ v, kernelPage ≤ v → walk mem K.cr3 v = some (getAddress v).toNat) ∧
    ∀ v : UInt64, v.toNat < 2 ^ 30 → walk mem K.cr3 v = some v.toNat := by
  have hdir : ∀ n i, n < 4 → i < 512 → mem (K.pml4.phys + 4096 * n + 8 * i)
      = K.word (512 * n + i) := by
    intro n i hn hi
    rw [← h (512 * n + i) (by omega)]
    congr 1
    omega
  have hpage : ∀ i, i < 512 → MapsLarge (mem (K.pml4.phys + 4096 * 3 + 8 * i)) i := by
    intro i hi
    rw [hdir 3 i (by decide) hi, word, if_neg (by omega), if_neg (by omega), if_neg (by omega),
      Nat.add_sub_cancel_left]
    exact mapsLarge_of_toNat (toNat_pageEntry hi) (by omega)
  have hroot : ∀ i, i < 512 → mem (frame K.cr3 + 8 * i) = K.word i := by
    intro i hi
    rw [K.frame_cr3]
    exact h i (by omega)
  constructor
  · intro v hv
    obtain ⟨hcanonical, h39, h30, h21, hjoin⟩ := bits_kernel hv
    have hpdpt : PointsTo (mem (frame K.cr3 + 8 * bits v 39 9)) (K.pml4.phys + 4096 * 2) := by
      rw [h39, hroot 511 (by decide)]
      exact K.pointer_pointsTo rfl (by decide)
    have hpd : PointsTo (mem (K.pml4.phys + 4096 * 2 + 8 * bits v 30 9))
        (K.pml4.phys + 4096 * 3) := by
      rw [h30, hdir 2 511 (by decide) (by decide)]
      exact K.pointer_pointsTo rfl (by decide)
    rw [walk_large hcanonical hpdpt hpd (hpage _ h21), hjoin]
  · intro v hv
    obtain ⟨hcanonical, h39, h30, h21, hjoin⟩ := bits_low hv
    have hpdpt : PointsTo (mem (frame K.cr3 + 8 * bits v 39 9)) (K.pml4.phys + 4096 * 1) := by
      rw [h39, hroot 0 (by decide)]
      exact K.pointer_pointsTo rfl (by decide)
    have hpd : PointsTo (mem (K.pml4.phys + 4096 * 1 + 8 * bits v 30 9))
        (K.pml4.phys + 4096 * 3) := by
      rw [h30, hdir 1 0 (by decide) (by decide)]
      exact K.pointer_pointsTo rfl (by decide)
    rw [walk_large hcanonical hpdpt hpd (hpage _ h21), hjoin]

end Prekernel

/-! ## `pager.c` -/

/-- The arrays of `pager.c`. -/
inductive TableName where
  | pml4
  | pageDirTab
  | basePageDir
  | kernelPageDir
  deriving DecidableEq, Repr

/-- Where they are. -/
structure Placement where
  table : TableName → Table
  distinct : ∀ a b, (table a).addr = (table b).addr → a = b

/-- Physical memory and CR3. -/
structure Mmu where
  mem : Mem
  cr3 : UInt64

/-- `*ptr = value`, through the translation of the moment. -/
def Mmu.store (s : Mmu) (ptr value : UInt64) : Option Mmu :=
  (walk s.mem s.cr3 ptr).map fun pa => { s with mem := Function.update s.mem pa value }

/-- `(i << 21) | 0b10000011` with the `uint16_t` counter: an `int`, converted
to `uint64_t`. -/
def pageEntry (i : UInt16) : UInt64 :=
  (i.toUInt32.toInt32 <<< 21 ||| 0b10000011).toInt64.toUInt64

/-- The first `n` passes of the loop. -/
def fillKernelPageDir (kernelPageDir : UInt64) : Nat → Mmu → Option Mmu
  | 0, s => some s
  | n + 1, s => do
    let s ← fillKernelPageDir kernelPageDir n s
    s.store (elem kernelPageDir n) (pageEntry (UInt16.ofNat n))

def initPaging (P : Placement) (s : Mmu) : Option Mmu := do
  let pml4 := (P.table .pml4).addr
  let pageDirTab := (P.table .pageDirTab).addr
  let basePageDir := (P.table .basePageDir).addr
  let kernelPageDir := (P.table .kernelPageDir).addr
  let s ← s.store (elem pml4 0) (getAddress pageDirTab ||| 1)
  let s ← s.store (elem pml4 511) (getAddress pageDirTab ||| 1)
  let s ← s.store (elem pageDirTab 0) (getAddress basePageDir ||| 1)
  let s ← s.store (elem pageDirTab 511) (getAddress kernelPageDir ||| 1)
  let s ← s.store (elem basePageDir 0) 0b10000011
  let s ← fillKernelPageDir kernelPageDir 512 s
  return { s with cr3 := getAddress pml4 }

theorem toNat_pageEntry_int {i : Nat} (hi : i < 512) :
    (pageEntry (UInt16.ofNat i)).toNat = i * 2 ^ 21 + 0x83 := by
  have h : ∀ i : Fin 512, (pageEntry (UInt16.ofNat i.val)).toNat = i.val * 2 ^ 21 + 0x83 := by
    decide +kernel
  exact h ⟨i, hi⟩

/-! ## Stores under the tables of `prekernel.asm` -/

/-- Entry `i` of a table. -/
def Mmu.slot (s : Mmu) (P : Placement) (a : TableName) (i : Nat) : UInt64 :=
  s.mem ((P.table a).phys + 8 * i)

/-- The arrays have their initial values. -/
def Placement.ZeroFilled (P : Placement) (mem : Mem) : Prop :=
  ∀ a i, i < 512 → mem ((P.table a).phys + 8 * i) = 0

/-- The tables of `prekernel.asm` are in force and the arrays apart from
them. -/
structure Running (K : Prekernel) (P : Placement) (s : Mmu) : Prop where
  cr3 : s.cr3 = K.cr3
  loaded : K.Loaded s.mem
  apart : ∀ a i k, i < 512 → k < 2048 → (P.table a).phys + 8 * i ≠ K.pml4.phys + 8 * k

variable {K : Prekernel} {P : Placement}

theorem Placement.slot_inj (P : Placement) {a b : TableName} {i j : Nat} (hi : i < 512)
    (hj : j < 512) : (P.table a).phys + 8 * i = (P.table b).phys + 8 * j ↔ a = b ∧ i = j := by
  constructor
  · intro h
    have ha := (P.table a).phys_aligned
    have hb := (P.table b).phys_aligned
    have hphys : (P.table a).phys = (P.table b).phys := by omega
    refine ⟨P.distinct a b ?_, by omega⟩
    rw [← UInt64.toNat_inj, Table.toNat_addr, Table.toNat_addr, hphys]
  · rintro ⟨rfl, rfl⟩
    rfl

/-- Zeros are apart from the tables of `prekernel.asm`, none of which is
empty. -/
theorem running_start {mem : Mem} (hloaded : K.Loaded mem) (hzero : P.ZeroFilled mem) :
    Running K P ⟨mem, K.cr3⟩ where
  cr3 := rfl
  loaded := hloaded
  apart a i k hi hk heq := by
    have ha := (P.table a).phys_aligned
    have hK := K.pml4.phys_aligned
    -- each of the four pages has an entry with the present bit
    have hentry : ∃ e, e < 512 ∧ K.word (512 * (k / 512) + e) ≠ 0 := by
      have hpresent : ∀ e : UInt64, present e = true → e ≠ 0 := by
        intro e he hzero
        rw [hzero] at he
        exact absurd he (by decide)
      have hpage : k / 512 < 4 := by omega
      have hpointer : ∀ n, n < 4 → K.pointer (K.pml4.addr + UInt64.ofNat (4096 * n)) ≠ 0 :=
        fun n hn => hpresent _ (K.pointer_pointsTo rfl hn).present
      generalize hn : k / 512 = n at hpage
      rcases n with _ | _ | _ | _ | n
      · exact ⟨0, by decide, hpointer 1 (by decide)⟩
      · exact ⟨0, by decide, hpointer 3 (by decide)⟩
      · exact ⟨511, by decide, hpointer 3 (by decide)⟩
      · refine ⟨0, by decide, ?_⟩
        show UInt64.ofNat 0 <<< 21 ||| 0b10000011 ≠ 0
        decide
      · omega
    obtain ⟨e, he, hne⟩ := hentry
    apply hne
    rw [← hloaded _ (by omega), ← hzero a e he]
    congr 1
    omega

/-- **A store into one of the arrays** changes that entry, of all the arrays,
and leaves the tables in force alone. -/
theorem Running.store {s : Mmu} (h : Running K P s) (b : TableName) {j : Nat} (hj : j < 512)
    (value : UInt64) : ∃ s', s.store (elem (P.table b).addr j) value = some s' ∧ Running K P s' ∧
      ∀ a i, i < 512 → s'.slot P a i = if a = b ∧ i = j then value else s.slot P a i := by
  obtain ⟨hin, hphys⟩ := (P.table b).toNat_elem hj
  have hwalk := (K.walk_loaded h.loaded).1 (elem (P.table b).addr j)
    (by rw [UInt64.le_iff_toNat_le]; exact hin)
  rw [hphys, ← h.cr3] at hwalk
  refine ⟨{ s with mem := Function.update s.mem ((P.table b).phys + 8 * j) value }, ?_, ?_, ?_⟩
  · rw [Mmu.store, hwalk]
    rfl
  · refine ⟨h.cr3, fun k hk => ?_, h.apart⟩
    have hne : K.pml4.phys + 8 * k ≠ (P.table b).phys + 8 * j := (h.apart b j k hj hk).symm
    dsimp only
    rw [Function.update_of_ne hne]
    exact h.loaded k hk
  · intro a i hi
    simp only [Mmu.slot]
    by_cases hsame : a = b ∧ i = j
    · obtain ⟨rfl, rfl⟩ := hsame
      rw [if_pos ⟨rfl, rfl⟩, Function.update_self]
    · rw [if_neg hsame, Function.update_of_ne fun e => hsame ((P.slot_inj hi hj).mp e)]

/-- The loop fills the page directory and nothing else. -/
theorem Running.fill {s : Mmu} (h : Running K P s) : ∀ n, n ≤ 512 →
    ∃ s', fillKernelPageDir (P.table .kernelPageDir).addr n s = some s' ∧ Running K P s' ∧
      ∀ a i, i < 512 → s'.slot P a i = if a = .kernelPageDir ∧ i < n
        then pageEntry (UInt16.ofNat i) else s.slot P a i := by
  intro n
  induction n with
  | zero =>
    intro _
    refine ⟨s, rfl, h, fun a i _ => ?_⟩
    rw [if_neg fun e => Nat.not_lt_zero i e.2]
  | succ n ih =>
    intro hn
    obtain ⟨s₁, hfill, hrun, hslots⟩ := ih (by omega)
    obtain ⟨s₂, hstore, hrun', hslots'⟩ := hrun.store .kernelPageDir (by omega : n < 512)
      (pageEntry (UInt16.ofNat n))
    refine ⟨s₂, ?_, hrun', fun a i hi => ?_⟩
    · rw [fillKernelPageDir, hfill]
      exact hstore
    · rw [hslots' a i hi, hslots a i hi]
      by_cases ha : a = .kernelPageDir
      · rcases Nat.lt_trichotomy i n with hlt | rfl | hgt
        · rw [if_neg (by omega), if_pos ⟨ha, hlt⟩, if_pos ⟨ha, by omega⟩]
        · rw [if_pos ⟨ha, rfl⟩, if_pos ⟨ha, by omega⟩]
        · rw [if_neg (by omega), if_neg (by omega), if_neg (by omega)]
      · rw [if_neg fun e => ha e.1, if_neg fun e => ha e.1, if_neg fun e => ha e.1]

/-! ## The tables of `initPaging` -/

/-- What the arrays hold after `initPaging`. -/
def Placement.built (P : Placement) : TableName → Nat → UInt64
  | .pml4, i => if i = 0 ∨ i = 511 then getAddress (P.table .pageDirTab).addr ||| 1 else 0
  | .pageDirTab, i =>
    if i = 0 then getAddress (P.table .basePageDir).addr ||| 1
    else if i = 511 then getAddress (P.table .kernelPageDir).addr ||| 1
    else 0
  | .basePageDir, i => if i = 0 then 0b10000011 else 0
  | .kernelPageDir, i => pageEntry (UInt16.ofNat i)

/-- **`initPaging`** builds its tables, and leaves those of `prekernel.asm`. -/
theorem Running.initPaging {s : Mmu} (h : Running K P s) (hzero : P.ZeroFilled s.mem) :
    ∃ s', Kernel.initPaging P s = some s' ∧ s'.cr3 = getAddress (P.table .pml4).addr ∧
      K.Loaded s'.mem ∧ ∀ a i, i < 512 → s'.slot P a i = P.built a i := by
  obtain ⟨s₁, hs₁, h₁, e₁⟩ := h.store .pml4 (by decide : 0 < 512)
    (getAddress (P.table .pageDirTab).addr ||| 1)
  obtain ⟨s₂, hs₂, h₂, e₂⟩ := h₁.store .pml4 (by decide : 511 < 512)
    (getAddress (P.table .pageDirTab).addr ||| 1)
  obtain ⟨s₃, hs₃, h₃, e₃⟩ := h₂.store .pageDirTab (by decide : 0 < 512)
    (getAddress (P.table .basePageDir).addr ||| 1)
  obtain ⟨s₄, hs₄, h₄, e₄⟩ := h₃.store .pageDirTab (by decide : 511 < 512)
    (getAddress (P.table .kernelPageDir).addr ||| 1)
  obtain ⟨s₅, hs₅, h₅, e₅⟩ := h₄.store .basePageDir (by decide : 0 < 512) 0b10000011
  obtain ⟨s₆, hs₆, h₆, e₆⟩ := h₅.fill 512 (Nat.le_refl _)
  refine ⟨{ s₆ with cr3 := getAddress (P.table .pml4).addr }, ?_, rfl, h₆.loaded, ?_⟩
  · simp only [Kernel.initPaging, hs₁, hs₂, hs₃, hs₄, hs₅, hs₆, Option.bind_eq_bind,
      Option.bind_some]
    rfl
  · -- what was not stored is the zero it was
    intro a i hi
    have hslot : s.slot P a i = 0 := hzero a i hi
    refine Eq.trans (b := s₆.slot P a i) rfl ?_
    rw [e₆ a i hi, e₅ a i hi, e₄ a i hi, e₃ a i hi, e₂ a i hi, e₁ a i hi, hslot]
    cases a with
    | pml4 =>
      by_cases hfirst : i = 0
      · simp [Placement.built, hfirst]
      · by_cases hlast : i = 511
        · simp [Placement.built, hlast]
        · simp [Placement.built, hfirst, hlast]
    | pageDirTab =>
      by_cases hfirst : i = 0
      · simp [Placement.built, hfirst]
      · by_cases hlast : i = 511
        · simp [Placement.built, hlast]
        · simp [Placement.built, hfirst, hlast]
    | basePageDir => simp [Placement.built]
    | kernelPageDir => simp [Placement.built, hi]

section

variable {s : Mmu} (hcr3 : s.cr3 = getAddress (P.table .pml4).addr)
  (hslots : ∀ a i, i < 512 → s.slot P a i = P.built a i)

include hcr3

theorem frame_built : frame s.cr3 = (P.table .pml4).phys := by
  have haligned := (P.table .pml4).phys_aligned
  have hlt := (P.table .pml4).phys_lt
  have htoNat : s.cr3.toNat = (P.table .pml4).phys := by rw [hcr3, Table.phys]
  rw [frame, bits, htoNat]
  omega

include hslots

/-- The first entry and the last of `pml4` point to the same table. -/
theorem built_pml4e {v : UInt64} (h39 : bits v 39 9 = 0 ∨ bits v 39 9 = 511) :
    PointsTo (s.mem (frame s.cr3 + 8 * bits v 39 9)) (P.table .pageDirTab).phys := by
  have hentry : s.mem ((P.table .pml4).phys + 8 * bits v 39 9)
      = P.built .pml4 (bits v 39 9) := hslots .pml4 _ (by omega)
  rw [frame_built hcr3, hentry, Placement.built, if_pos h39]
  exact (P.table .pageDirTab).pointsTo

/-- Through the last entry of `pageDirTab`. -/
theorem walk_built_last {v : UInt64} (hv : canonical v = true)
    (h39 : bits v 39 9 = 0 ∨ bits v 39 9 = 511) (h30 : bits v 30 9 = 511) :
    walk s.mem s.cr3 v = some (bits v 21 9 * 2 ^ 21 + bits v 0 21) := by
  have h21 : bits v 21 9 < 512 := Nat.mod_lt _ (by decide)
  have hentry : s.mem ((P.table .pageDirTab).phys + 8 * 511) = P.built .pageDirTab 511 :=
    hslots .pageDirTab 511 (by decide)
  have hpage : s.mem ((P.table .kernelPageDir).phys + 8 * bits v 21 9)
      = P.built .kernelPageDir (bits v 21 9) := hslots .kernelPageDir _ h21
  have hpdpte : PointsTo (s.mem ((P.table .pageDirTab).phys + 8 * bits v 30 9))
      (P.table .kernelPageDir).phys := by
    rw [h30, hentry]
    exact (P.table .kernelPageDir).pointsTo
  refine walk_large hv (built_pml4e hcr3 hslots h39) hpdpte ?_
  rw [hpage]
  exact mapsLarge_of_toNat (toNat_pageEntry_int h21) (by omega)

/-- Through the first entry of `pageDirTab`, and the one page of `basePageDir`. -/
theorem walk_built_first {v : UInt64} (hv : canonical v = true)
    (h39 : bits v 39 9 = 0 ∨ bits v 39 9 = 511) (h30 : bits v 30 9 = 0) (h21 : bits v 21 9 = 0) :
    walk s.mem s.cr3 v = some (0 * 2 ^ 21 + bits v 0 21) := by
  have hentry : s.mem ((P.table .pageDirTab).phys + 8 * 0) = P.built .pageDirTab 0 :=
    hslots .pageDirTab 0 (by decide)
  have hpage : s.mem ((P.table .basePageDir).phys + 8 * 0) = P.built .basePageDir 0 :=
    hslots .basePageDir 0 (by decide)
  have hpdpte : PointsTo (s.mem ((P.table .pageDirTab).phys + 8 * bits v 30 9))
      (P.table .basePageDir).phys := by
    rw [h30, hentry]
    exact (P.table .basePageDir).pointsTo
  refine walk_large hv (built_pml4e hcr3 hslots h39) hpdpte ?_
  rw [h21, hpage]
  exact mapsLarge_of_toNat rfl (by decide)

/-- The walk through the tables of `initPaging`, in the two windows. -/
theorem walk_built :
    (∀ v, kernelPage ≤ v → walk s.mem s.cr3 v = some (getAddress v).toNat) ∧
    ∀ v : UInt64, v.toNat < 2 ^ 21 → walk s.mem s.cr3 v = some v.toNat := by
  constructor
  · intro v hv
    obtain ⟨hcanonical, h39, h30, -, hjoin⟩ := bits_kernel hv
    rw [walk_built_last hcr3 hslots hcanonical (.inr h39) h30, hjoin]
  · intro v hv
    obtain ⟨hcanonical, h39, h30, -, hjoin⟩ := bits_low (by omega : v.toNat < 2 ^ 30)
    have h21 : bits v 21 9 = 0 := by
      rw [bits]
      omega
    rw [h21] at hjoin
    rw [walk_built_first hcr3 hslots hcanonical (.inl h39) h30 h21, hjoin]

end

/-- **`initPaging` changes no translation** of the kernel's gigabyte and of
the first 2 MiB: the walk from the new CR3 goes where the walk from the old
one went, before the call and after it, and that is the kernel's part of
physical memory and the address itself. -/
theorem initPaging_translates (K : Prekernel) (P : Placement) {mem : Mem} (hloaded : K.Loaded mem)
    (hzero : P.ZeroFilled mem) : ∃ s, initPaging P ⟨mem, K.cr3⟩ = some s ∧
      (∀ v, kernelPage ≤ v → walk s.mem s.cr3 v = some (v - kernelPage).toNat ∧
        walk mem K.cr3 v = walk s.mem s.cr3 v ∧ walk s.mem K.cr3 v = walk s.mem s.cr3 v) ∧
      ∀ v, v.toNat < 2 ^ 21 → walk s.mem s.cr3 v = some v.toNat ∧
        walk mem K.cr3 v = walk s.mem s.cr3 v ∧ walk s.mem K.cr3 v = walk s.mem s.cr3 v := by
  obtain ⟨s, hrun, hcr3, hleft, hslots⟩ := (running_start hloaded hzero).initPaging hzero
  obtain ⟨hkernel, hlow⟩ := walk_built hcr3 hslots
  obtain ⟨hbefore, hbefore'⟩ := K.walk_loaded hloaded
  obtain ⟨hafter, hafter'⟩ := K.walk_loaded hleft
  refine ⟨s, hrun, fun v hv => ?_, fun v hv => ?_⟩
  · rw [hkernel v hv, hbefore v hv, hafter v hv]
    exact ⟨rfl, rfl, rfl⟩
  · rw [hlow v hv, hbefore' v (by omega), hafter' v (by omega)]
    exact ⟨rfl, rfl, rfl⟩

/-! ## A memory map -/

def samplePrekernel : Prekernel := ⟨⟨0xffffffffc0200000, by decide, by decide⟩, by decide⟩

def samplePlacement : Placement where
  table
    | .pml4 => ⟨0xffffffffc0300000, by decide, by decide⟩
    | .pageDirTab => ⟨0xffffffffc0301000, by decide, by decide⟩
    | .basePageDir => ⟨0xffffffffc0302000, by decide, by decide⟩
    | .kernelPageDir => ⟨0xffffffffc0303000, by decide, by decide⟩
  distinct a b := by cases a <;> cases b <;> simp

/-- Memory that holds the assembler's section and zeros. -/
def sampleMem : Mem := fun pa =>
  if 0x200000 ≤ pa ∧ pa < 0x204000 then samplePrekernel.word ((pa - 0x200000) / 8) else 0

theorem sample_loaded : samplePrekernel.Loaded sampleMem := by
  intro k hk
  have hphys : samplePrekernel.pml4.phys = 0x200000 := by decide
  have hin : 0x200000 ≤ 0x200000 + 8 * k ∧ 0x200000 + 8 * k < 0x204000 := by omega
  have hindex : (0x200000 + 8 * k - 0x200000) / 8 = k := by omega
  rw [hphys, sampleMem, if_pos hin, hindex]

theorem sample_zeroFilled : samplePlacement.ZeroFilled sampleMem := by
  intro a i hi
  have hphys : 0x300000 ≤ (samplePlacement.table a).phys := by
    cases a <;> decide
  rw [sampleMem, if_neg (by omega)]

theorem initPaging_translates_sample : ∃ s,
    initPaging samplePlacement ⟨sampleMem, samplePrekernel.cr3⟩ = some s ∧
    walk s.mem s.cr3 0xffffffffc0100000 = some 0x100000 ∧
    walk s.mem s.cr3 0xB8000 = some 0xB8000 := by
  obtain ⟨s, hrun, hkernel, hlow⟩ :=
    initPaging_translates samplePrekernel samplePlacement sample_loaded sample_zeroFilled
  exact ⟨s, hrun, (hkernel 0xffffffffc0100000 (by decide)).1, (hlow 0xB8000 (by decide)).1⟩

end Netclover.Kernel
