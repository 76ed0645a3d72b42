import Netclover.Kernel.Paging

/-!
# What `initPaging` maps (`kernel/memory/pager.c`)

The first and the last entry of `pml4` point to one table, where
`prekernel.asm` has two. So each of the two windows is there twice, the second
time with the other half of its entries (`initPaging_windows_iff`).
-/

namespace Netclover.Kernel

open Paging

/-- The first 2 MiB and the kernel's gigabyte. -/
def InWindows (v : UInt64) : Prop := v.toNat < 2 ^ 21 ∨ kernelPage ≤ v

/-- The last gigabyte of the lower 512, and the first 2 MiB of the upper 512. -/
def InFurther (v : UInt64) : Prop :=
  0x7FC0000000 ≤ v ∧ v < 0x8000000000 ∨ 0xFFFFFF8000000000 ≤ v ∧ v < 0xFFFFFF8000200000

instance (v : UInt64) : Decidable (InWindows v) := inferInstanceAs (Decidable (_ ∨ _))

instance (v : UInt64) : Decidable (InFurther v) := inferInstanceAs (Decidable (_ ∨ _))

/-- The bits of the addresses in the further windows. -/
theorem bits_further {v : UInt64} (h : InFurther v) : canonical v = true ∧
    (bits v 39 9 = 0 ∧ bits v 30 9 = 511 ∨
      bits v 39 9 = 511 ∧ bits v 30 9 = 0 ∧ bits v 21 9 = 0) := by
  have hlt := v.toNat_lt
  simp only [InFurther, UInt64.le_iff_toNat_le, UInt64.lt_iff_toNat_lt] at h
  simp only [canonical, bits, Bool.or_eq_true, beq_iff_eq]
  change 0x7FC0000000 ≤ v.toNat ∧ v.toNat < 0x8000000000 ∨
    0xFFFFFF8000000000 ≤ v.toNat ∧ v.toNat < 0xFFFFFF8000200000 at h
  omega

/-- The two windows, and the further two, from the bits. -/
theorem window_cases {v : UInt64} (hv : canonical v = true)
    (h39 : bits v 39 9 = 0 ∨ bits v 39 9 = 511)
    (h30 : bits v 30 9 = 0 ∧ bits v 21 9 = 0 ∨ bits v 30 9 = 511) : InWindows v ∨ InFurther v := by
  have hlt := v.toNat_lt
  simp only [canonical, bits, Bool.or_eq_true, beq_iff_eq] at hv h39 h30
  simp only [InWindows, InFurther, UInt64.le_iff_toNat_le, UInt64.lt_iff_toNat_lt, toNat_kernelPage]
  change (v.toNat < 2 ^ 21 ∨ 2 ^ 64 - 2 ^ 30 ≤ v.toNat) ∨
    (0x7FC0000000 ≤ v.toNat ∧ v.toNat < 0x8000000000 ∨
      0xFFFFFF8000000000 ≤ v.toNat ∧ v.toNat < 0xFFFFFF8000200000)
  omega

section

variable {P : Placement} {s : Mmu} (hcr3 : s.cr3 = getAddress (P.table .pml4).addr)
  (hslots : ∀ a i, i < 512 → s.slot P a i = P.built a i)

include hcr3 hslots

/-- **Nothing else is mapped**: the other entries are zero. -/
theorem walk_built_cases {v : UInt64} {pa : Nat} (h : walk s.mem s.cr3 v = some pa) :
    InWindows v ∨ InFurther v := by
  obtain ⟨hv, hpml4e, hrest⟩ := walk_present h
  have hslot : ∀ a i, i < 512 → s.mem ((P.table a).phys + 8 * i) = P.built a i := hslots
  have hlt : ∀ lo, bits v lo 9 < 512 := fun lo => Nat.mod_lt _ (by decide)
  have h39 : bits v 39 9 = 0 ∨ bits v 39 9 = 511 := by
    by_contra hnot
    rw [frame_built hcr3, hslot .pml4 _ (hlt 39), Placement.built, if_neg hnot] at hpml4e
    exact absurd hpml4e (by decide)
  obtain ⟨hpdpte, hlast⟩ := hrest _ (built_pml4e hcr3 hslots h39)
  rw [hslot .pageDirTab _ (hlt 30)] at hpdpte hlast
  refine window_cases hv h39 ?_
  by_cases hzero : bits v 30 9 = 0
  · refine .inl ⟨hzero, ?_⟩
    by_contra hnot
    have hpde := hlast (P.table .basePageDir).phys (by
      rw [Placement.built, if_pos hzero]
      exact (P.table .basePageDir).pointsTo)
    rw [hslot .basePageDir _ (hlt 21), Placement.built, if_neg hnot] at hpde
    exact absurd hpde (by decide)
  · refine .inr ?_
    by_contra hnot
    rw [Placement.built, if_neg hzero, if_neg hnot] at hpdpte
    exact absurd hpdpte (by decide)

/-- The further windows are mapped. -/
theorem walk_built_further {v : UInt64} (h : InFurther v) : ∃ pa, walk s.mem s.cr3 v = some pa := by
  obtain ⟨hv, ⟨h39, h30⟩ | ⟨h39, h30, h21⟩⟩ := bits_further h
  · exact ⟨_, walk_built_last hcr3 hslots hv (.inl h39) h30⟩
  · exact ⟨_, walk_built_first hcr3 hslots hv (.inr h39) h30 h21⟩

end

/-- An address that `initPaging` leaves as it should be: if it is mapped, it is
in one of the two windows, and was mapped to the same memory before. -/
def Confined (K : Prekernel) (mem : Mem) (s : Mmu) (v : UInt64) : Prop :=
  ∀ pa, walk s.mem s.cr3 v = some pa → InWindows v ∧ walk mem K.cr3 v = some pa

/-- **The windows**: exactly the addresses of the two further windows are
mapped without having been. -/
theorem initPaging_windows_iff (K : Prekernel) (P : Placement) {mem : Mem} (hloaded : K.Loaded mem)
    (hzero : P.ZeroFilled mem) : ∃ s, initPaging P ⟨mem, K.cr3⟩ = some s ∧
      ∀ v, Confined K mem s v ↔ ¬ InFurther v := by
  obtain ⟨s, hrun, hcr3, -, hslots⟩ := (running_start hloaded hzero).initPaging hzero
  obtain ⟨hkernel, hlow⟩ := walk_built hcr3 hslots
  obtain ⟨hbefore, hbefore'⟩ := K.walk_loaded hloaded
  refine ⟨s, hrun, fun v => ⟨?_, ?_⟩⟩
  · intro hconfined hfurther
    obtain ⟨pa, hpa⟩ := walk_built_further hcr3 hslots hfurther
    have hin := (hconfined pa hpa).1
    simp only [InWindows, InFurther, UInt64.le_iff_toNat_le, UInt64.lt_iff_toNat_lt,
      toNat_kernelPage] at hin hfurther
    change 0x7FC0000000 ≤ v.toNat ∧ v.toNat < 0x8000000000 ∨
      0xFFFFFF8000000000 ≤ v.toNat ∧ v.toNat < 0xFFFFFF8000200000 at hfurther
    omega
  · intro hout pa hpa
    have hin := (walk_built_cases hcr3 hslots hpa).resolve_right hout
    refine ⟨hin, ?_⟩
    rcases hin with hv | hv
    · rw [hbefore' v (by omega), ← hlow v hv, hpa]
    · rw [hbefore v hv, ← hkernel v hv, hpa]

theorem initPaging_windows_sample : ∃ s,
    initPaging samplePlacement ⟨sampleMem, samplePrekernel.cr3⟩ = some s ∧
    Confined samplePrekernel sampleMem s 0xB8000 := by
  obtain ⟨s, hrun, hiff⟩ :=
    initPaging_windows_iff samplePrekernel samplePlacement sample_loaded sample_zeroFilled
  exact ⟨s, hrun, (hiff 0xB8000).mpr (by decide)⟩

/-- **The defect**: the first address of the last gigabyte below 512 GiB is
mapped. -/
theorem initPaging_maps_further : ¬ ∀ (K : Prekernel) (P : Placement) (mem : Mem), K.Loaded mem →
    P.ZeroFilled mem → ∃ s, initPaging P ⟨mem, K.cr3⟩ = some s ∧ ∀ v, Confined K mem s v := by
  intro h
  obtain ⟨s, hrun, hconfined⟩ :=
    h samplePrekernel samplePlacement sampleMem sample_loaded sample_zeroFilled
  obtain ⟨s', hrun', hcr3, -, hslots⟩ :=
    (running_start sample_loaded sample_zeroFilled).initPaging sample_zeroFilled
  obtain rfl : s = s' := Option.some.inj (hrun.symm.trans hrun')
  have hmapped := walk_built_last hcr3 hslots (v := 0x7FC0000000) (by decide) (by decide)
    (by decide)
  exact absurd (hconfined 0x7FC0000000 _ hmapped).1 (by decide)

end Netclover.Kernel
