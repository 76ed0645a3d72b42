import Mathlib.Logic.Function.Basic
import Mathlib.Data.List.Lex
import Netclover.Libc.Basic

/-!
# The loops of `string.h` (`libc/string`)

The functions as they go from byte to byte, with pointers of any width that wrap
around, over memory that they share with what they read. `memcpy` writes upwards,
so where the ranges overlap it may read what it has written (`memcpy_copies_iff`),
and `strcpy` may run after the end of its own copy for ever (`strcpy_returns_iff`).
Where the ranges are apart the loops are the operations on lists that the FAT
driver is modelled with (`strings_denote_lists`, `memcpy_denotes_list`).
-/

namespace Netclover.Libc.Ptr

/-- Memory, by addresses of `w` bits. -/
abbrev Memory (w : Nat) : Type := BitVec w → UInt8

variable {w : Nat}

/-! ## The loops -/

/-- `for (size_t i = 0; i < n; ++i) d[i] = s[i];`, the last `n` passes, from `i` on. -/
def memcpyLoop (d s : BitVec w) : Nat → BitVec w → Memory w → Memory w
  | 0, _, mem => mem
  | n + 1, i, mem => memcpyLoop d s n (i + 1) (Function.update mem (d + i) (mem (s + i)))

def memcpy (dest src n : BitVec w) (mem : Memory w) : BitVec w × Memory w :=
  (dest, memcpyLoop dest src n.toNat 0 mem)

/-- The loop of `memcmp`, as `memcpyLoop`. -/
def memcmpLoop (mem : Memory w) (p1 p2 : BitVec w) : Nat → BitVec w → Int
  | 0, _ => 0
  | n + 1, i =>
    if mem (p1 + i) ≠ mem (p2 + i) then (mem (p1 + i)).toNat - (mem (p2 + i)).toNat
    else memcmpLoop mem p1 p2 n (i + 1)

def memcmp (ptr1 ptr2 n : BitVec w) (mem : Memory w) : Int := memcmpLoop mem ptr1 ptr2 n.toNat 0

/-- `strlen` from `length` on, for so many passes at most. -/
def strlenLoop (mem : Memory w) (str : BitVec w) : Nat → BitVec w → Option (BitVec w)
  | 0, _ => none
  | fuel + 1, length =>
    if mem (str + length) ≠ 0 then strlenLoop mem str fuel (length + 1) else some length

def strlen (fuel : Nat) (str : BitVec w) (mem : Memory w) : Option (BitVec w) :=
  strlenLoop mem str fuel 0

/-- The loop of `strchr`. -/
def strchrLoop (mem : Memory w) (chr : UInt8) : Nat → BitVec w → Option (BitVec w)
  | 0, _ => none
  | fuel + 1, str =>
    if mem str ≠ 0 then
      if mem str = chr then some str else strchrLoop mem chr fuel (str + 1)
    else some 0

def strchr (fuel : Nat) (str : BitVec w) (chr : UInt8) (mem : Memory w) : Option (BitVec w) :=
  if str = 0 then some 0 else strchrLoop mem chr fuel str

/-- `while ((*dest++ = *src++) != '\0')`. -/
def strcpyLoop : Nat → BitVec w → BitVec w → Memory w → Option (Memory w)
  | 0, _, _, _ => none
  | fuel + 1, dest, src, mem =>
    let chr := mem src
    let mem := Function.update mem dest chr
    if chr ≠ 0 then strcpyLoop fuel (dest + 1) (src + 1) mem else some mem

def strcpy (fuel : Nat) (dest src : BitVec w) (mem : Memory w) : Option (BitVec w × Memory w) :=
  if dest = 0 then some (0, mem)
  else if src = 0 then some (dest, Function.update mem dest 0)
  else (strcpyLoop fuel dest src mem).map fun mem => (dest, mem)

/-! ## `memcpy` -/

/-- The last pass, split off. -/
theorem memcpyLoop_succ (d s : BitVec w) (n : Nat) (i : BitVec w) (mem : Memory w) :
    memcpyLoop d s (n + 1) i mem = Function.update (memcpyLoop d s n i mem)
      (d + (i + BitVec.ofNat w n)) (memcpyLoop d s n i mem (s + (i + BitVec.ofNat w n))) := by
  induction n generalizing i mem with
  | zero => simp [memcpyLoop]
  | succ n ih =>
    have hnext : i + 1 + BitVec.ofNat w n = i + BitVec.ofNat w (n + 1) := by
      rw [BitVec.ofNat_add]
      grind
    rw [memcpyLoop, ih (i + 1), hnext]
    rfl

/-- Where a byte is from: so many bytes before it, if that has been written. -/
theorem umod_cases (x δ : BitVec w) :
    x % δ = if (x - δ).toNat < x.toNat then (x - δ) % δ else x := by
  have hx := x.isLt
  have hδ := δ.isLt
  apply BitVec.eq_of_toNat_eq
  by_cases hle : δ ≤ x
  · have hsub := BitVec.toNat_sub_of_le hle
    rw [BitVec.le_def] at hle
    by_cases hzero : δ.toNat = 0
    · rw [if_neg (by omega), BitVec.toNat_umod, hzero, Nat.mod_zero]
    · rw [if_pos (by omega), BitVec.toNat_umod, BitVec.toNat_umod, hsub, Nat.mod_eq_sub_mod hle]
  · rw [BitVec.not_le] at hle
    have hsub := BitVec.toNat_sub_of_lt hle
    rw [BitVec.lt_def] at hle
    rw [if_neg (by omega), BitVec.toNat_umod, Nat.mod_eq_of_lt hle]

theorem memcpyLoop_get (d s : BitVec w) (mem : Memory w) (a : BitVec w) :
    ∀ n ≤ 2 ^ w, memcpyLoop d s n 0 mem a
      = if (a - d).toNat < n then mem (s + (a - d) % (d - s)) else mem a := by
  intro n
  induction n generalizing a with
  | zero =>
    intro _
    rw [if_neg (by omega), memcpyLoop]
  | succ n ih =>
    intro hn
    have hlast : (BitVec.ofNat w n).toNat = n := by
      rw [BitVec.toNat_ofNat, Nat.mod_eq_of_lt (by omega)]
    have hzero : (0 : BitVec w) + BitVec.ofNat w n = BitVec.ofNat w n := BitVec.zero_add _
    rw [memcpyLoop_succ, hzero]
    by_cases ha : a = d + BitVec.ofNat w n
    · have hindex : a - d = BitVec.ofNat w n := by
        rw [ha]
        grind
      have hback : s + BitVec.ofNat w n - d = BitVec.ofNat w n - (d - s) := by grind
      rw [hindex, hlast, if_pos (by omega), umod_cases, hlast, ha, Function.update_self,
        ih _ (by omega), hback]
      split
      · rfl
      · rfl
    · have hne : (a - d).toNat ≠ n := by
        intro h
        apply ha
        have : a - d = BitVec.ofNat w n := by
          apply BitVec.eq_of_toNat_eq
          rw [h, hlast]
        grind
      rw [Function.update_of_ne ha, ih _ (by omega)]
      by_cases hlt : (a - d).toNat < n
      · rw [if_pos hlt, if_pos (by omega)]
      · rw [if_neg hlt, if_neg (by omega)]

/-- What `memcpy` is for: every byte as it was before. -/
def copied (dest src n : BitVec w) (mem : Memory w) : Memory w := fun a =>
  if a - dest < n then mem (src + (a - dest)) else mem a

theorem memcpy_get (dest src n : BitVec w) (mem : Memory w) (a : BitVec w) :
    (memcpy dest src n mem).2 a
      = if a - dest < n then mem (src + (a - dest) % (dest - src)) else mem a :=
  memcpyLoop_get dest src mem a n.toNat n.isLt.le

theorem memcpy_eq_copied_iff (dest src n : BitVec w) (mem : Memory w) :
    (memcpy dest src n mem).2 = copied dest src n mem ↔
      ∀ i, i < n → mem (src + i) = mem (src + i % (dest - src)) := by
  constructor
  · intro h i hi
    have hat := congrFun h (dest + i)
    have hindex : dest + i - dest = i := by grind
    rw [memcpy_get, copied, hindex, if_pos hi, if_pos hi] at hat
    exact hat.symm
  · intro h
    funext a
    rw [memcpy_get, copied]
    split
    · rename_i hlt
      exact (h _ hlt).symm
    · rfl

/-- Nothing is read after it has been written. -/
theorem memcpy_apart {dest src n : BitVec w} {mem : Memory w}
    (hapart : dest = src ∨ n ≤ dest - src) :
    (memcpy dest src n mem).2 = copied dest src n mem := by
  refine (memcpy_eq_copied_iff dest src n mem).mpr fun i hi => ?_
  rcases hapart with rfl | hle
  · have hzero : dest - dest = 0#w := BitVec.sub_self dest
    rw [hzero, BitVec.umod_zero]
  · have hlt : i.toNat < (dest - src).toNat := by
      rw [BitVec.lt_def] at hi
      rw [BitVec.le_def] at hle
      omega
    have hmod : i % (dest - src) = i := by
      apply BitVec.eq_of_toNat_eq
      rw [BitVec.toNat_umod, Nat.mod_eq_of_lt hlt]
    rw [hmod]

/-- **What `memcpy` leaves**, wherever the ranges are: where it reads what it has
written, the bytes in between come over and over. It has made the copy exactly if
the source goes on like this itself, and so if nothing is read after it has been
written. -/
theorem memcpy_copies_iff (dest src n : BitVec w) (mem : Memory w) :
    (∀ a, (memcpy dest src n mem).2 a
      = if a - dest < n then mem (src + (a - dest) % (dest - src)) else mem a) ∧
    ((memcpy dest src n mem).2 = copied dest src n mem ↔
      ∀ i, i < n → mem (src + i) = mem (src + i % (dest - src))) ∧
    (dest = src ∨ n ≤ dest - src → (memcpy dest src n mem).2 = copied dest src n mem) :=
  ⟨memcpy_get dest src n mem, memcpy_eq_copied_iff dest src n mem, memcpy_apart⟩

/-! ## `strcpy` -/

/-- A string of `n` characters and its end. -/
def StringAt (mem : Memory w) (str : BitVec w) (n : Nat) : Prop :=
  mem (str + BitVec.ofNat w n) = 0 ∧ ∀ i < n, mem (str + BitVec.ofNat w i) ≠ 0

section

variable (dest src : BitVec w) (mem : Memory w)

/-- The memory after so many passes. -/
def passes (k : Nat) : Memory w := memcpyLoop dest src k 0 mem

/-- The character that pass `k` copies. -/
def character (k : Nat) : UInt8 := mem (src + BitVec.ofNat w (k % (dest - src).toNat))

variable {dest src mem}

theorem passes_succ (k : Nat) : passes dest src mem (k + 1) = Function.update
    (passes dest src mem k) (dest + BitVec.ofNat w k)
    (passes dest src mem k (src + BitVec.ofNat w k)) := by
  have hzero : (0 : BitVec w) + BitVec.ofNat w k = BitVec.ofNat w k := BitVec.zero_add _
  rw [passes, memcpyLoop_succ, hzero]
  rfl

/-- What lies before the place that is written next. -/
theorem passes_ahead (k : Nat) : ∀ i < (dest - src).toNat,
    passes dest src mem k (src + BitVec.ofNat w (k + i)) = character dest src mem (k + i) := by
  induction k with
  | zero =>
    intro i hi
    rw [Nat.zero_add, character, Nat.mod_eq_of_lt hi]
    rfl
  | succ k ih =>
    intro i hi
    have hread := ih 0 (by omega)
    rw [Nat.add_zero] at hread
    rw [passes_succ, hread]
    by_cases hlast : i + 1 = (dest - src).toNat
    · have haddr : src + BitVec.ofNat w (k + 1 + i) = dest + BitVec.ofNat w k := by
        have hsum : k + 1 + i = k + (dest - src).toNat := by omega
        rw [hsum, BitVec.ofNat_add, BitVec.ofNat_toNat, BitVec.setWidth_eq]
        grind
      have hagain : (k + 1 + i) % (dest - src).toNat = k % (dest - src).toNat := by
        have hsum : k + 1 + i = k + (dest - src).toNat := by omega
        rw [hsum, Nat.add_mod_right]
      rw [haddr, Function.update_self, character, character, hagain]
    · have hne : src + BitVec.ofNat w (k + 1 + i) ≠ dest + BitVec.ofNat w k := by
        intro h
        have hsum : k + 1 + i = k + (i + 1) := by omega
        rw [hsum, BitVec.ofNat_add] at h
        have hdiff : BitVec.ofNat w (i + 1) = dest - src := by grind
        apply hlast
        rw [← hdiff, BitVec.toNat_ofNat, Nat.mod_eq_of_lt]
        have := (dest - src).isLt
        omega
      rw [Function.update_of_ne hne, Nat.add_right_comm, Nat.add_assoc]
      exact ih (i + 1) (by omega)

theorem passes_self (k : Nat) : passes src src mem k = mem := by
  induction k with
  | zero => rfl
  | succ k ih => rw [passes_succ, ih, Function.update_eq_self]

/-- What pass `k` reads. -/
theorem passes_read (k : Nat) :
    passes dest src mem k (src + BitVec.ofNat w k) = character dest src mem k := by
  by_cases hzero : (dest - src).toNat = 0
  · have hsame : dest = src := by
      have hdiff : dest - src = 0#w := BitVec.eq_of_toNat_eq (by rw [hzero, BitVec.toNat_zero])
      grind
    rw [character, hzero, Nat.mod_zero, hsame, passes_self]
  · exact passes_ahead k 0 (by omega)

/-- The loop ends behind the first character that is zero. -/
theorem strcpyLoop_eq_some (fuel k : Nat) (r : Memory w) :
    strcpyLoop fuel (dest + BitVec.ofNat w k) (src + BitVec.ofNat w k) (passes dest src mem k)
      = some r ↔ ∃ j < fuel, character dest src mem (k + j) = 0 ∧
        (∀ i < j, character dest src mem (k + i) ≠ 0) ∧ r = passes dest src mem (k + j + 1) := by
  induction fuel generalizing k with
  | zero => simp [strcpyLoop]
  | succ fuel ih =>
    have hnext : ∀ p : BitVec w, p + BitVec.ofNat w k + 1 = p + BitVec.ofNat w (k + 1) := by
      intro p
      rw [BitVec.ofNat_add]
      grind
    have hpass : passes dest src mem (k + 1) = _ := passes_succ k
    rw [strcpyLoop, hnext, hnext, ← hpass, passes_read]
    by_cases hend : character dest src mem k = 0
    · rw [if_neg (by simpa using hend)]
      constructor
      · intro h
        exact ⟨0, by omega, hend, fun i hi => absurd hi (Nat.not_lt_zero i),
          (Option.some.inj h).symm⟩
      · rintro ⟨j, -, -, hbefore, rfl⟩
        cases j with
        | zero => rfl
        | succ j => exact absurd hend (hbefore 0 (by omega))
    · rw [if_pos hend, ih]
      constructor
      · rintro ⟨j, hj, hzero, hbefore, rfl⟩
        have hsum : k + 1 + j = k + (j + 1) := by omega
        refine ⟨j + 1, by omega, hsum ▸ hzero, fun i hi => ?_, by rw [hsum]⟩
        cases i with
        | zero => exact hend
        | succ i =>
          have hback := hbefore i (by omega)
          rw [Nat.add_right_comm] at hback
          exact hback
      · rintro ⟨j, hj, hzero, hbefore, rfl⟩
        cases j with
        | zero => exact absurd hzero hend
        | succ j =>
          have hsum : ∀ i, k + 1 + i = k + (i + 1) := fun i => by omega
          refine ⟨j, by omega, by rw [hsum]; exact hzero, fun i hi => ?_, by rw [hsum]⟩
          rw [hsum]
          exact hbefore (i + 1) (by omega)

/-- The characters that are copied end where the string does, if the copy does
not start in it. -/
theorem character_ends_iff (n : Nat) :
    (character dest src mem n = 0 ∧ ∀ i < n, character dest src mem i ≠ 0) ↔
      StringAt mem src n ∧ (dest = src ∨ n < (dest - src).toNat) := by
  by_cases hsame : dest = src
  · subst hsame
    have hchr : ∀ i, character dest dest mem i = mem (dest + BitVec.ofNat w i) := by
      intro i
      rw [character, BitVec.sub_self, BitVec.toNat_zero, Nat.mod_zero]
    simp only [hchr, true_or, and_true, StringAt]
  · have hpos : 0 < (dest - src).toNat := by
      by_contra hnot
      apply hsame
      have hdiff : dest - src = 0#w :=
        BitVec.eq_of_toNat_eq (by rw [BitVec.toNat_zero]; omega)
      grind
    constructor
    · rintro ⟨hend, hbefore⟩
      have hlt : n < (dest - src).toNat := by
        by_contra hge
        have hmod := Nat.mod_lt n hpos
        apply hbefore (n % (dest - src).toNat) (by omega)
        rw [character, Nat.mod_mod]
        exact hend
      refine ⟨⟨?_, fun i hi => ?_⟩, .inr hlt⟩
      · rw [character, Nat.mod_eq_of_lt hlt] at hend
        exact hend
      · have hchr := hbefore i hi
        rw [character, Nat.mod_eq_of_lt (by omega)] at hchr
        exact hchr
    · rintro ⟨⟨hend, hbefore⟩, hapart⟩
      have hlt := hapart.resolve_left hsame
      constructor
      · rw [character, Nat.mod_eq_of_lt hlt]
        exact hend
      · intro i hi
        rw [character, Nat.mod_eq_of_lt (by omega)]
        exact hbefore i hi

end

/-- **When `strcpy` returns**: the source is a string and the copy does not start
in it, behind its first character and up to its end. Then the copy is right, end
and all; else the loop reads its own copy and never comes to an end. -/
theorem strcpy_returns_iff {dest src : BitVec w} (hdest : dest ≠ 0) (hsrc : src ≠ 0)
    (mem : Memory w) (fuel : Nat) (r : BitVec w × Memory w) :
    strcpy fuel dest src mem = some r ↔
      ∃ n < fuel, StringAt mem src n ∧ (dest = src ∨ n < (dest - src).toNat) ∧
        r = (dest, fun a => if (a - dest).toNat ≤ n then mem (src + (a - dest)) else mem a) := by
  have hleft : ∀ n, dest = src ∨ n < (dest - src).toNat → passes dest src mem (n + 1)
      = fun a => if (a - dest).toNat ≤ n then mem (src + (a - dest)) else mem a := by
    rintro n (rfl | hlt)
    · funext a
      have hback : dest + (a - dest) = a := by grind
      rw [passes_self, hback, ite_self]
    · funext a
      have hwidth := (dest - src).isLt
      rw [passes, memcpyLoop_get _ _ _ _ _ (by omega)]
      by_cases ha : (a - dest).toNat ≤ n
      · have hmod : (a - dest) % (dest - src) = a - dest := by
          apply BitVec.eq_of_toNat_eq
          rw [BitVec.toNat_umod, Nat.mod_eq_of_lt (by omega)]
        rw [if_pos (by omega), if_pos ha, hmod]
      · rw [if_neg (by omega), if_neg ha]
  have hloop := fun m : Memory w => (strcpyLoop_eq_some fuel 0 m :
    strcpyLoop fuel (dest + BitVec.ofNat w 0) (src + BitVec.ofNat w 0) (passes dest src mem 0)
      = some m ↔ _)
  have hzero : ∀ p : BitVec w, p + BitVec.ofNat w 0 = p := fun p => BitVec.add_zero p
  simp only [hzero, Nat.zero_add] at hloop
  rw [strcpy, if_neg hdest, if_neg hsrc, Option.map_eq_some_iff]
  constructor
  · rintro ⟨m, hm, rfl⟩
    obtain ⟨n, hn, hend, hbefore, rfl⟩ := (hloop m).mp hm
    obtain ⟨hstring, hapart⟩ := (character_ends_iff n).mp ⟨hend, hbefore⟩
    exact ⟨n, hn, hstring, hapart, by rw [hleft n hapart]⟩
  · rintro ⟨n, hn, hstring, hapart, rfl⟩
    obtain ⟨hend, hbefore⟩ := (character_ends_iff n).mpr ⟨hstring, hapart⟩
    exact ⟨_, (hloop _).mpr ⟨n, hn, hend, hbefore, rfl⟩, by rw [hleft n hapart]⟩

/-! ## Lists in memory -/

/-- The characters of a string, and its end, are at `p`. -/
def Holds (mem : Memory w) : BitVec w → List UInt8 → Prop
  | p, [] => mem p = 0
  | p, c :: cs => mem p = c ∧ c ≠ 0 ∧ Holds mem (p + 1) cs

/-- The `n` bytes at `p`. -/
def bytesAt (mem : Memory w) : BitVec w → Nat → List UInt8
  | _, 0 => []
  | p, n + 1 => mem p :: bytesAt mem (p + 1) n

theorem add_one_ofNat (p : BitVec w) (n : Nat) :
    p + 1 + BitVec.ofNat w n = p + BitVec.ofNat w (n + 1) := by
  rw [BitVec.ofNat_add]
  grind

theorem strlenLoop_holds {mem : Memory w} {str : BitVec w} : ∀ {cs : List UInt8} {fuel : Nat}
    {length : BitVec w}, Holds mem (str + length) cs → cs.length < fuel →
      strlenLoop mem str fuel length = some (length + BitVec.ofNat w cs.length) := by
  intro cs
  induction cs with
  | nil =>
    intro fuel length hmem hfuel
    obtain ⟨fuel, rfl⟩ : ∃ k, fuel = k + 1 := ⟨fuel - 1, by simp at hfuel; omega⟩
    have hend : mem (str + length) = 0 := hmem
    rw [strlenLoop, if_neg (by simpa using hend)]
    simp
  | cons c cs ih =>
    rintro fuel length ⟨hchr, hc, hmem⟩ hfuel
    rw [List.length_cons] at hfuel
    obtain ⟨fuel, rfl⟩ : ∃ k, fuel = k + 1 := ⟨fuel - 1, by omega⟩
    rw [strlenLoop, if_pos (by rw [hchr]; exact hc), ih (by rw [← BitVec.add_assoc]; exact hmem)
      (by omega), add_one_ofNat, List.length_cons]

theorem strchrLoop_holds {mem : Memory w} (chr : UInt8) : ∀ {cs : List UInt8} {fuel : Nat}
    {p : BitVec w}, Holds mem p cs → cs.length < fuel → strchrLoop mem chr fuel p
      = some (((Libc.strchr cs chr).map fun i => p + BitVec.ofNat w i).getD 0) := by
  intro cs
  induction cs with
  | nil =>
    intro fuel p hmem hfuel
    obtain ⟨fuel, rfl⟩ : ∃ k, fuel = k + 1 := ⟨fuel - 1, by simp at hfuel; omega⟩
    have hend : mem p = 0 := hmem
    rw [strchrLoop, if_neg (by simpa using hend)]
    rfl
  | cons c cs ih =>
    rintro fuel p ⟨hchr, hc, hmem⟩ hfuel
    rw [List.length_cons] at hfuel
    obtain ⟨fuel, rfl⟩ : ∃ k, fuel = k + 1 := ⟨fuel - 1, by omega⟩
    rw [strchrLoop, hchr, if_pos hc, Libc.strchr, List.findIdx?_cons]
    by_cases heq : c = chr
    · rw [if_pos heq, if_pos (by simpa using heq)]
      simp
    · rw [if_neg heq, if_neg (by simpa using heq), ih hmem (by omega), Option.map_map]
      congr 3
      funext i
      exact add_one_ofNat p i

/-- **`strlen` and `strchr` on a string in memory** are the length of the list and
the search in it: `strchr` looks for no terminator, and a missing character is
`NULL`. -/
theorem strings_denote_lists {mem : Memory w} {p : BitVec w} {str : List UInt8} {fuel : Nat}
    (hp : p ≠ 0) (hmem : Holds mem p str) (hfuel : str.length < fuel) :
    strlen fuel p mem = some (BitVec.ofNat w str.length) ∧
      ∀ chr, strchr fuel p chr mem
        = some (((Libc.strchr str chr).map fun i => p + BitVec.ofNat w i).getD 0) := by
  constructor
  · have hstart : p + (0 : BitVec w) = p := BitVec.add_zero p
    rw [strlen, strlenLoop_holds (hstart.symm ▸ hmem) hfuel]
    congr 1
    exact BitVec.zero_add _
  · intro chr
    rw [strchr, if_neg hp, strchrLoop_holds chr hmem hfuel]

/-- **`memcmp` orders bytes as a dictionary does**, and tells them apart. -/
theorem memcmp_orders (p q n : BitVec w) (mem : Memory w) :
    (memcmp p q n mem < 0 ↔ bytesAt mem p n.toNat < bytesAt mem q n.toNat) ∧
      (memcmp p q n mem = 0 ↔ bytesAt mem p n.toNat = bytesAt mem q n.toNat) ∧
      memcmp q p n mem = -memcmp p q n mem := by
  have hloop : ∀ (n : Nat) (i : BitVec w),
      (memcmpLoop mem p q n i < 0 ↔ bytesAt mem (p + i) n < bytesAt mem (q + i) n) ∧
        (memcmpLoop mem p q n i = 0 ↔ bytesAt mem (p + i) n = bytesAt mem (q + i) n) ∧
        memcmpLoop mem q p n i = -memcmpLoop mem p q n i := by
    intro n
    induction n with
    | zero => simp [memcmpLoop, bytesAt]
    | succ n ih =>
      intro i
      obtain ⟨hlt, heq, hback⟩ := ih (i + 1)
      rw [← BitVec.add_assoc, ← BitVec.add_assoc] at hlt heq
      rw [memcmpLoop, memcmpLoop, bytesAt, bytesAt]
      by_cases hsame : mem (p + i) = mem (q + i)
      · rw [if_neg (by simpa using hsame), if_neg (by simpa using hsame.symm), hlt, heq, hback,
          hsame]
        simp
      · rw [if_pos hsame, if_pos (Ne.symm hsame), List.cons_lt_cons_iff, UInt8.lt_iff_toNat_lt]
        have hne : (mem (p + i)).toNat ≠ (mem (q + i)).toNat :=
          fun h => hsame (UInt8.toNat_inj.mp h)
        refine ⟨?_, ?_, by omega⟩
        · simp only [hsame, false_and, or_false]
          omega
        · simp only [List.cons.injEq, hsame, false_and, iff_false]
          omega
  have hstart : ∀ r : BitVec w, r + 0 = r := fun r => BitVec.add_zero r
  have h := hloop n.toNat 0
  rw [hstart, hstart] at h
  exact h

/-- What `bytesAt` has. -/
theorem bytesAt_getD (mem : Memory w) (p : BitVec w) : ∀ {n i : Nat}, i < n →
    (bytesAt mem p n).getD i 0 = mem (p + BitVec.ofNat w i) := by
  intro n
  induction n generalizing p with
  | zero => omega
  | succ n ih =>
    intro i hi
    cases i with
    | zero => simp [bytesAt]
    | succ i =>
      rw [bytesAt, List.getD_cons_succ, ih _ (by omega), add_one_ofNat]

@[simp] theorem bytesAt_length (mem : Memory w) (p : BitVec w) (n : Nat) :
    (bytesAt mem p n).length = n := by
  induction n generalizing p with
  | zero => rfl
  | succ n ih => rw [bytesAt, List.length_cons, ih]

/-- `memcpy` between ranges that are apart is the copy of a list. -/
theorem memcpy_denotes_list {dest src n : BitVec w} (mem : Memory w)
    (hfits : dest.toNat + n.toNat ≤ 2 ^ w) (hapart : dest = src ∨ n ≤ dest - src) {a : Nat}
    (ha : a < 2 ^ w) : (memcpy dest src n mem).2 (BitVec.ofNat w a)
      = Libc.memcpy (fun b => mem (BitVec.ofNat w b)) dest.toNat (bytesAt mem src n.toNat) a := by
  have hnat : (BitVec.ofNat w a).toNat = a := by
    rw [BitVec.toNat_ofNat, Nat.mod_eq_of_lt ha]
  rw [memcpy_apart hapart, copied, Libc.memcpy, bytesAt_length]
  by_cases hle : dest ≤ BitVec.ofNat w a
  · have hsub := BitVec.toNat_sub_of_le hle
    rw [BitVec.le_def, hnat] at hle
    rw [hnat] at hsub
    by_cases hlt : a < dest.toNat + n.toNat
    · rw [if_pos (by rw [BitVec.lt_def]; omega), if_pos ⟨hle, hlt⟩,
        bytesAt_getD _ _ (by omega), ← hsub, BitVec.ofNat_toNat, BitVec.setWidth_eq]
    · rw [if_neg (by rw [BitVec.lt_def]; omega), if_neg (by omega)]
  · rw [BitVec.not_le] at hle
    have hsub := BitVec.toNat_sub_of_lt hle
    rw [BitVec.lt_def, hnat] at hle
    rw [hnat] at hsub
    rw [if_neg (by rw [BitVec.lt_def]; omega), if_neg (by omega)]

/-! ## A string -/

/-- "hi", at 0x1000. -/
def sampleString : Memory 32 := fun a => if a = 0x1000 then 0x68 else if a = 0x1001 then 0x69 else 0

theorem strcpy_returns_sample : ∃ r, strcpy 3 0x2000 0x1000 sampleString = some r :=
  ⟨_, (strcpy_returns_iff (by decide) (by decide) sampleString 3 _).mpr
    ⟨2, by decide, ⟨by decide, by decide⟩, .inr (by decide), rfl⟩⟩

theorem strings_denote_sample : strchr 3 0x1000 0x69 sampleString = some 0x1001 := by
  have hmem : Holds sampleString 0x1000 [0x68, 0x69] := by
    refine ⟨by decide, by decide, by decide, by decide, ?_⟩
    show sampleString (0x1000 + 1 + 1) = 0
    decide
  rw [(strings_denote_lists (by decide) hmem (by decide)).2]
  decide

end Netclover.Libc.Ptr
