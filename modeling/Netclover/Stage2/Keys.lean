import Mathlib.Data.List.TakeWhile
import Netclover.Stage2.Names

/-!
# The key of a name

A directory entry stores a name as eight characters and three, in upper case
and padded with spaces. `shortKey` is that rule for a name of any length, and
`fatName_eq_iff` says for which names `FAT_FindFile` follows it. It stands
`name + 11` for "no dot", so a name whose first dot is the character at index
11 loses its extension.
-/

namespace Netclover.Stage2

open Libc

/-! ## The rule -/

/-- The characters before the first dot. -/
def baseOf (name : List UInt8) : List UInt8 := name.takeWhile (· ≠ 0x2E)

/-- The characters after the first dot, if there is one. -/
def extOf (name : List UInt8) : List UInt8 := (name.dropWhile (· ≠ 0x2E)).tail

/-- The first `n` characters in upper case, padded with spaces to `n`. -/
def field (n : Nat) (chars : List UInt8) : List UInt8 :=
  (chars.take n).map toupper ++ List.replicate (n - chars.length) 0x20

def shortKey (name : List UInt8) : List UInt8 := field 8 (baseOf name) ++ field 3 (extOf name)

theorem name_cases (name : List UInt8) :
    (0x2E ∉ name ∧ baseOf name = name ∧ extOf name = []) ∨
    (name = baseOf name ++ 0x2E :: extOf name ∧ 0x2E ∉ baseOf name) := by
  have hsplit := List.takeWhile_append_dropWhile (p := (· ≠ (0x2E : UInt8))) (l := name)
  cases hrest : name.dropWhile (· ≠ (0x2E : UInt8)) with
  | nil =>
    rw [hrest, List.append_nil] at hsplit
    refine .inl ⟨fun hmem => ?_, hsplit, by rw [extOf, hrest]; rfl⟩
    rw [← hsplit] at hmem
    simpa using List.mem_takeWhile_imp hmem
  | cons c rest =>
    have hc : c = 0x2E := by
      have hhead := List.head?_dropWhile_not (p := (· ≠ (0x2E : UInt8))) name
      rw [hrest] at hhead
      simpa using hhead
    subst hc
    refine .inr ⟨?_, fun hmem => by simpa using List.mem_takeWhile_imp hmem⟩
    rw [baseOf, extOf, hrest, List.tail_cons, ← hrest]
    exact hsplit.symm

/-! ## The copying loop -/

/-- The loop copies `chars`, from character `i` on: up to the end of `chars`
it finds them and may go on, and behind the end it stops. -/
structure Copies (src : Nat → UInt8) (go : Nat → Bool) (chars : List UInt8) (n : Nat) : Prop where
  inside : ∀ i, i < n → i < chars.length → src i = chars.getD i 0 ∧ src i ≠ 0 ∧ go i = true
  outside : ∀ i, i < n → chars.length ≤ i → ¬ (src i ≠ 0 ∧ go i = true)

theorem Copies.upperLoop {src : Nat → UInt8} {go : Nat → Bool} {chars : List UInt8} {off : Nat} :
    ∀ (n i : Nat) (done post : List UInt8), Copies src go chars (i + n) →
      done.length = off + i → n ≤ post.length →
      Stage2.upperLoop src go off n i (done ++ post)
        = done ++ ((chars.drop i).take n).map toupper
          ++ post.drop ((chars.drop i).take n).length := by
  intro n
  induction n with
  | zero => intro i done post _ _ _; simp [Stage2.upperLoop]
  | succ n ih =>
    intro i done post h hdone hpost
    obtain ⟨c, post, rfl⟩ := List.exists_cons_of_length_pos (Nat.lt_of_lt_of_le (by omega) hpost)
    rw [List.length_cons] at hpost
    rcases Nat.lt_or_ge i chars.length with hi | hi
    · obtain ⟨hsrc, hgo⟩ := h.inside i (by omega) hi
      have hset : (done ++ c :: post).set (off + i) (toupper (src i))
          = (done ++ [toupper (src i)]) ++ post := by
        rw [← hdone]
        simp
      have hdrop : chars.drop i = src i :: chars.drop (i + 1) := by
        rw [hsrc, List.getD_eq_getElem _ _ hi, List.drop_eq_getElem_cons hi]
      rw [Stage2.upperLoop, if_pos hgo, hset,
        ih (i + 1) _ _ (by rwa [Nat.add_assoc, Nat.add_comm 1 n]) (by simp [hdone]; omega) (by omega),
        hdrop]
      simp
    · rw [Stage2.upperLoop, if_neg (h.outside i (by omega) hi), List.drop_of_length_le hi]
      simp

/-- A field that was all spaces. -/
theorem Copies.field {src : Nat → UInt8} {go : Nat → Bool} {chars done : List UInt8} {off n : Nat}
    (h : Copies src go chars n) (hdone : done.length = off) (tail : List UInt8) :
    Stage2.upperLoop src go off n 0 (done ++ (List.replicate n 0x20 ++ tail))
      = done ++ (Stage2.field n chars ++ tail) := by
  rw [Copies.upperLoop n 0 done _ (by rwa [Nat.zero_add]) hdone (by simp), List.drop_zero,
    List.drop_append_of_le_length (by simp), List.drop_replicate, Stage2.field,
    List.append_assoc, List.append_assoc]
  congr 3
  simp
  omega

/-! ## The key -/

theorem toupper_eq_space {c : UInt8} : toupper c = 0x20 ↔ c = 0x20 := by
  rw [toupper]
  split
  · rename_i hlower
    simp only [islower, Bool.and_eq_true, decide_eq_true_eq, UInt8.le_iff_toNat_le] at hlower
    have hlow : (0x61 : UInt8).toNat = 97 := rfl
    have hhigh : (0x7A : UInt8).toNat = 122 := rfl
    have hcase : (0x41 : UInt8).toNat = 65 := rfl
    have hspace : (0x20 : UInt8).toNat = 32 := rfl
    rw [← UInt8.toNat_inj, ← UInt8.toNat_inj, UInt8.toNat_add, UInt8.toNat_sub]
    omega
  · rfl

/-- A field is all spaces if its characters are. -/
theorem field_eq_spaces {n : Nat} {chars : List UInt8} :
    field n chars = List.replicate n 0x20 ↔ ∀ c ∈ chars.take n, c = 0x20 := by
  rw [field, List.eq_replicate_iff]
  constructor
  · rintro ⟨-, hspace⟩ c hc
    exact toupper_eq_space.mp (hspace _ (List.mem_append_left _ (List.mem_map_of_mem hc)))
  · intro h
    refine ⟨by simp; omega, fun b hb => ?_⟩
    rcases List.mem_append.mp hb with hmap | hpad
    · obtain ⟨c, hc, rfl⟩ := List.mem_map.mp hmap
      exact toupper_eq_space.mpr (h c hc)
    · exact List.eq_of_mem_replicate hpad

theorem getD_ne_zero {chars : List UInt8} (hzero : 0 ∉ chars) {i : Nat} (hi : i < chars.length) :
    chars.getD i 0 ≠ 0 := by
  rw [List.getD_eq_getElem _ _ hi]
  exact fun heq => hzero (heq ▸ List.getElem_mem hi)

/-- The first loop fills the base: it goes up to the dot, or to the end of a
name without one. -/
theorem copies_base {base rest : List UInt8} {ext : Nat} (hzero : 0 ∉ base)
    (hext : ext = base.length ∨ (rest = [] ∧ 8 ≤ ext)) :
    Copies ((base ++ rest).getD · 0) (· < ext) base 8 where
  inside i hi hlt := by
    have hget : (base ++ rest).getD i 0 = base.getD i 0 := List.getD_append _ _ _ _ hlt
    rw [hget, decide_eq_true_eq]
    exact ⟨rfl, getD_ne_zero hzero hlt, by omega⟩
  outside i hi hge hgo := by
    rw [decide_eq_true_eq] at hgo
    rcases hext with rfl | ⟨rfl, -⟩
    · omega
    · rw [List.append_nil, List.getD_eq_default _ _ hge] at hgo
      exact hgo.1 rfl

/-- The second loop fills the extension. -/
theorem copies_ext {base ext : List UInt8} (hzero : 0 ∉ ext) :
    Copies (fun i => (base ++ 0x2E :: ext).getD (base.length + i + 1) 0) (fun _ => true) ext 3 := by
  have hget : ∀ i, (base ++ 0x2E :: ext).getD (base.length + i + 1) 0 = ext.getD i 0 := by
    intro i
    rw [List.getD_append_right _ _ _ _ (by omega), Nat.add_assoc, Nat.add_sub_cancel_left,
      List.getD_cons_succ]
  constructor
  · intro i _ hlt
    rw [hget]
    exact ⟨rfl, getD_ne_zero hzero hlt, rfl⟩
  · intro i _ hge hgo
    rw [hget, List.getD_eq_default _ _ hge] at hgo
    exact hgo.1 rfl

/-- **What `FAT_FindFile` makes of a name**: it leaves the extension out where
the dot is the character at index 11. -/
theorem fatName_eq {name : List UInt8} (hzero : 0 ∉ name) :
    fatName name = field 8 (baseOf name) ++
      if (baseOf name).length = 11 then List.replicate 3 0x20 else field 3 (extOf name) := by
  have hpad : List.replicate 11 (0x20 : UInt8)
      = [] ++ (List.replicate 8 0x20 ++ List.replicate 3 0x20) := rfl
  have hlen : (field 8 (baseOf name)).length = 8 := by
    simp [field]
    omega
  rcases name_cases name with ⟨hdot, hbase, hext⟩ | ⟨hname, hdot⟩
  · have hcopy : Copies ((name ++ []).getD · 0) (· < 11) name 8 :=
      copies_base hzero (.inr ⟨rfl, by decide⟩)
    rw [List.append_nil] at hcopy
    rw [fatName, strchr_eq_none hdot]
    dsimp only [Option.getD_none]
    rw [hpad, hcopy.field List.length_nil, if_neg (by simp), hbase, hext]
    simp [field]
  · have hbase : 0 ∉ baseOf name := fun hmem => hzero (by rw [hname]; simp [hmem])
    have hext : 0 ∉ extOf name := fun hmem => hzero (by rw [hname]; simp [hmem])
    generalize baseOf name = base at *
    generalize extOf name = ext at *
    subst hname
    have hfirst : Copies ((base ++ 0x2E :: ext).getD · 0) (· < base.length) base 8 :=
      copies_base hbase (.inl rfl)
    have hsecond : Copies (fun i => (base ++ 0x2E :: ext).getD (base.length + i + 1) 0)
      (fun _ => true) ext 3 := copies_ext hext
    rw [fatName, strchr_append_cons hdot]
    dsimp only [Option.getD_some]
    rw [hpad, hfirst.field List.length_nil, List.nil_append]
    by_cases heleven : base.length = 11
    · rw [if_neg (by simpa using heleven), if_pos heleven]
    · have hfill := hsecond.field hlen []
      rw [List.append_nil, List.append_nil] at hfill
      rw [if_pos heleven, if_neg heleven, hfill]

/-- **The key of a name** is the rule's, for a name of any length, unless the
first dot is the character at index 11 and one of the three characters after
it is no space; and then it is not. -/
theorem fatName_eq_iff {name : List UInt8} (hzero : 0 ∉ name) :
    fatName name = shortKey name ↔
      ((baseOf name).length = 11 → ∀ c ∈ (extOf name).take 3, c = 0x20) := by
  rw [fatName_eq hzero, shortKey, List.append_cancel_left_eq]
  split
  · rename_i heleven
    rw [eq_comm, field_eq_spaces]
    exact ⟨fun h _ => h, fun h => h heleven⟩
  · rename_i hother
    exact ⟨fun _ heleven => (hother heleven).elim, fun _ => rfl⟩

/-- `kernel.bin` has its key. -/
theorem fatName_eq_iff_kernel :
    fatName [0x6B, 0x65, 0x72, 0x6E, 0x65, 0x6C, 0x2E, 0x62, 0x69, 0x6E]
      = shortKey [0x6B, 0x65, 0x72, 0x6E, 0x65, 0x6C, 0x2E, 0x62, 0x69, 0x6E] :=
  (fatName_eq_iff (by decide)).mpr (by decide)

/-- **The defect.** `abcdefghijk.txt` is looked up as `ABCDEFGH` without an
extension. -/
theorem fatName_loses_extension :
    let name : List UInt8 := [0x61, 0x62, 0x63, 0x64, 0x65, 0x66, 0x67, 0x68, 0x69, 0x6A, 0x6B,
      0x2E, 0x74, 0x78, 0x74]
    0 ∉ name ∧ fatName name ≠ shortKey name := by
  decide

end Netclover.Stage2
