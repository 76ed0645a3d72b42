import Netclover.Stage2.Fat

/-!
# Names

What `FAT_Open` cuts out of a path, and the key `FAT_FindFile` makes of it.
The copy of a component ends one character late: the name that is looked up
is the component and whatever the stack held behind it. A name with an
extension of three letters has the same key all the same (`key_of_three`).
-/

namespace Netclover.Stage2

open Libc

/-! ## Components -/

/-- `strchr` finds the first of the characters. -/
theorem strchr_append_cons {base rest : List UInt8} {c : UInt8} (h : c ∉ base) :
    strchr (base ++ c :: rest) c = some base.length := by
  induction base with
  | nil => simp [strchr, List.findIdx?_cons]
  | cons b base ih =>
    have hb : ¬ b = c := fun e => h (e ▸ List.mem_cons_self)
    have ih := ih fun e => h (List.mem_cons_of_mem _ e)
    rw [strchr] at ih ⊢
    rw [List.cons_append, List.findIdx?_cons, ih]
    simp [hb]

theorem strchr_eq_none {str : List UInt8} {c : UInt8} (h : c ∉ str) : strchr str c = none := by
  rw [strchr, List.findIdx?_eq_none_iff]
  intro x hx
  have hne : x ≠ c := fun e => h (e ▸ hx)
  simpa using hne

/-- Behind the last component the loop is over. -/
theorem openLoop_nil {σ : Type} {M : Machine σ} {env : Env} (fuel n : Nat) (name : Block 256)
    (d : Driver) (current : Option FilePtr) :
    openLoop M env fuel n name d current [] = pure (d, current) := by
  cases n with
  | zero => rw [openLoop, if_pos rfl]
  | succ n => rw [openLoop, if_pos rfl]

/-- The name buffer starts with the component. -/
theorem cstring_copyName {name name' : Block 256} {path : List UInt8} {len : Nat}
    (hzero : 0 ∉ path.take len) (hlen : len ≤ path.length)
    (h : copyName name path len = some name') :
    ∃ tail, cstring name' = path.take len ++ tail := by
  simp only [copyName] at h
  split at h
  · cases h
    have htake : (path.take len).length = len := List.length_take_of_le hlen
    refine ⟨((name.bytes.drop len).set 1 0).takeWhile (· ≠ 0), ?_⟩
    show List.takeWhile _ ((path.take len ++ name.bytes.drop len).set (len + 1) 0) = _
    rw [List.set_append_right _ _ (by omega), htake, Nat.add_sub_cancel_left]
    rw [List.takeWhile_append_of_pos]
    intro c hc
    have hne : c ≠ 0 := fun e => hzero (e ▸ hc)
    simpa using hne
  · cases h

/-- Whether a component fits does not depend on what the buffer held. -/
theorem copyName_fits {name name' : Block 256} (other : Block 256) {path : List UInt8} {len : Nat}
    (h : copyName name path len = some name') : ∃ other', copyName other path len = some other' := by
  simp only [copyName] at h ⊢
  split at h
  · rename_i hfit
    rw [dif_pos]
    · exact ⟨_, rfl⟩
    · simpa using hfit
  · cases h

/-! ## Keys -/

/-- The copying loop looks at no characters but those it reaches. -/
theorem upperLoop_congr {src src' : Nat → UInt8} {go : Nat → Bool} {off : Nat} :
    ∀ (n i : Nat) (l : List UInt8), (∀ k, i ≤ k → k < i + n → go k → src k = src' k) →
      upperLoop src go off n i l = upperLoop src' go off n i l := by
  intro n
  induction n with
  | zero => intro i l _; rfl
  | succ n ih =>
    intro i l h
    simp only [upperLoop]
    by_cases hgo : go i
    · rw [h i (Nat.le_refl i) (by omega) hgo]
      by_cases hsrc : src' i ≠ 0 ∧ go i
      · rw [if_pos hsrc, if_pos hsrc]
        exact ih (i + 1) _ fun k hk hk' => h k (by omega) (by omega)
      · rw [if_neg hsrc, if_neg hsrc]
    · rw [if_neg fun e => hgo e.2, if_neg fun e => hgo e.2]

/-- **The key of a name** with an extension of three characters does not
depend on what follows them. -/
theorem fatName_append {base ext : List UInt8} (hbase : 0x2E ∉ base) (hext : ext.length = 3)
    (tail : List UInt8) : fatName (base ++ 0x2E :: ext ++ tail) = fatName (base ++ 0x2E :: ext) := by
  have hfront : ∀ k, k < base.length + 4 →
      (base ++ 0x2E :: ext ++ tail).getD k 0 = (base ++ 0x2E :: ext).getD k 0 := by
    intro k hk
    refine List.getD_append _ _ _ _ ?_
    rw [List.length_append, List.length_cons]
    omega
  have hdot : strchr (base ++ 0x2E :: ext ++ tail) 0x2E = some base.length := by
    rw [List.append_assoc, List.cons_append]
    exact strchr_append_cons hbase
  have hdot' : strchr (base ++ 0x2E :: ext) 0x2E = some base.length := strchr_append_cons hbase
  simp only [fatName, hdot, hdot', Option.getD_some]
  have hfirst : upperLoop ((base ++ 0x2E :: ext ++ tail).getD · 0) (· < base.length) 0 8 0
        (List.replicate 11 0x20)
      = upperLoop ((base ++ 0x2E :: ext).getD · 0) (· < base.length) 0 8 0
        (List.replicate 11 0x20) := by
    refine upperLoop_congr 8 0 _ fun k _ _ hgo => hfront k ?_
    have : k < base.length := by simpa using hgo
    omega
  rw [hfirst]
  split
  · refine upperLoop_congr 3 0 _ fun k _ hk _ => hfront (base.length + k + 1) ?_
    omega
  · rfl

/-- **The key that is looked up** for a component with an extension of three
characters, whatever the stack holds. -/
theorem key_of_three {name name' : Block 256} {base ext : List UInt8} (hbase : 0x2E ∉ base)
    (hext : ext.length = 3) (hzero : 0 ∉ base ++ 0x2E :: ext)
    (h : copyName name (base ++ 0x2E :: ext) (base ++ 0x2E :: ext).length = some name') :
    fatName (cstring name') = fatName (base ++ 0x2E :: ext) := by
  obtain ⟨tail, htail⟩ := cstring_copyName (by rwa [List.take_length]) (Nat.le_refl _) h
  rw [htail, List.take_length, fatName_append hbase hext]

end Netclover.Stage2
