import Netclover.Stage2.Names
import Netclover.Stage2.Mount

/-!
# The components of a path

`FAT_Open` copies one component after the other into one buffer, and ends each
of them one character late. `openLoop_eq_walk` splits it into the names it
hands to `FAT_FindFile`, which depend on the path and the buffer alone, and
the walk over them; `fatOpen_hands` says for which buffers the names are the
components.
-/

namespace Netclover.Stage2

open Proc Libc

variable {σ : Type} {M : Machine σ} {env : Env}

/-! ## Paths -/

/-- What stands between two slashes, and fits the buffer with its end. -/
structure IsComponent (c : List UInt8) : Prop where
  nonempty : 1 ≤ c.length
  fits : c.length ≤ 254
  chars : ∀ x ∈ c, x ≠ 0 ∧ x ≠ 0x2F

/-- A path without a leading slash, and its components. -/
inductive HasComponents : List UInt8 → List (List UInt8) → Prop
  | nil : HasComponents [] []
  | last {c : List UInt8} : IsComponent c → HasComponents c [c]
  | cons {c path : List UInt8} {comps : List (List UInt8)} : IsComponent c →
      HasComponents path comps → HasComponents (c ++ 0x2F :: path) (c :: comps)

/-- The path behind a leading slash. -/
def relative (path : List UInt8) : List UInt8 :=
  if path.head? = some 0x2F then path.tail else path

namespace IsComponent

variable {c : List UInt8} (hc : IsComponent c)
include hc

theorem ne_nil : c ≠ [] := by
  have := hc.nonempty
  rintro rfl
  simp at this

theorem strchr_cons (path : List UInt8) : strchr (c ++ 0x2F :: path) 0x2F = some c.length :=
  strchr_append_cons fun h => (hc.chars _ h).2 rfl

theorem strchr_last : strchr c 0x2F = none := strchr_eq_none fun h => (hc.chars _ h).2 rfl

/-- Passes enough for a path are enough for what is behind its first component. -/
theorem passes_cons {path : List UInt8} {n : Nat} (hn : (c ++ 0x2F :: path).length ≤ n) :
    ∃ m, n = m + 1 ∧ path.length ≤ m := by
  have := hc.nonempty
  rw [List.length_append, List.length_cons] at hn
  exact ⟨n - 1, by omega, by omega⟩

end IsComponent

/-! ## One component in the buffer -/

/-- The buffer once a component has been copied into it. -/
def stored (name : Block 256) (c : List UInt8) : Block 256 := (copyName name c c.length).getD name

theorem copyName_append {c : List UInt8} (hc : IsComponent c) (name : Block 256)
    (rest : List UInt8) : copyName name (c ++ rest) c.length = some (stored name c) := by
  have hfits := hc.fits
  have htake : (c ++ rest).take c.length = c := by simp
  have hlen : (((c ++ name.bytes.drop c.length).set (c.length + 1) 0).length = 256
      ∧ c.length + 1 < 256) := by
    simp only [List.length_set, List.length_append, List.length_drop, Block.length_bytes]
    omega
  simp only [stored, copyName, htake, List.take_length]
  rw [dif_pos hlen]
  rfl

theorem bytes_stored {c : List UInt8} (hc : IsComponent c) (name : Block 256) :
    (stored name c).bytes = c ++ (name.bytes.drop c.length).set 1 0 := by
  have hcopy := copyName_append hc name []
  rw [List.append_nil] at hcopy
  simp only [copyName, List.take_length] at hcopy
  split at hcopy
  · have hbytes := congrArg Block.bytes (Option.some.inj hcopy)
    rw [← hbytes]
    show (c ++ name.bytes.drop c.length).set (c.length + 1) 0 = _
    rw [List.set_append_right _ _ (by omega), Nat.add_sub_cancel_left]
  · cases hcopy

/-- **The name** that is looked up for a component: one character of what the
buffer held is left behind it. -/
theorem cstring_stored {c : List UInt8} (hc : IsComponent c) (name : Block 256) :
    cstring (stored name c)
      = c ++ if name.bytes.getD c.length 0 = 0 then [] else [name.bytes.getD c.length 0] := by
  have hfits := hc.fits
  have hlen := name.length_bytes
  have hdrop : name.bytes.drop c.length = name.bytes.getD c.length 0
      :: name.bytes.getD (c.length + 1) 0 :: name.bytes.drop (c.length + 2) := by
    rw [List.drop_eq_getElem_cons (by omega), List.drop_eq_getElem_cons (i := c.length + 1) (by omega),
      List.getD_eq_getElem _ _ (by omega), List.getD_eq_getElem _ _ (by omega)]
  rw [cstring, bytes_stored hc, hdrop, List.takeWhile_append_of_pos]
  · generalize name.bytes.getD c.length 0 = x
    congr 1
    by_cases hzero : x = 0
    · simp [hzero]
    · simp [hzero]
  · intro x hx
    have := (hc.chars x hx).1
    simpa using this

theorem cstring_stored_eq_iff {c : List UInt8} (hc : IsComponent c) (name : Block 256) :
    cstring (stored name c) = c ↔ name.bytes.getD c.length 0 = 0 := by
  rw [cstring_stored hc]
  generalize name.bytes.getD c.length 0 = x
  by_cases hzero : x = 0
  · simp [hzero]
  · simp [hzero]

/-! ## The names and the walk -/

/-- The names that `FAT_Open` hands to `FAT_FindFile` until the path ends, and
whether a slash follows each. -/
def handed : Nat → Block 256 → List UInt8 → List (List UInt8 × Bool)
  | 0, _, _ => []
  | n + 1, name, path =>
    if path = [] then []
    else
      let delim := strchr path 0x2F
      let len := delim.getD path.length
      match copyName name path len with
      | none => []
      | some name => (cstring name, delim.isSome) :: handed n name (path.drop (len + 1))

/-- The names for a whole path, with or without a leading slash. -/
def handedNames (stack : Block 256) (path : List UInt8) : List (List UInt8 × Bool) :=
  handed (relative path).length stack (relative path)

/-- `FAT_Open` behind the splitting of the path. -/
def walk (M : Machine σ) (env : Env) (fuel : Nat) :
    List (List UInt8 × Bool) → Driver → Option FilePtr → Proc σ Stop (Driver × Option FilePtr)
  | [], d, current => pure (d, current)
  | (name, delim) :: names, d, current => do
    let (d, entry) ← fatFindFile M env fuel d current name
    let d ← fatClose d current
    match entry with
    | none => return (d, none)
    | some entry =>
      if delim && !entry.isDirectory then return (d, none)
      else
        let (d, current) ← fatOpenEntry M d entry
        walk M env fuel names d current

theorem handed_nil (n : Nat) (name : Block 256) : handed n name [] = [] := by
  cases n with
  | zero => rfl
  | succ n => rw [handed, if_pos rfl]

theorem handed_last {c : List UInt8} (hc : IsComponent c) (n : Nat) (name : Block 256) :
    handed (n + 1) name c = [(cstring (stored name c), false)] := by
  have hcopy := copyName_append hc name []
  rw [List.append_nil] at hcopy
  rw [handed, if_neg hc.ne_nil]
  simp only [hc.strchr_last, Option.getD_none, hcopy, Option.isSome_none]
  rw [List.drop_of_length_le (by omega), handed_nil]

theorem handed_cons {c : List UInt8} (hc : IsComponent c) (n : Nat) (name : Block 256)
    (path : List UInt8) : handed (n + 1) name (c ++ 0x2F :: path)
      = (cstring (stored name c), true) :: handed n (stored name c) path := by
  rw [handed, if_neg (by simp)]
  simp only [hc.strchr_cons, Option.getD_some, copyName_append hc, Option.isSome_some]
  congr 2
  simp [List.drop_append]

/-- **`FAT_Open`'s loop** is the walk over the names it hands over. -/
theorem openLoop_eq_walk {path : List UInt8} {comps : List (List UInt8)}
    (h : HasComponents path comps) (fuel : Nat) {n : Nat} (hn : path.length ≤ n) (name : Block 256)
    (d : Driver) (current : Option FilePtr) :
    openLoop M env fuel n name d current path
      = walk M env fuel (handed n name path) d current := by
  induction h generalizing n name d current with
  | nil => rw [openLoop_nil, handed_nil, walk]
  | @last c hc =>
    obtain ⟨n, rfl⟩ := Nat.exists_eq_add_of_le' (Nat.le_trans hc.nonempty hn)
    have hcopy := copyName_append hc name []
    rw [List.append_nil] at hcopy
    rw [handed_last hc, openLoop, if_neg hc.ne_nil, walk]
    simp only [hc.strchr_last, Option.getD_none, hcopy, Option.isSome_none, walk]
    rw [List.drop_of_length_le (by omega)]
    refine bind_congr fun r => bind_congr fun d => ?_
    cases r.2 with
    | none => rfl
    | some entry =>
      dsimp only
      split
      · rfl
      · exact bind_congr fun r => openLoop_nil fuel n _ r.1 r.2
  | @cons c path comps hc h ih =>
    obtain ⟨n, rfl, hn'⟩ := hc.passes_cons hn
    have hdrop : (c ++ 0x2F :: path).drop (c.length + 1) = path := by simp [List.drop_append]
    -- the rest of the path is walked from the buffer this component leaves
    rw [handed_cons hc, openLoop, if_neg (by simp), walk]
    simp only [hc.strchr_cons, Option.getD_some, copyName_append hc, Option.isSome_some, hdrop]
    refine bind_congr fun r => bind_congr fun d => ?_
    cases r.2 with
    | none => rfl
    | some entry =>
      dsimp only
      split
      · rfl
      · exact bind_congr fun r => ih hn' _ r.1 r.2

/-! ## Which names are the components -/

/-- Whenever a component is copied, the buffer holds a terminator behind the
place where it comes to stand. -/
def Terminated : Block 256 → List (List UInt8) → Prop
  | _, [] => True
  | name, c :: comps => name.bytes.getD c.length 0 = 0 ∧ Terminated (stored name c) comps

theorem handed_take_iff {path : List UInt8} {comps : List (List UInt8)}
    (h : HasComponents path comps) {n : Nat} (hn : path.length ≤ n) (name : Block 256) (j : Nat) :
    ((handed n name path).map Prod.fst).take j = comps.take j ↔ Terminated name (comps.take j) := by
  induction h generalizing n name j with
  | nil => simp [handed_nil, Terminated]
  | @last c hc =>
    obtain ⟨n, rfl⟩ := Nat.exists_eq_add_of_le' (Nat.le_trans hc.nonempty hn)
    cases j with
    | zero => simp [Terminated]
    | succ j => simp [handed_last hc, Terminated, cstring_stored_eq_iff hc]
  | @cons c path comps hc h ih =>
    obtain ⟨n, rfl, hn'⟩ := hc.passes_cons hn
    cases j with
    | zero => simp [Terminated]
    | succ j =>
      rw [handed_cons hc, List.map_cons, List.take_succ_cons, List.take_succ_cons, List.cons.injEq,
        cstring_stored_eq_iff hc, ih hn']
      rfl

/-- The names do not depend on a buffer that holds the terminators. -/
theorem handed_congr {path : List UInt8} {comps : List (List UInt8)} (h : HasComponents path comps)
    {n : Nat} (hn : path.length ≤ n) {name name' : Block 256} (ht : Terminated name comps)
    (ht' : Terminated name' comps) : handed n name path = handed n name' path := by
  induction h generalizing n name name' with
  | nil => rw [handed_nil, handed_nil]
  | @last c hc =>
    obtain ⟨n, rfl⟩ := Nat.exists_eq_add_of_le' (Nat.le_trans hc.nonempty hn)
    rw [handed_last hc, handed_last hc, (cstring_stored_eq_iff hc name).mpr ht.1,
      (cstring_stored_eq_iff hc name').mpr ht'.1]
  | @cons c path comps hc h ih =>
    obtain ⟨n, rfl, hn'⟩ := hc.passes_cons hn
    rw [handed_cons hc, handed_cons hc, (cstring_stored_eq_iff hc name).mpr ht.1,
      (cstring_stored_eq_iff hc name').mpr ht'.1, ih hn' ht.2 ht'.2]

/-- A lookup does not look at the stack. -/
theorem fatFindFile_stack (stack : Block 256) (fuel : Nat) (d : Driver) (file : Option FilePtr)
    (name : List UInt8) :
    fatFindFile M { env with stack } fuel d file name = fatFindFile M env fuel d file name := by
  have hnext : ∀ v fd, nextSector v { env with stack } fd = nextSector v env fd := fun _ _ => rfl
  have hpass : ∀ v, readPass M v { env with stack } = readPass M v env := by
    intro v
    funext st
    simp only [readPass, readNext, hnext]
  have hfind : findPass M { env with stack } file (fatName name)
      = findPass M env file (fatName name) := by
    funext r
    simp only [findPass, fatReadEntry, fatRead, readFile, hpass]
  rw [fatFindFile, hfind]
  rfl

theorem walk_stack (stack : Block 256) (fuel : Nat) (names : List (List UInt8 × Bool)) (d : Driver)
    (current : Option FilePtr) :
    walk M { env with stack } fuel names d current = walk M env fuel names d current := by
  induction names generalizing d current with
  | nil => rfl
  | cons name names ih => simp only [walk, fatFindFile_stack, ih]

/-- **`FAT_Open`** is a walk over the names it hands over. The first of them,
however many, are the components of the path if and only if the name buffer is
terminated for them; and where it is for all, no other stack makes a
difference. -/
theorem fatOpen_hands {path : List UInt8} {comps : List (List UInt8)}
    (h : HasComponents (relative path) comps) (M : Machine σ) (env : Env) (fuel : Nat) (d : Driver) :
    fatOpen M env fuel d path = walk M env fuel (handedNames env.stack path) d (some .root) ∧
    (∀ j, ((handedNames env.stack path).map Prod.fst).take j = comps.take j ↔
      Terminated env.stack (comps.take j)) ∧
    ∀ stack, Terminated env.stack comps → Terminated stack comps →
      fatOpen M { env with stack } fuel d path = fatOpen M env fuel d path := by
  have hwalk : ∀ env : Env, fatOpen M env fuel d path
      = walk M env fuel (handedNames env.stack path) d (some .root) :=
    fun env => openLoop_eq_walk h fuel (Nat.le_refl _) env.stack d (some .root)
  refine ⟨hwalk env, handed_take_iff h (Nat.le_refl _) env.stack, ?_⟩
  intro stack ht ht'
  have hnames : handedNames stack path = handedNames env.stack path :=
    handed_congr h (Nat.le_refl _) ht' ht
  rw [hwalk, hwalk, walk_stack, hnames]

/-- `a/b`, on a stack that holds zeros. -/
theorem fatOpen_hands_sample : HasComponents (relative [0x61, 0x2F, 0x62]) [[0x61], [0x62]] ∧
    ((handedNames sampleEnv.stack [0x61, 0x2F, 0x62]).map Prod.fst).take 2 = [[0x61], [0x62]] := by
  have hcomponents : HasComponents (relative [0x61, 0x2F, 0x62]) [[0x61], [0x62]] :=
    .cons (c := [0x61]) ⟨by decide, by decide, by decide +kernel⟩
      (.last ⟨by decide, by decide, by decide +kernel⟩)
  have hterminated : Terminated sampleEnv.stack [[0x61], [0x62]] :=
    ⟨by decide, by decide +kernel, trivial⟩
  exact ⟨hcomponents, ((fatOpen_hands hcomponents sampleMachine sampleEnv 0 sampleMounted).2.1 2).mpr
    hterminated⟩

/-- **The defect.** `b.bi` is no file of the small volume. Where the stack
holds an `n` in the right place, `FAT_Open` looks up `b.bin` and opens it. -/
theorem fatOpen_hands_garbage :
    HasComponents (relative [0x62, 0x2E, 0x62, 0x69]) [[0x62, 0x2E, 0x62, 0x69]] ∧
    (handedNames (Block.pad 256 [0, 0, 0, 0, 0x6E]) [0x62, 0x2E, 0x62, 0x69]).map Prod.fst
      ≠ [[0x62, 0x2E, 0x62, 0x69]] ∧
    (∃ d, fatOpen sampleMachine sampleEnv 20 sampleMounted [0x62, 0x2E, 0x62, 0x69] ()
      = .ok ((d, none), ())) ∧
    ∃ d p, fatOpen sampleMachine { sampleEnv with stack := Block.pad 256 [0, 0, 0, 0, 0x6E] } 20
      sampleMounted [0x62, 0x2E, 0x62, 0x69] () = .ok ((d, some p), ()) := by
  have hmissing : passes (fun r _ => r.2 == none)
      (fatOpen sampleMachine sampleEnv 20 sampleMounted [0x62, 0x2E, 0x62, 0x69] ()) = true := by
    decide +kernel
  have hfound : passes (fun r _ => r.2 == some (.slot firstSlot))
      (fatOpen sampleMachine { sampleEnv with stack := Block.pad 256 [0, 0, 0, 0, 0x6E] } 20
        sampleMounted [0x62, 0x2E, 0x62, 0x69] ()) = true := by decide +kernel
  obtain ⟨⟨d, r⟩, s, hrun, hr⟩ := of_passes hmissing
  obtain ⟨⟨d', r'⟩, s', hrun', hr'⟩ := of_passes hfound
  obtain rfl : r = none := by simpa using hr
  obtain rfl : r' = some (.slot firstSlot) := by simpa using hr'
  exact ⟨.last ⟨by decide, by decide, by decide +kernel⟩, by decide +kernel, ⟨d, hrun⟩, d', _, hrun'⟩

end Netclover.Stage2
