import Netclover.Lib.Ports

/-!
# The 8042 keyboard controller

A controller with a buffer for what is written to it, a buffer for what can be
read, and an output port whose bit 0 resets the processor when it is low and
whose bit 1 is the A20 gate. It takes what is written when it gets around to it,
and the keyboard sends when it likes, so both happen by a schedule, between the
accesses of the processor; if the output port resets the processor meanwhile, the
next access is not made. A byte that is written before the last one has been
taken replaces it. The commands are those that disable and enable the keyboard
and that read and write the output port; the others do nothing here.
-/

namespace I8042

/-- What is written to port 0x64, or to port 0x60. -/
inductive Input where
  | command (v : UInt8)
  | data (v : UInt8)
  deriving DecidableEq, Repr

def disableKeyboard : Input := .command 0xAD

def enableKeyboard : Input := .command 0xAE

def readOutputPort : Input := .command 0xD0

def writeOutputPort : Input := .command 0xD1

structure Kbc where
  input : Option Input
  output : Option UInt8
  outputPort : UInt8
  disabled : Bool
  /-- The next data byte is meant for the output port. -/
  expects : Bool
  /-- The status bits that are no part of this. -/
  flags : UInt8
  /-- All that has been taken. This and the next field are no part of the
  controller. -/
  taken : List Input
  /-- What was to be read when the keyboard was disabled last. -/
  held : Option UInt8

/-- The controller takes what is written, if there is room for the answer; or
it does so in any case, and the answer replaces what was to be read; the
keyboard sends a byte. -/
inductive Happening where
  | take
  | overwrite
  | key (v : UInt8)
  deriving DecidableEq, Repr

namespace Kbc

variable (k : Kbc)

def obey : Input → Kbc
  | .command v =>
    { k with
      output := if v = 0xD0 then some k.outputPort else k.output
      disabled := if v = 0xAD then true else if v = 0xAE then false else k.disabled
      held := if v = 0xAD then k.output else k.held
      expects := v = 0xD1 }
  | .data v => { k with outputPort := if k.expects then v else k.outputPort, expects := false }

def take : Kbc :=
  match k.input with
  | none => k
  | some i => { k.obey i with input := none, taken := k.taken ++ [i] }

def happen : Happening → Kbc
  | .take => if k.input = some readOutputPort ∧ k.output.isSome then k else k.take
  | .overwrite => k.take
  | .key v => if k.disabled || k.output.isSome then k else { k with output := some v }

/-- Bit 0: there is something to read; bit 1: what was written has not been
taken. -/
def status : UInt8 :=
  k.flags &&& 0xFC ||| (if k.input.isSome then 2 else 0) ||| (if k.output.isSome then 1 else 0)

def write (i : Input) : Kbc := { k with input := some i }

/-- What is to be read; nothing is read from an empty buffer here. -/
def shown : UInt8 := k.output.getD 0

def read : Kbc := { k with output := none }

/-- The output port resets the processor. -/
def resets : Bool := k.outputPort &&& 1 == 0

end Kbc

/-! ## The ports -/

/-- The controller, and how many accesses there have been. -/
structure World where
  kbc : Kbc
  time : Nat

/-- What happens before the access with a number. -/
abbrev Schedule : Type := Nat → List Happening

namespace Schedule

variable (schedule : Schedule)

/-- The controller takes what is written within so many accesses. -/
def Patient (patience : Nat) : Prop :=
  ∀ n, ∃ m, n ≤ m ∧ m < n + patience ∧ .take ∈ schedule m

/-- At some time an answer replaces what was to be read. -/
def Overwrites : Prop := ∃ n, .overwrite ∈ schedule n

/-- At some time a key is pressed or released. -/
def Sends : Prop := ∃ n v, .key v ∈ schedule n

end Schedule

namespace World

variable (schedule : Schedule)

def pass (w : World) : World := ⟨(schedule w.time).foldl Kbc.happen w.kbc, w.time + 1⟩

def onKbc (w : World) (f : Kbc → Kbc) : World := { w with kbc := f w.kbc }

end World

/-- Ports 0x60 and 0x64, and others where nothing is. -/
def bus (schedule : Schedule) : I386.Bus World where
  inb port w :=
    let w := w.pass schedule
    if port = 0x64 then (w.kbc.status, w)
    else if port = 0x60 then (w.kbc.shown, w.onKbc Kbc.read)
    else (0, w)
  outb port v w :=
    let w := w.pass schedule
    if port = 0x64 then w.onKbc (·.write (.command v))
    else if port = 0x60 then w.onKbc (·.write (.data v))
    else w
  reset _ w :=
    let w := w.pass schedule
    if w.kbc.resets then some w else none

/-! ## What holds whatever happens -/

/-- Nothing that happens by the schedule makes it false. -/
def Stable (schedule : Schedule) (p : Kbc → Prop) : Prop :=
  ∀ n, ∀ h ∈ schedule n, ∀ k, p k → p (k.happen h)

variable {schedule : Schedule} {p d : Kbc → Prop} {w : World} {k : Kbc}

theorem Stable.foldl (hp : Stable schedule p) {n : Nat} {happenings : List Happening}
    (hsub : happenings ⊆ schedule n) (h : p k) : p (happenings.foldl Kbc.happen k) := by
  induction happenings generalizing k with
  | nil => exact h
  | cons happening happenings ih =>
    obtain ⟨hhead, htail⟩ := List.cons_subset.mp hsub
    exact ih htail (hp n happening hhead k h)

theorem Stable.pass (hp : Stable schedule p) (h : p w.kbc) : p (w.pass schedule).kbc :=
  hp.foldl (List.Subset.refl _) h

theorem Stable.and (hp : Stable schedule p) (hd : Stable schedule d) :
    Stable schedule fun k => p k ∧ d k :=
  fun n h hmem k hk => ⟨hp n h hmem k hk.1, hd n h hmem k hk.2⟩

/-- Where a take leads from `p` to `d`, and `d` is kept, a schedule with a take
does. -/
theorem Stable.pass_take (hp : Stable schedule p) (hd : Stable schedule fun k => p k ∧ d k)
    (htake : ∀ k, p k → d (k.happen .take)) (hmem : .take ∈ schedule w.time) (h : p w.kbc) :
    d (w.pass schedule).kbc := by
  obtain ⟨before, behind, hsplit⟩ := List.append_of_mem hmem
  have hbefore : before ⊆ schedule w.time := by
    rw [hsplit]
    exact List.subset_append_left ..
  have hbehind : behind ⊆ schedule w.time := by
    rw [hsplit]
    exact fun h hmem => List.mem_append_right _ (List.mem_cons_of_mem _ hmem)
  have hk := hp.foldl hbefore h
  rw [World.pass, hsplit, List.foldl_append, List.foldl_cons]
  exact (hd.foldl hbehind ⟨hp _ _ hmem _ hk, htake _ hk⟩).2

/-! ## Commands -/

@[simp] theorem take_none (h : k.input = none) : k.take = k := by
  rw [Kbc.take, h]

/-- A key changes only what is to be read, and only where there was nothing. -/
theorem happen_key (k : Kbc) (v : UInt8) : k.happen (.key v) = k ∨
    k.disabled = false ∧ k.output = none ∧ k.happen (.key v) = { k with output := some v } := by
  rw [Kbc.happen]
  split
  · exact .inl rfl
  · rename_i hfree
    simp only [Bool.or_eq_true, not_or, Bool.not_eq_true, Option.isSome_eq_false_iff,
      Option.isNone_iff_eq_none] at hfree
    exact .inr ⟨hfree.1, hfree.2, rfl⟩

/-- The keyboard does not make it false. -/
def Unkeyed (schedule : Schedule) (p : Kbc → Prop) : Prop :=
  ∀ n v, .key v ∈ schedule n → ∀ k, k.disabled = false → k.output = none → p k →
    p { k with output := some v }

theorem Unkeyed.of_disabled (h : ∀ k, p k → k.disabled = true) : Unkeyed schedule p := by
  intro n v _ k hdisabled _ hk
  rw [h k hk] at hdisabled
  cases hdisabled

/-- With nothing written. -/
def Idle (p : Kbc → Prop) (k : Kbc) : Prop := k.input = none ∧ p k

theorem Idle.stable (hp : Unkeyed schedule p) : Stable schedule (Idle p) := by
  rintro n happening hmem k ⟨hinput, hk⟩
  cases happening with
  | take =>
    rw [Kbc.happen, take_none hinput, ite_self]
    exact ⟨hinput, hk⟩
  | overwrite =>
    rw [Kbc.happen, take_none hinput]
    exact ⟨hinput, hk⟩
  | key v =>
    rcases happen_key k v with hsame | ⟨hdisabled, houtput, hkey⟩
    · rw [hsame]
      exact ⟨hinput, hk⟩
    · rw [hkey]
      exact ⟨hinput, hp n v hmem k hdisabled houtput hk⟩

/-- A byte has been written where `p` held, or it has been taken. -/
def Sent (i : Input) (p d : Kbc → Prop) (k : Kbc) : Prop :=
  (k.input = some i ∧ p { k with input := none }) ∨ Idle d k

/-- To take the byte leads from `p` to `d`; the output port is answered with
where there is room, or where that does not matter. -/
def Leads (schedule : Schedule) (i : Input) (p d : Kbc → Prop) : Prop :=
  ∀ k, k.input = none → (i = readOutputPort → k.output = none ∨ schedule.Overwrites) → p k →
    d { k.obey i with taken := k.taken ++ [i] }

theorem take_sent {i : Input} (h : k.input = some i) (hlead : Leads schedule i p d)
    (hroom : i = readOutputPort → k.output = none ∨ schedule.Overwrites)
    (hk : p { k with input := none }) : Idle d k.take := by
  have htake : k.take = { ({ k with input := none } : Kbc).obey i with
      taken := ({ k with input := none } : Kbc).taken ++ [i] } := by
    rw [Kbc.take, h]
    cases i <;> rfl
  rw [htake]
  refine ⟨?_, hlead _ rfl hroom hk⟩
  cases i <;> rfl

/-- A take finds the byte taken, or no room for the answer. -/
theorem Sent.take {i : Input} (hlead : Leads schedule i p d) (h : Sent i p d k) :
    Idle d (k.happen .take) ∨ k.happen .take = k ∧ i = readOutputPort ∧ k.output ≠ none := by
  rcases h with ⟨hinput, hk⟩ | ⟨hinput, hk⟩
  · rw [Kbc.happen]
    split
    · rename_i hblocked
      have hread := Option.some.inj (hinput.symm.trans hblocked.1)
      exact .inr ⟨rfl, hread, Option.isSome_iff_ne_none.mp hblocked.2⟩
    · rename_i hfree
      refine .inl (take_sent hinput hlead (fun hread => .inl ?_) hk)
      rw [hinput, hread, not_and, Option.not_isSome_iff_eq_none] at hfree
      exact hfree rfl
  · refine .inl ?_
    rw [Kbc.happen, take_none hinput, ite_self]
    exact ⟨hinput, hk⟩

/-- **Until it is taken** a byte waits, and nothing is lost. -/
theorem Sent.stable {i : Input} (hp : Unkeyed schedule p) (hd : Unkeyed schedule d)
    (hlead : Leads schedule i p d) : Stable schedule (Sent i p d) := by
  rintro n happening hmem k hsent
  cases happening with
  | take =>
    rcases Sent.take hlead hsent with hidle | ⟨hsame, -⟩
    · exact .inr hidle
    · rw [hsame]
      exact hsent
  | overwrite =>
    rcases hsent with ⟨hinput, hk⟩ | hidle
    · exact .inr (take_sent hinput hlead (fun _ => .inr ⟨n, hmem⟩) hk)
    · exact .inr (Idle.stable hd n _ hmem k hidle)
  | key v =>
    rcases hsent with ⟨hinput, hk⟩ | hidle
    · rcases happen_key k v with hsame | ⟨hdisabled, houtput, hkey⟩
      · rw [hsame]
        exact .inl ⟨hinput, hk⟩
      · rw [hkey]
        exact .inl ⟨hinput, hp n v hmem { k with input := none } hdisabled houtput hk⟩
    · exact .inr (Idle.stable hd n _ hmem k hidle)

/-- Where the byte resets nothing, nothing does. -/
theorem Sent.up {i : Input} (hp : ∀ k, p k → k.resets = false)
    (hd : ∀ k, d k → k.resets = false) (h : Sent i p d k) : k.resets = false := by
  rcases h with ⟨-, hk⟩ | ⟨-, hk⟩
  · have hwaits : ({ k with input := none } : Kbc).resets = false := hp _ hk
    exact hwaits
  · exact hd _ hk

/-- A byte that is written where nothing was. -/
theorem Idle.write (h : Idle p k) (i : Input) (d : Kbc → Prop) : Sent i p d (k.write i) := by
  refine .inl ⟨rfl, ?_⟩
  have hsame : ({ k.write i with input := none } : Kbc) = k := by
    rw [← h.1]
    rfl
  rw [hsame]
  exact h.2

/-! ## The status -/

/-- The other bits do not matter to a mask of the lower two. -/
theorem status_bits {mask : UInt8} (hmask : 0xFC &&& mask = 0) (flags a b : UInt8) :
    (flags &&& 0xFC ||| a ||| b) &&& mask = (a ||| b) &&& mask := by
  have hflags : flags &&& 0xFC &&& mask = 0 := by
    rw [UInt8.and_assoc, hmask]
    exact UInt8.and_zero
  have hdistrib : (flags &&& 0xFC ||| (a ||| b)) &&& mask
      = flags &&& 0xFC &&& mask ||| (a ||| b) &&& mask := by
    rw [← UInt8.toNat_inj]
    simp only [UInt8.toNat_and, UInt8.toNat_or, Nat.and_or_distrib_right]
  rw [UInt8.or_assoc, hdistrib, hflags]
  exact UInt8.zero_or

theorem status_input (k : Kbc) : (k.status &&& 2 == 0) = k.input.isNone := by
  rw [Kbc.status, status_bits (by rfl), ← Option.not_isSome]
  generalize k.input.isSome = full
  generalize k.output.isSome = ready
  revert full ready
  decide

theorem status_output (k : Kbc) : (k.status &&& 1 == 0) = k.output.isNone := by
  rw [Kbc.status, status_bits (by rfl), ← Option.not_isSome]
  generalize k.input.isSome = full
  generalize k.output.isSome = ready
  revert full ready
  decide

end I8042
