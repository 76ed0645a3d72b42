import Netclover.Lib.I8042
import Netclover.Stage1.DiskRoutines

/-!
# The A20 gate (`boot.asm`)

`EnableA20` and the two loops it waits in, instruction by instruction, against a
keyboard controller with a schedule of its own. What is read for the output port
is written to it with the bit of the gate set, and that is not the port if a key
was waiting to be read. If the reset bit is high in it, the controller gets the
five bytes in order and none is lost, the gate is open and the keyboard enabled
behind it, whatever the schedule is; if it is low, the processor is reset when
the controller takes it (`enableA20_opens`).
-/

namespace Netclover.Stage1

open I386 Asm I8042

variable {σ τ : Type}

/-! ## The routines -/

/-- A pass of `A20WaitInput` or of `A20WaitOutput`. -/
def a20Poll (bus : Bus σ) (mask : UInt8) (again : Bool → Bool) (_ : Unit) :
    Asm σ (Unit × Bool) := do
  inAl bus 0x64
  testbImm .al mask
  return ((), again (← je))

/-- `A20WaitInput`, with a loop of at most `fuel` passes. -/
def a20WaitInput (bus : Bus σ) (fuel : Nat) : Asm σ Unit := do
  -- jnz
  Proc.iterate .unfinished (a20Poll bus 2 not) fuel ()
  retw

/-- `A20WaitOutput`. -/
def a20WaitOutput (bus : Bus σ) (fuel : Nat) : Asm σ Unit := do
  -- jz
  Proc.iterate .unfinished (a20Poll bus 1 id) fuel ()
  retw

/-- `EnableA20`; the calls return to `next 0` and so on. -/
def enableA20 (bus : Bus σ) (next : Nat → Bytes) (fuel : Nat) : Asm σ Unit := do
  callw (next 0) (a20WaitInput bus fuel)
  movbImm .al 0xAD
  outAl bus 0x64
  callw (next 1) (a20WaitInput bus fuel)
  movbImm .al 0xD0
  outAl bus 0x64
  callw (next 2) (a20WaitOutput bus fuel)
  inAl bus 0x60
  pushw .ax
  callw (next 3) (a20WaitInput bus fuel)
  movbImm .al 0xD1
  outAl bus 0x64
  callw (next 4) (a20WaitInput bus fuel)
  popw .ax
  orbImm .al 2
  outAl bus 0x60
  callw (next 5) (a20WaitInput bus fuel)
  movbImm .al 0xAE
  outAl bus 0x64
  callw (next 6) (a20WaitInput bus fuel)
  retw

/-! ## Waiting -/

section

variable {schedule : Schedule} {patience fuel : Nat} {p d : Kbc → Prop} {c : Cpu} {w : World × τ}

/-- The access is made. -/
theorem bus_up {port : UInt16} (h : (w.1.pass schedule).kbc.resets = false) :
    (I8042.bus schedule).left.reset port w = none := by
  show Option.map _ (if (w.1.pass schedule).kbc.resets = true then _ else none) = none
  rw [h]
  rfl

theorem bus_down {port : UInt16} (h : (w.1.pass schedule).kbc.resets = true) :
    (I8042.bus schedule).left.reset port w = some (w.1.pass schedule, w.2) := by
  show Option.map _ (if (w.1.pass schedule).kbc.resets = true then _ else none) = _
  rw [h]
  rfl

/-- A loop ends where a take leads to, and what nothing changes is kept. -/
theorem a20Poll_runs {mask : UInt8} {again : Bool → Bool} (hp : Stable schedule p)
    (hd : Stable schedule fun k => p k ∧ d k) (htake : ∀ k, p k → d (k.happen .take))
    (hstatus : ∀ k, again (k.status &&& mask == 0) = false ↔ d k)
    (hup : ∀ k, p k → k.resets = false)
    (hdue : ∃ m, w.1.time ≤ m ∧ m < w.1.time + fuel ∧ .take ∈ schedule m) (h : p w.1.kbc) :
    Runs (Proc.iterate .unfinished (a20Poll (I8042.bus schedule).left mask again) fuel ()) c w
      fun _ c' w' => c.Polled c' ∧ w'.2 = w.2 ∧ p w'.1.kbc ∧ d w'.1.kbc := by
  induction fuel generalizing c w with
  | zero =>
    obtain ⟨m, hle, hlt, -⟩ := hdue
    omega
  | succ fuel ih =>
    obtain ⟨m, hle, hlt, hmem⟩ := hdue
    have hpass : p (w.1.pass schedule).kbc := hp.pass h
    rw [Proc.iterate_succ]
    apply Runs.bind
    rw [a20Poll]
    apply Runs.inAl (bus_up (hup _ hpass))
    apply Runs.upd
    apply Runs.flag
    apply Runs.pure
    show Runs (if again ((w.1.pass schedule).kbc.status &&& mask == 0) = true then _ else _) _ _ _
    generalize hx : Cpu.setFlags _ _ _ = x
    have hpolled : c.Polled x := by
      subst hx
      exact (Cpu.Polled.setByte c _).trans (Cpu.Polled.setFlags ..)
    by_cases hmore : again ((w.1.pass schedule).kbc.status &&& mask == 0) = true
    · rw [if_pos hmore]
      -- the take is still to come
      have hlater : m ≠ w.1.time := by
        rintro rfl
        have hdone := (hstatus _).mpr (hp.pass_take hd htake hmem h)
        rw [hmore] at hdone
        cases hdone
      have hdue' : ∃ m, w.1.time + 1 ≤ m ∧ m < w.1.time + 1 + fuel ∧ .take ∈ schedule m :=
        ⟨m, by omega, by omega, hmem⟩
      apply (ih (w := (w.1.pass schedule, w.2)) hdue' hpass).mono
      rintro - c' w' ⟨hc, hw, hkept⟩
      exact ⟨hpolled.trans hc, hw, hkept⟩
    · rw [if_neg hmore]
      apply Runs.pure
      exact ⟨hpolled, rfl, hpass, (hstatus _).mp (Bool.not_eq_true _ ▸ hmore)⟩

/-- A loop in which a take resets the processor. -/
theorem a20Poll_resets {mask : UInt8} {again : Bool → Bool} (hp : Stable schedule p)
    (hd : Stable schedule fun k => p k ∧ d k) (htake : ∀ k, p k → d (k.happen .take))
    (hstatus : ∀ k, p k → ¬ d k → again (k.status &&& mask == 0) = true)
    (hdown : ∀ k, p k → (k.resets = true ↔ d k))
    (hdue : ∃ m, w.1.time ≤ m ∧ m < w.1.time + fuel ∧ .take ∈ schedule m) (h : p w.1.kbc) :
    Resets (Proc.iterate .unfinished (a20Poll (I8042.bus schedule).left mask again) fuel ()) c w
      fun w' => w'.2 = w.2 ∧ p w'.1.kbc ∧ d w'.1.kbc := by
  induction fuel generalizing c w with
  | zero =>
    obtain ⟨m, hle, hlt, -⟩ := hdue
    omega
  | succ fuel ih =>
    obtain ⟨m, hle, hlt, hmem⟩ := hdue
    have hpass : p (w.1.pass schedule).kbc := hp.pass h
    rw [Proc.iterate_succ]
    by_cases hdone : d (w.1.pass schedule).kbc
    · apply Resets.bind
      rw [a20Poll]
      exact Resets.bind (Resets.inAl (bus_down ((hdown _ hpass).mpr hdone)) ⟨rfl, hpass, hdone⟩)
    · have hup : (w.1.pass schedule).kbc.resets = false := by
        rw [← Bool.not_eq_true, hdown _ hpass]
        exact hdone
      apply Resets.after
      rw [a20Poll]
      apply Runs.inAl (bus_up hup)
      apply Runs.upd
      apply Runs.flag
      apply Runs.pure
      show Resets (if again ((w.1.pass schedule).kbc.status &&& mask == 0) = true then _ else _) _
        _ _
      rw [if_pos (hstatus _ hpass hdone)]
      -- the take is still to come
      have hlater : m ≠ w.1.time := by
        rintro rfl
        exact hdone (hp.pass_take hd htake hmem h)
      exact ih (w := (w.1.pass schedule, w.2)) ⟨m, by exact Nat.lt_of_le_of_ne hle hlater.symm,
        by show m < w.1.time + 1 + fuel; omega, hmem⟩ hpass

theorem due (hpatient : schedule.Patient patience) (hfuel : patience ≤ fuel) (n : Nat) :
    ∃ m, n ≤ m ∧ m < n + fuel ∧ .take ∈ schedule m := by
  obtain ⟨m, hle, hlt, hmem⟩ := hpatient n
  exact ⟨m, hle, by omega, hmem⟩

/-- **`A20WaitInput`** returns when what was written has been taken. -/
theorem a20WaitInput_runs {i : Input} {next : Bytes} (hpatient : schedule.Patient patience)
    (hfuel : patience ≤ fuel) (hp : Unkeyed schedule p) (hd : Unkeyed schedule d)
    (hlead : Leads schedule i p d) (hroom : i = readOutputPort → ∀ k, p k → k.output = none)
    (hup : ∀ k, p k → k.resets = false) (hup' : ∀ k, d k → k.resets = false)
    (h : Sent i p d w.1.kbc) :
    Runs (callw next (a20WaitInput (I8042.bus schedule).left fuel)) c w
      fun _ c' w' => c.Polled c' ∧ w'.2 = w.2 ∧ Idle d w'.1.kbc := by
  have hstable := Sent.stable hp hd hlead
  have htake : ∀ k, Sent i p d k → Idle d (k.happen .take) := by
    intro k hk
    rcases Sent.take hlead hk with hidle | ⟨-, hread, houtput⟩
    · exact hidle
    · rcases hk with ⟨-, hk⟩ | hidle
      · exact absurd (hroom hread _ hk) houtput
      · rw [Kbc.happen, take_none hidle.1, ite_self]
        exact hidle
  have hdone : Stable schedule fun k => Sent i p d k ∧ k.input = none := by
    rintro n happening hmem k ⟨hk, hinput⟩
    have hidle : Idle d k := by
      rcases hk with ⟨hsome, -⟩ | hidle
      · rw [hinput] at hsome
        cases hsome
      · exact hidle
    have hnext := Idle.stable hd n happening hmem k hidle
    exact ⟨.inr hnext, hnext.1⟩
  have hstatus : ∀ k : Kbc, (!(k.status &&& 2 == 0)) = false ↔ k.input = none := by
    intro k
    rw [status_input, Bool.not_eq_false', Option.isNone_iff_eq_none]
  apply Runs.callw
  rw [a20WaitInput]
  apply Runs.bind
  have hloop := a20Poll_runs (c := c.pushWord next) hstable hdone (fun k hk => (htake k hk).1)
    hstatus (fun _ hk => Sent.up hup hup' hk)
    (due hpatient hfuel _) h
  apply hloop.mono
  rintro - c' w' ⟨hpolled, hw, hsent, hinput⟩
  refine Runs.retw (by exact hpolled.stack) ?_
  refine ⟨rfl, hpolled.returned, hw, ?_⟩
  rcases hsent with ⟨hsome, -⟩ | hidle
  · rw [hinput] at hsome
    cases hsome
  · exact hidle

/-- It does not where the byte resets the processor. -/
theorem a20WaitInput_resets {i : Input} {next : Bytes} (hpatient : schedule.Patient patience)
    (hfuel : patience ≤ fuel) (hp : Unkeyed schedule p) (hd : Unkeyed schedule d)
    (hlead : Leads schedule i p d) (hread : i ≠ readOutputPort)
    (hup : ∀ k, p k → k.resets = false) (hdown : ∀ k, d k → k.resets = true)
    (h : Sent i p d w.1.kbc) :
    Resets (callw next (a20WaitInput (I8042.bus schedule).left fuel)) c w
      fun w' => w'.2 = w.2 ∧ Idle d w'.1.kbc := by
  have htake : ∀ k, Sent i p d k → Idle d (k.happen .take) :=
    fun k hk => (Sent.take hlead hk).resolve_right fun h => hread h.2.1
  have hdone : Stable schedule fun k => Sent i p d k ∧ Idle d k := by
    rintro n happening hmem k ⟨-, hidle⟩
    have hnext := Idle.stable hd n happening hmem k hidle
    exact ⟨.inr hnext, hnext⟩
  have hstatus : ∀ k, Sent i p d k → ¬ Idle d k → (!(k.status &&& 2 == 0)) = true := by
    intro k hk hnot
    obtain ⟨hinput, -⟩ := hk.resolve_right hnot
    rw [status_input, hinput]
    rfl
  have hresets : ∀ k, Sent i p d k → (k.resets = true ↔ Idle d k) := by
    intro k hk
    refine ⟨fun hreset => hk.resolve_left fun hwaits => ?_, fun hidle => hdown k hidle.2⟩
    have hnot : ({ k with input := none } : Kbc).resets = false := hup _ hwaits.2
    exact absurd (hreset.symm.trans hnot) (by decide)
  apply Resets.callw
  rw [a20WaitInput]
  apply Resets.bind
  apply (a20Poll_resets (c := c.pushWord next) (Sent.stable hp hd hlead) hdone htake hstatus
    hresets (due hpatient hfuel _) h).mono
  rintro w' ⟨hw, -, hidle⟩
  exact ⟨hw, hidle⟩

end

/-! ## The exchange -/

section

variable (schedule : Schedule) (waiting : Option UInt8) (port : UInt8) (before : List Input)

/-- The bytes taken, the output port, and whether it is to be written. -/
def stands (k : Kbc) : List Input × UInt8 × Bool := (k.taken, k.outputPort, k.expects)

/-- A byte that waited is held; where none did, a key has to be sent for that. -/
def HeldFrom (held : Option UInt8) : Prop :=
  (∀ b, waiting = some b → held = some b) ∧ (waiting = none → ¬ schedule.Sends → held = none)

/-- What is read is what was held, or the port. -/
def ReadAs (v : UInt8) (held : Option UInt8) : Prop :=
  v = held.getD port ∨ schedule.Overwrites ∧ v = port

/-- Nothing has been taken. -/
def Begun (k : Kbc) : Prop :=
  (k.taken, k.outputPort) = (before, port) ∧ HeldFrom schedule waiting k.output

/-- The keyboard is off. -/
def Off (k : Kbc) : Prop :=
  stands k = (before ++ [disableKeyboard], port, false) ∧ k.disabled = true ∧ k.output = k.held ∧
    HeldFrom schedule waiting k.held

/-- The output port has been asked for, and is to be read. -/
def Answered (k : Kbc) : Prop :=
  stands k = (before ++ [disableKeyboard, readOutputPort], port, false) ∧ k.disabled = true ∧
    k.output = some port ∧ (k.held = none ∨ schedule.Overwrites) ∧ HeldFrom schedule waiting k.held

/-- Something else has been read for it, and it has not been asked for. -/
def Misread (v : UInt8) (k : Kbc) : Prop :=
  stands k = (before ++ [disableKeyboard], port, false) ∧ k.disabled = true ∧ k.output = none ∧
    ReadAs schedule port v k.held ∧ HeldFrom schedule waiting k.held

/-- `v` has been read, and the controller stands as given. -/
def Known (v : UInt8) (taken : List Input) (port' : UInt8) (expects : Bool) (k : Kbc) : Prop :=
  stands k = (before ++ taken, port', expects) ∧ ReadAs schedule port v k.held ∧
    HeldFrom schedule waiting k.held

/-- `v` can be read for the output port: it is the port where there is nothing
else to read, and a byte that waited where that is not replaced. -/
def CanRead (v : UInt8) : Prop :=
  (waiting = none → ¬ schedule.Sends → v = port) ∧
    ∀ b, waiting = some b → ¬ schedule.Overwrites → v = b

variable {schedule waiting port before} {v port' : UInt8} {taken : List Input} {expects : Bool}

theorem ReadAs.canRead {held : Option UInt8} (h : ReadAs schedule port v held)
    (hheld : HeldFrom schedule waiting held) : CanRead schedule waiting port v := by
  refine ⟨fun hnone hquiet => ?_, fun b hb hroom => ?_⟩
  · rw [ReadAs, hheld.2 hnone hquiet] at h
    exact h.elim id And.right
  · rw [ReadAs, hheld.1 b hb] at h
    exact h.resolve_right fun h => hroom h.1

/-- What is known is what was taken, the port, and what can be read for it. -/
theorem Known.shows {k : Kbc} (h : Known schedule waiting port before v taken port' expects k) :
    k.taken = before ++ taken ∧ k.outputPort = port' ∧ CanRead schedule waiting port v := by
  obtain ⟨hstands, hread, hheld⟩ := h
  obtain ⟨htaken, hrest⟩ := Prod.mk.inj hstands
  exact ⟨htaken, (Prod.mk.inj hrest).1, hread.canRead hheld⟩

/-- A port with its lowest bit high resets nothing. -/
theorem up_of_port {k : Kbc} (hport : k.outputPort = port) (hup : port &&& 1 = 1) :
    k.resets = false := by
  rw [Kbc.resets, hport, hup]
  rfl

theorem up_of_stands {k : Kbc} (h : stands k = (taken, port', expects)) (hup : port' &&& 1 = 1) :
    k.resets = false := up_of_port (Prod.mk.inj (Prod.mk.inj h).2).1 hup

theorem Begun.unkeyed : Unkeyed schedule (Begun schedule waiting port before) := by
  rintro n key hmem k - houtput ⟨hstands, hheld⟩
  refine ⟨hstands, fun b hb => ?_, fun _ hquiet => absurd ⟨n, key, hmem⟩ hquiet⟩
  have hsome := hheld.1 b hb
  rw [houtput] at hsome
  cases hsome

theorem Off.unkeyed : Unkeyed schedule (Off schedule waiting port before) :=
  .of_disabled fun _ h => h.2.1

theorem Answered.unkeyed : Unkeyed schedule (Answered schedule waiting port before) :=
  .of_disabled fun _ h => h.2.1

theorem Misread.unkeyed : Unkeyed schedule (Misread schedule waiting port before v) :=
  .of_disabled fun _ h => h.2.1

theorem Known.unkeyed :
    Unkeyed schedule (Known schedule waiting port before v taken port' expects) :=
  fun _ _ _ _ _ _ h => h

theorem begun_leads : Leads schedule disableKeyboard (Begun schedule waiting port before)
    (Off schedule waiting port before) := by
  rintro k - - ⟨hstands, hheld⟩
  obtain ⟨rfl, rfl⟩ := Prod.mk.inj hstands
  exact ⟨rfl, rfl, rfl, hheld⟩

theorem off_leads : Leads schedule readOutputPort (Off schedule waiting port before)
    (Answered schedule waiting port before) := by
  rintro k - hroom ⟨hstands, hdisabled, houtput, hheld⟩
  obtain ⟨htaken, hrest⟩ := Prod.mk.inj hstands
  obtain ⟨rfl, -⟩ := Prod.mk.inj hrest
  refine ⟨?_, hdisabled, rfl, ?_, hheld⟩
  · show (k.taken ++ [readOutputPort], _, _) = _
    rw [htaken, List.append_assoc]
    rfl
  · show k.held = none ∨ _
    rw [← houtput]
    exact hroom rfl

theorem misread_leads : Leads schedule readOutputPort (Misread schedule waiting port before v)
    (Known schedule waiting port before v [disableKeyboard, readOutputPort] port false) := by
  rintro k - - ⟨hstands, -, -, hread, hheld⟩
  obtain ⟨htaken, hrest⟩ := Prod.mk.inj hstands
  obtain ⟨rfl, -⟩ := Prod.mk.inj hrest
  refine ⟨?_, hread, hheld⟩
  show (k.taken ++ [readOutputPort], _, _) = _
  rw [htaken, List.append_assoc]
  rfl

/-- What is read there is what was held, or the answer. -/
theorem sent_read {k : Kbc} (houtput : k.output ≠ none)
    (h : Sent readOutputPort (Off schedule waiting port before)
      (Answered schedule waiting port before) k) :
    Sent readOutputPort (Misread schedule waiting port before k.shown)
      (Known schedule waiting port before k.shown [disableKeyboard, readOutputPort] port false)
      k.read := by
  obtain ⟨b, hb⟩ := Option.ne_none_iff_exists'.mp houtput
  have hshown : k.shown = b := by
    rw [Kbc.shown, hb]
    rfl
  rw [hshown]
  rcases h with ⟨hinput, hstands, hdisabled, hoff, hheld⟩ | hidle
  · have hwaited : k.held = some b := hoff.symm.trans hb
    refine .inl ⟨hinput, hstands, hdisabled, rfl, .inl ?_, hheld⟩
    show b = k.held.getD port
    rw [hwaited]
    rfl
  · obtain ⟨hinput, hstands, -, hport, hroom, hheld⟩ := hidle
    have hread : b = port := Option.some.inj (hb.symm.trans hport)
    refine .inr ⟨hinput, hstands, ?_, hheld⟩
    show b = k.held.getD port ∨ _
    rcases hroom with hnone | hover
    · left
      rw [hnone, hread]
      rfl
    · exact .inr ⟨hover, hread⟩

/-- A command that concerns neither what is to be read nor the keyboard being
off, or a data byte. -/
theorem known_leads {i : Input} {port'' : UInt8} {expects' : Bool}
    (h : ∀ k : Kbc, k.outputPort = port' → k.expects = expects →
      (k.obey i).taken = k.taken ∧ (k.obey i).outputPort = port'' ∧ (k.obey i).expects = expects' ∧
        (k.obey i).held = k.held) :
    Leads schedule i (Known schedule waiting port before v taken port' expects)
      (Known schedule waiting port before v (taken ++ [i]) port'' expects') := by
  rintro k - - ⟨hstands, hread, hheld⟩
  obtain ⟨htaken, hrest⟩ := Prod.mk.inj hstands
  obtain ⟨hport, hexpects⟩ := Prod.mk.inj hrest
  obtain ⟨-, hport', hexpects', hheld'⟩ := h k hport hexpects
  rw [← hheld'] at hread hheld
  refine ⟨?_, hread, hheld⟩
  show (k.taken ++ [i], (k.obey i).outputPort, (k.obey i).expects) = _
  rw [htaken, hport', hexpects', List.append_assoc]

end

/-! ## The whole routine -/

section

variable {schedule : Schedule} {patience fuel : Nat} {p d : Kbc → Prop} {c : Cpu} {w : World × τ}

/-- What is to be read stays there until it is read. -/
theorem output_stable : Stable schedule fun k => k.output ≠ none := by
  have htake : ∀ k : Kbc, k.output ≠ none → k.take.output ≠ none := by
    intro k h
    rw [Kbc.take]
    split
    · exact h
    · rename_i i hinput
      cases i with
      | command v =>
        show (if v = 0xD0 then some k.outputPort else k.output) ≠ none
        split
        · exact Option.some_ne_none _
        · exact h
      | data v => exact h
  rintro n happening - k h
  cases happening with
  | take =>
    rw [Kbc.happen]
    split
    · exact h
    · exact htake k h
  | overwrite => exact htake k h
  | key v =>
    rcases happen_key k v with hsame | ⟨-, -, hkey⟩
    · rw [hsame]
      exact h
    · rw [hkey]
      exact Option.some_ne_none _

theorem asked_stable {waiting : Option UInt8} {port : UInt8} {before : List Input} :
    Stable schedule (Sent readOutputPort (Off schedule waiting port before)
      (Answered schedule waiting port before)) :=
  Sent.stable Off.unkeyed Answered.unkeyed off_leads

theorem asked_up {waiting : Option UInt8} {port : UInt8} {before : List Input} {k : Kbc}
    (hup : port &&& 1 = 1) (h : Sent readOutputPort (Off schedule waiting port before)
      (Answered schedule waiting port before) k) : k.resets = false :=
  Sent.up (fun _ hk => up_of_stands hk.1 hup) (fun _ hk => up_of_stands hk.1 hup) h

/-- **`A20WaitOutput`** returns when there is something to read. -/
theorem a20WaitOutput_runs {next : Bytes} {waiting : Option UInt8} {port : UInt8}
    {before : List Input} (hpatient : schedule.Patient patience) (hfuel : patience ≤ fuel)
    (hup : port &&& 1 = 1)
    (h : Sent readOutputPort (Off schedule waiting port before)
      (Answered schedule waiting port before) w.1.kbc) :
    Runs (callw next (a20WaitOutput (I8042.bus schedule).left fuel)) c w
      fun _ c' w' => c.Polled c' ∧ w'.2 = w.2 ∧ w'.1.kbc.output ≠ none ∧
        Sent readOutputPort (Off schedule waiting port before)
          (Answered schedule waiting port before) w'.1.kbc := by
  have htake : ∀ k, Sent readOutputPort (Off schedule waiting port before)
      (Answered schedule waiting port before) k → (k.happen .take).output ≠ none := by
    intro k hk
    rcases Sent.take off_leads hk with ⟨-, -, -, hport, -⟩ | ⟨hsame, -, houtput⟩
    · rw [hport]
      exact Option.some_ne_none _
    · rw [hsame]
      exact houtput
  have hstatus : ∀ k : Kbc, id (k.status &&& 1 == 0) = false ↔ k.output ≠ none := by
    intro k
    rw [id_eq, status_output, Option.isNone_eq_false_iff, Option.isSome_iff_ne_none]
  apply Runs.callw
  rw [a20WaitOutput]
  apply Runs.bind
  have hloop := a20Poll_runs (c := c.pushWord next) asked_stable (asked_stable.and output_stable)
    htake hstatus (fun _ hk => asked_up hup hk) (due hpatient hfuel _) h
  apply hloop.mono
  rintro - c' w' ⟨hpolled, hw, hsent, houtput⟩
  refine Runs.retw (by exact hpolled.stack) ?_
  exact ⟨rfl, hpolled.returned, hw, houtput, hsent⟩

/-- A command, and the wait for it to be taken. -/
theorem command_comes {v : UInt8} {next : Bytes} {m : Asm (World × τ) Unit}
    {Q : Unit → Cpu → World × τ → Prop} {E : World × τ → Prop}
    (hpatient : schedule.Patient patience) (hfuel : patience ≤ fuel)
    (hread : Input.command v ≠ readOutputPort) (hp : Unkeyed schedule p) (hd : Unkeyed schedule d)
    (hlead : Leads schedule (.command v) p d) (hup : ∀ k, p k → k.resets = false)
    (hup' : ∀ k, d k → k.resets = false) (h : Idle p w.1.kbc)
    (hm : ∀ c' w', c.Polled c' → w'.2 = w.2 → Idle d w'.1.kbc → Comes m c' w' Q E) :
    Comes (do
      movbImm .al v
      outAl (I8042.bus schedule).left 0x64
      callw next (a20WaitInput (I8042.bus schedule).left fuel)
      m) c w Q E := by
  have hpass := (Idle.stable hp).pass h
  apply Comes.upd
  apply Comes.outAl (bus_up (hup _ hpass.2))
  apply Comes.after
  have hsent : Sent (.command v) p d ((w.1.pass schedule).kbc.write (.command v)) :=
    hpass.write _ d
  apply (a20WaitInput_runs (w := (_, w.2)) hpatient hfuel hp hd hlead
    (fun hsame => absurd hsame hread) hup hup' hsent).mono
  rintro - c' w' ⟨hpolled, hw, hidle⟩
  exact hm c' w' ((Cpu.Polled.setByte c v).trans hpolled) hw hidle

/-- The first wait finds nothing written. -/
theorem waitIdle_runs {next : Bytes} (hpatient : schedule.Patient patience)
    (hfuel : patience ≤ fuel) (hp : Unkeyed schedule p) (hup : ∀ k, p k → k.resets = false)
    (h : Idle p w.1.kbc) :
    Runs (callw next (a20WaitInput (I8042.bus schedule).left fuel)) c w
      fun _ c' w' => c.Polled c' ∧ w'.2 = w.2 ∧ Idle p w'.1.kbc :=
  a20WaitInput_runs (p := fun _ => False) (i := disableKeyboard) hpatient hfuel
    (fun _ _ _ _ _ _ h => h) hp (fun _ _ _ h => h.elim) (fun _ _ h => h.elim) (fun _ h => h.elim)
    hup (.inr h)

/-- The output port is asked for, and what there is to read is read. -/
theorem askPort_comes {next : Bytes} {m : Asm (World × τ) Unit}
    {Q : Unit → Cpu → World × τ → Prop} {E : World × τ → Prop} {waiting : Option UInt8}
    {port : UInt8} {before : List Input} (hpatient : schedule.Patient patience)
    (hfuel : patience ≤ fuel) (hup : port &&& 1 = 1)
    (h : Idle (Off schedule waiting port before) w.1.kbc)
    (hm : ∀ c' w' v, c.Polled c' → w'.2 = w.2 →
      Sent readOutputPort (Misread schedule waiting port before v)
        (Known schedule waiting port before v [disableKeyboard, readOutputPort] port false)
        w'.1.kbc → Comes m (c'.setByte .al v) w' Q E) :
    Comes (do
      movbImm .al 0xD0
      outAl (I8042.bus schedule).left 0x64
      callw next (a20WaitOutput (I8042.bus schedule).left fuel)
      inAl (I8042.bus schedule).left 0x60
      m) c w Q E := by
  have hpass := (Idle.stable Off.unkeyed).pass h
  apply Comes.upd
  apply Comes.outAl (bus_up (up_of_stands hpass.2.1 hup))
  apply Comes.after
  have hsent : Sent readOutputPort _ (Answered schedule waiting port before)
      ((w.1.pass schedule).kbc.write readOutputPort) :=
    hpass.write _ _
  apply (a20WaitOutput_runs (w := (_, w.2)) hpatient hfuel hup hsent).mono
  rintro - c' w' ⟨hpolled, hw, houtput, hkept⟩
  obtain ⟨hkept', houtput'⟩ := (asked_stable.and output_stable).pass ⟨hkept, houtput⟩
  apply Comes.inAl (bus_up (asked_up hup hkept'))
  exact hm c' _ _ ((Cpu.Polled.setByte c 0xD0).trans hpolled) hw (sent_read houtput' hkept')

theorem and_one (v : UInt8) : v &&& 1 = 0 ∨ v &&& 1 = 1 := by
  have hbit : (v &&& 1).toNat = v.toNat % 2 := by
    rw [UInt8.toNat_and]
    exact Nat.and_one_is_mod _
  rw [← UInt8.toNat_inj, ← UInt8.toNat_inj, hbit]
  exact Nat.mod_two_eq_zero_or_one _

/-- A byte for the output port, and the wait for it to be taken: that comes to
its end if the lowest bit is high, and the processor is reset if it is low. -/
theorem outputPort_comes {v : UInt8} {next : Bytes} {m : Asm (World × τ) Unit}
    {Q : Unit → Cpu → World × τ → Prop} {E : World × τ → Prop}
    (hpatient : schedule.Patient patience) (hfuel : patience ≤ fuel) (hal : c.byte .al = v)
    (hp : Unkeyed schedule p) (hd : Unkeyed schedule d) (hlead : Leads schedule (.data v) p d)
    (hup : ∀ k, p k → k.resets = false) (hport : ∀ k, d k → k.outputPort = v)
    (h : Idle p w.1.kbc)
    (hm : v &&& 1 = 1 → ∀ c' w', c.Polled c' → w'.2 = w.2 → Idle d w'.1.kbc → Comes m c' w' Q E)
    (hreset : v &&& 1 = 0 → ∀ w' : World × τ, w'.2 = w.2 → Idle d w'.1.kbc → E w') :
    Comes (do
      outAl (I8042.bus schedule).left 0x60
      callw next (a20WaitInput (I8042.bus schedule).left fuel)
      m) c w Q E := by
  have hpass := (Idle.stable hp).pass h
  apply Comes.outAl (bus_up (hup _ hpass.2))
  rw [hal]
  have hsent : Sent (.data v) p d ((w.1.pass schedule).kbc.write (.data v)) := hpass.write _ d
  rcases and_one v with hlow | hhigh
  · have hdown : ∀ k, d k → k.resets = true := by
      intro k hk
      rw [Kbc.resets, hport k hk, hlow]
      rfl
    right
    apply Resets.bind
    apply (a20WaitInput_resets (w := (_, w.2)) hpatient hfuel hp hd hlead
      (fun hsame => by cases hsame) hup hdown hsent).mono
    rintro w' ⟨hw, hidle⟩
    exact hreset hlow w' hw hidle
  · apply Comes.after
    apply (a20WaitInput_runs (w := (_, w.2)) hpatient hfuel hp hd hlead
      (fun hsame => by cases hsame) hup (fun k hk => up_of_port (hport k hk) hhigh) hsent).mono
    rintro - c' w' ⟨hpolled, hw, hidle⟩
    exact hm hhigh c' w' hpolled hw hidle

/-- The bits of the mask are set. -/
theorem or_and_mask (v mask : UInt8) : (v ||| mask) &&& mask = mask := by
  rw [← UInt8.toBitVec_inj]
  ext i hi
  simp
  grind

/-- The bit of the gate does not matter to the lowest one. -/
theorem or_two_and_one (v : UInt8) : (v ||| 2) &&& 1 = v &&& 1 := by
  have hdistrib : (v ||| 2) &&& 1 = v &&& 1 ||| 2 &&& 1 := by
    rw [← UInt8.toNat_inj]
    simp only [UInt8.toNat_and, UInt8.toNat_or, Nat.and_or_distrib_right]
  rw [hdistrib]
  exact UInt8.or_zero

variable (schedule) in
/-- All has been taken, and the keyboard is on again. -/
def Done (waiting : Option UInt8) (port : UInt8) (before : List Input) (v : UInt8) (k : Kbc) :
    Prop :=
  Known schedule waiting port before v [disableKeyboard, readOutputPort, writeOutputPort,
    .data (v ||| 2), enableKeyboard] (v ||| 2) false k ∧ k.disabled = false

theorem Done.unkeyed {waiting : Option UInt8} {port : UInt8} {before : List Input} {v : UInt8} :
    Unkeyed schedule (Done schedule waiting port before v) :=
  fun _ _ _ _ _ _ h => h

theorem done_leads {waiting : Option UInt8} {port : UInt8} {before : List Input} {v : UInt8} :
    Leads schedule enableKeyboard
      (Known schedule waiting port before v
        [disableKeyboard, readOutputPort, writeOutputPort, .data (v ||| 2)] (v ||| 2) false)
      (Done schedule waiting port before v) := by
  intro k hinput hroom hknown
  refine ⟨?_, rfl⟩
  exact known_leads (i := enableKeyboard) (fun _ hport _ => ⟨rfl, hport, rfl, rfl⟩) k hinput hroom
    hknown

/-- `EnableA20` goes through the whole exchange, or as far as the byte for the
output port. -/
theorem enableA20_hands_over (hpatient : schedule.Patient patience) (hfuel : patience ≤ fuel)
    (hinput : w.1.kbc.input = none) (hup : w.1.kbc.outputPort &&& 1 = 1) (ret : Bytes)
    (next : Nat → Bytes) :
    Comes (callw ret (enableA20 (I8042.bus schedule).left next fuel)) c w
      (fun _ c' w' => c.Polled c' ∧ w'.2 = w.2 ∧ ∃ v, v &&& 1 = 1 ∧ Idle
        (Done schedule w.1.kbc.output w.1.kbc.outputPort w.1.kbc.taken v) w'.1.kbc)
      fun w' => w'.2 = w.2 ∧ ∃ v, v &&& 1 = 0 ∧ Idle
        (Known schedule w.1.kbc.output w.1.kbc.outputPort w.1.kbc.taken v
          [disableKeyboard, readOutputPort, writeOutputPort, .data (v ||| 2)] (v ||| 2) false)
        w'.1.kbc := by
  have hbegun : Idle (Begun schedule w.1.kbc.output w.1.kbc.outputPort w.1.kbc.taken) w.1.kbc :=
    ⟨hinput, rfl, fun b hb => hb, fun hnone _ => hnone⟩
  generalize w.1.kbc.output = waiting, w.1.kbc.outputPort = port, w.1.kbc.taken = before
    at hbegun hup ⊢
  have hbegunUp : ∀ k, Begun schedule waiting port before k → k.resets = false :=
    fun k hk => up_of_port (Prod.mk.inj hk.1).2 hup
  apply Comes.callw
  rw [enableA20]
  apply Comes.after
  apply (waitIdle_runs hpatient hfuel Begun.unkeyed hbegunUp hbegun).mono
  rintro - c₁ w₁ ⟨hc₁, hw₁, hbegun⟩
  apply command_comes hpatient hfuel (by decide) Begun.unkeyed Off.unkeyed begun_leads hbegunUp
    (fun _ hk => up_of_stands hk.1 hup) hbegun
  intro c₂ w₂ hc₂ hw₂ hoff
  apply askPort_comes hpatient hfuel hup hoff
  intro c₃ w₃ v hc₃ hw₃ hsent
  apply Comes.upd
  apply Comes.after
  apply (a20WaitInput_runs hpatient hfuel Misread.unkeyed Known.unkeyed misread_leads
    (fun _ k hk => hk.2.2.1) (fun _ hk => up_of_stands hk.1 hup)
    (fun _ hk => up_of_stands hk.1 hup) hsent).mono
  rintro - c₄ w₄ ⟨hc₄, hw₄, hknown⟩
  apply command_comes hpatient hfuel (by decide) Known.unkeyed Known.unkeyed
    (known_leads (i := writeOutputPort) fun k hport _ => ⟨rfl, hport, rfl, rfl⟩)
    (fun _ hk => up_of_stands hk.1 hup) (fun _ hk => up_of_stands hk.1 hup) hknown
  intro c₅ w₅ hc₅ hw₅ hwrite
  have hpolled := hc₄.trans hc₅
  apply Comes.popw (by exact hpolled.stack)
  apply Comes.upd
  generalize hc₆ : Cpu.setFlags _ _ _ = c₆
  have hal : c₆.byte .al = v ||| 2 := by
    subst hc₆
    simp
  have hback : c₃.Polled c₆ := by
    subst hc₆
    exact ((Cpu.Polled.setByte c₃ v).trans hpolled.popped).trans
      ((Cpu.Polled.setByte ..).trans (Cpu.Polled.setFlags ..))
  have hdata : ∀ k : Kbc, k.expects = true → (k.obey (.data (v ||| 2))).outputPort = v ||| 2 := by
    intro k hexpects
    show (if k.expects then v ||| 2 else k.outputPort) = _
    rw [hexpects, if_pos rfl]
  have hleads : Leads schedule (.data (v ||| 2))
      (Known schedule waiting port before v [disableKeyboard, readOutputPort, writeOutputPort]
        port true)
      (Known schedule waiting port before v
        [disableKeyboard, readOutputPort, writeOutputPort, .data (v ||| 2)] (v ||| 2) false) :=
    known_leads fun k _ hexpects => ⟨rfl, hdata k hexpects, rfl, rfl⟩
  apply outputPort_comes hpatient hfuel hal Known.unkeyed Known.unkeyed hleads
    (fun _ hk => up_of_stands hk.1 hup) (fun _ hk => (Prod.mk.inj (Prod.mk.inj hk.1).2).1) hwrite
  · intro hhigh c₇ w₇ hc₇ hw₇ hset
    apply command_comes hpatient hfuel (by decide) Known.unkeyed Done.unkeyed done_leads
      (fun _ hk => up_of_stands hk.1 hhigh) (fun _ hk => up_of_stands hk.1.1 hhigh) hset
    intro c₈ w₈ hc₈ hw₈ hdone
    rw [or_two_and_one] at hhigh
    have hwhole := hc₁.trans (hc₂.trans (hc₃.trans (hback.trans (hc₇.trans hc₈))))
    refine .inl (Runs.retw (by exact hwhole.stack) ⟨rfl, hwhole.returned, ?_, v, hhigh, hdone⟩)
    rw [hw₈, hw₇, hw₅, hw₄, hw₃, hw₂, hw₁]
  · intro hlow w₇ hw₇ hset
    rw [or_two_and_one] at hlow
    refine ⟨?_, v, hlow, hset⟩
    rw [hw₇, hw₅, hw₄, hw₃, hw₂, hw₁]

/-- **The gate opens, or the processor is reset**: whatever the keyboard sends
meanwhile, and however long the controller takes for each byte, it takes the
bytes in order. What is read for the output port goes there with the gate open:
the port itself if there was nothing to be read, but the byte of a key if one
was waiting. If its lowest bit is high, five bytes are taken and the keyboard is
on again at the end; if it is low, the processor is reset at the fourth. -/
theorem enableA20_opens (hpatient : schedule.Patient patience) (hfuel : patience ≤ fuel)
    (hinput : w.1.kbc.input = none) (hup : w.1.kbc.outputPort &&& 1 = 1) (ret : Bytes)
    (next : Nat → Bytes) :
    Comes (callw ret (enableA20 (I8042.bus schedule).left next fuel)) c w
      (fun _ c' w' => c.Polled c' ∧ w'.2 = w.2 ∧ w'.1.kbc.input = none ∧
        w'.1.kbc.disabled = false ∧ w'.1.kbc.outputPort &&& 2 = 2 ∧
        ∃ v, CanRead schedule w.1.kbc.output w.1.kbc.outputPort v ∧ v &&& 1 = 1 ∧
          w'.1.kbc.outputPort = v ||| 2 ∧
          w'.1.kbc.taken = w.1.kbc.taken ++ [disableKeyboard, readOutputPort, writeOutputPort,
            .data (v ||| 2), enableKeyboard])
      fun w' => w'.2 = w.2 ∧
        ∃ v, CanRead schedule w.1.kbc.output w.1.kbc.outputPort v ∧ v &&& 1 = 0 ∧
          w'.1.kbc.outputPort = v ||| 2 ∧
          w'.1.kbc.taken = w.1.kbc.taken ++ [disableKeyboard, readOutputPort, writeOutputPort,
            .data (v ||| 2)] := by
  apply (enableA20_hands_over hpatient hfuel hinput hup ret next).mono
  · rintro - c' w' ⟨hpolled, hw, v, hhigh, hidle, hknown, henabled⟩
    obtain ⟨htaken, hport, hread⟩ := hknown.shows
    refine ⟨hpolled, hw, hidle, henabled, ?_, v, hread, hhigh, hport, htaken⟩
    rw [hport]
    exact or_and_mask v 2
  · rintro w' ⟨hw, v, hlow, -, hknown⟩
    obtain ⟨htaken, hport, hread⟩ := hknown.shows
    exact ⟨hw, v, hread, hlow, hport, htaken⟩

end

/-- The `A` key has been pressed before, and nobody has read it: its code is even,
and the processor is reset. -/
theorem enableA20_opens_sample :
    Resets (callw ⟨0, 0, 0x7C, 0x70⟩
      (enableA20 (I8042.bus fun _ => [.take]).left (fun _ => ⟨0, 0, 0x7C, 0x80⟩) 1))
      (sampleCpu fun _ => ⟨0, 0, 0, 0⟩)
      (⟨⟨none, some 0x1E, 0xDD, false, false, 0, [], none⟩, 0⟩, ())
      fun w' => w'.1.kbc.outputPort = 0x1E ∧ w'.1.kbc.taken.length = 4 := by
  have hpatient : Schedule.Patient (fun _ => [.take]) 1 :=
    fun n => ⟨n, Nat.le_refl n, Nat.lt_succ_self n, List.mem_singleton.mpr rfl⟩
  have hroom : ¬ Schedule.Overwrites fun _ => [.take] := by
    rintro ⟨n, h⟩
    have hsame : Happening.overwrite = .take := List.mem_singleton.mp h
    cases hsame
  have hcomes := enableA20_opens (c := sampleCpu fun _ => ⟨0, 0, 0, 0⟩)
    (w := (⟨⟨none, some 0x1E, 0xDD, false, false, 0, [], none⟩, 0⟩, ())) hpatient (Nat.le_refl 1)
    rfl rfl ⟨0, 0, 0x7C, 0x70⟩ fun _ => ⟨0, 0, 0x7C, 0x80⟩
  rcases hcomes with ⟨-, c', w', -, -, -, -, -, -, v, hread, hhigh, -⟩ | hresets
  · rw [hread.2 0x1E rfl hroom] at hhigh
    exact absurd hhigh (by decide)
  · apply hresets.mono
    rintro w' ⟨-, v, hread, -, hport, htaken⟩
    rw [hport, htaken, hread.2 0x1E rfl hroom]
    exact ⟨rfl, rfl⟩

end Netclover.Stage1
