import Mathlib.Data.List.Induction
import Netclover.Kernel.Keyboard

/-!
# Reading the keyboard's port (`kernel/drivers/keyboard/keyboard.c`)

`keyboardHandler` reads port 0x60 twice, once for the key and once for whether
it is pressed. The first read takes the byte, and the keyboard may show the
next one before the second. The steps of the keyboard and of the handler, in
any order, and the bytes by their places in the stream: the two reads are of
one byte, and no byte is lost, exactly if nothing arrives between the two
reads of a run (`runs_faithful_iff`).
-/

namespace Netclover.Kernel

/-! ## The port -/

/-- A byte of the keyboard and its place in the stream. -/
structure KeyByte where
  number : Nat
  value : UInt8
  deriving DecidableEq, Repr

/-- The bytes that are still to come and the number of the first, the byte that
waits at the port, and the one that was read last. -/
structure Controller where
  stream : List UInt8
  number : Nat
  pending : Option KeyByte
  last : KeyByte

/-- The next byte, if none waits. -/
def Controller.arrive (p : Controller) : Option Controller :=
  match p.pending, p.stream with
  | none, value :: stream =>
    some { p with stream, number := p.number + 1, pending := some ⟨p.number, value⟩ }
  | _, _ => none

/-- What the port shows: with nothing pending the last byte again. -/
def Controller.shown (p : Controller) : KeyByte := p.pending.getD p.last

/-- A read takes what is pending. -/
def Controller.read (p : Controller) : Controller :=
  { p with pending := none, last := p.shown }

/-! ## The handler and the port -/

inductive Action where
  | arrive
  | firstRead
  | secondRead
  deriving DecidableEq, Repr

/-- The port, what the run of `keyboardHandler` that is going on has read, the
keyboard's state, the reads of the runs that have ended, and the bytes that
have been taken from the port. -/
structure Typing where
  port : Controller
  reading : Option KeyByte
  keyboard : Keyboard
  ended : List (KeyByte × KeyByte)
  taken : List KeyByte

def Typing.start (stream : List UInt8) (last : UInt8) (k : Keyboard) : Typing :=
  ⟨⟨stream, 1, none, ⟨0, last⟩⟩, none, k, [], []⟩

/-- One action, where it is possible. With the second read the handler does
its work. -/
def Typing.step (s : Typing) : Action → Option Typing
  | .arrive => s.port.arrive.map fun port => { s with port }
  | .firstRead =>
    if s.reading = none then some { s with
      port := s.port.read
      reading := some s.port.shown
      taken := s.port.pending.toList ++ s.taken }
    else none
  | .secondRead => s.reading.map fun first => { s with
      port := s.port.read
      reading := none
      keyboard := keyboardHandler first.value s.port.shown.value s.keyboard
      ended := (first, s.port.shown) :: s.ended
      taken := s.port.pending.toList ++ s.taken }

def Typing.run (s : Typing) (actions : List Action) : Option Typing :=
  actions.foldlM Typing.step s

/-- Each run of the handler has read one byte twice, and each byte that was
taken has been acted on, or will be by the run that is going on. -/
structure Typing.Faithful (s : Typing) : Prop where
  same : ∀ reads ∈ s.ended, reads.1 = reads.2
  acted : ∀ b ∈ s.taken, (b, b) ∈ s.ended ∨ s.reading = some b

/-- A byte has arrived between the two reads of a run. -/
def Overtaken (actions : List Action) : Prop :=
  [Action.firstRead, .arrive, .secondRead] <:+: actions

instance (actions : List Action) : Decidable (Overtaken actions) :=
  inferInstanceAs (Decidable (_ <:+: _))

/-! ## One step -/

/-- What an action can do, and when. -/
theorem Typing.step_cases {s s' : Typing} {a : Action} (h : s.step a = some s') :
    (a = .arrive ∧ s.port.pending = none ∧ ∃ value stream, s.port.stream = value :: stream ∧
      s' = { s with port := { s.port with
        stream, number := s.port.number + 1, pending := some ⟨s.port.number, value⟩ } }) ∨
    (a = .firstRead ∧ s.reading = none ∧ s' = { s with
      port := s.port.read
      reading := some s.port.shown
      taken := s.port.pending.toList ++ s.taken }) ∨
    ∃ first, a = .secondRead ∧ s.reading = some first ∧ s' = { s with
      port := s.port.read
      reading := none
      keyboard := keyboardHandler first.value s.port.shown.value s.keyboard
      ended := (first, s.port.shown) :: s.ended
      taken := s.port.pending.toList ++ s.taken } := by
  cases a with
  | arrive =>
    obtain ⟨port, hport, rfl⟩ := Option.map_eq_some_iff.mp h
    rw [Controller.arrive] at hport
    split at hport
    · rename_i value stream hpending hstream
      cases hport
      exact .inl ⟨rfl, hpending, value, stream, hstream, rfl⟩
    · cases hport
  | firstRead =>
    rw [Typing.step] at h
    split at h
    · rename_i hidle
      cases h
      exact .inr (.inl ⟨rfl, hidle, rfl⟩)
    · cases h
  | secondRead =>
    obtain ⟨first, hfirst, rfl⟩ := Option.map_eq_some_iff.mp h
    exact .inr (.inr ⟨first, rfl, hfirst, rfl⟩)

theorem Typing.run_append (s : Typing) (actions : List Action) (a : Action) :
    s.run (actions ++ [a]) = (s.run actions).bind (·.step a) := by
  simp only [Typing.run, List.foldlM_append, List.foldlM_cons, List.foldlM_nil, bind_pure]
  rfl

/-! ## What a run keeps -/

/-- How the port stands to the actions so far: a run that has read once has
read what was shown last, and whether a byte has arrived since then is whether
one is pending. -/
structure Typing.Reached (actions : List Action) (s : Typing) : Prop where
  last_lt : s.port.last.number < s.port.number
  pending_lt : ∀ b, s.port.pending = some b →
    s.port.last.number < b.number ∧ b.number < s.port.number
  reading : ∀ b, s.reading = some b → b = s.port.last
  undisturbed : [Action.firstRead] <:+ actions ↔ s.reading ≠ none ∧ s.port.pending = none
  overtaken : [Action.firstRead, .arrive] <:+ actions ↔ s.reading ≠ none ∧ s.port.pending ≠ none

/-- The actions, one more. -/
theorem suffix_append_iff (l actions : List Action) (a b : Action) :
    l ++ [a] <:+ actions ++ [b] ↔ a = b ∧ l <:+ actions := by
  rw [List.suffix_concat_iff]
  constructor
  · rintro (h | ⟨l', hl, hsuffix⟩)
    · exact absurd h (by simp)
    · obtain ⟨rfl, hab⟩ := List.append_inj' hl rfl
      exact ⟨List.singleton_inj.mp hab, hsuffix⟩
  · rintro ⟨rfl, hsuffix⟩
    exact .inr ⟨l, rfl, hsuffix⟩

/-- **What every action keeps.** -/
theorem Typing.Reached.step {actions : List Action} {s s' : Typing} {a : Action}
    (h : s.Reached actions) (hstep : s.step a = some s') : s'.Reached (actions ++ [a]) := by
  have hundisturbed := suffix_append_iff [] actions .firstRead a
  have hovertaken := suffix_append_iff [.firstRead] actions .arrive a
  have hshown : s.port.last.number ≤ s.port.shown.number ∧ s.port.shown.number < s.port.number := by
    rw [Controller.shown]
    cases hpending : s.port.pending with
    | none => exact ⟨Nat.le_refl _, h.last_lt⟩
    | some b =>
      have hb := h.pending_lt b hpending
      exact ⟨Nat.le_of_lt hb.1, hb.2⟩
  rcases step_cases hstep with ⟨rfl, hpending, value, stream, -, rfl⟩ | ⟨rfl, hidle, rfl⟩ |
    ⟨first, rfl, hreading, rfl⟩
  · refine ⟨Nat.lt_succ_of_lt h.last_lt, ?_, h.reading, ?_, ?_⟩
    · rintro b hb
      cases hb
      exact ⟨h.last_lt, Nat.lt_succ_self _⟩
    · exact iff_of_false (fun hs => absurd (hundisturbed.mp hs).1 (by decide))
        (fun hs => absurd hs.2 (by simp))
    · refine hovertaken.trans ⟨fun hs => ⟨(h.undisturbed.mp hs.2).1, by simp⟩, fun hs => ⟨rfl, ?_⟩⟩
      exact h.undisturbed.mpr ⟨hs.1, hpending⟩
  · refine ⟨hshown.2, fun _ hb => absurd hb (by simp [Controller.read]), ?_, ?_, ?_⟩
    · rintro b hb
      exact (Option.some.inj hb).symm
    · exact iff_of_true (hundisturbed.mpr ⟨rfl, List.nil_suffix⟩) ⟨by simp, rfl⟩
    · exact iff_of_false (fun hs => absurd (hovertaken.mp hs).1 (by decide))
        (fun hs => absurd hs.2 (by simp [Controller.read]))
  · refine ⟨hshown.2, fun _ hb => absurd hb (by simp [Controller.read]), ?_, ?_, ?_⟩
    · rintro b hb
      exact absurd hb (by simp)
    · exact iff_of_false (fun hs => absurd (hundisturbed.mp hs).1 (by decide)) (fun hs => hs.1 rfl)
    · exact iff_of_false (fun hs => absurd (hovertaken.mp hs).1 (by decide)) (fun hs => hs.1 rfl)

/-- The second read returns the byte of the first, unless another one has
come. -/
theorem Typing.Reached.first_eq_shown_iff {actions : List Action} {s : Typing}
    (h : s.Reached actions) {first : KeyByte} (hreading : s.reading = some first) :
    first = s.port.shown ↔ s.port.pending = none := by
  obtain rfl := h.reading first hreading
  rw [Controller.shown]
  cases hpending : s.port.pending with
  | none => exact iff_of_true rfl rfl
  | some b =>
    refine iff_of_false (fun hsame => ?_) (by simp)
    have hlt := (h.pending_lt b hpending).1
    rw [hsame] at hlt
    exact Nat.lt_irrefl _ hlt

/-- A run is overtaken where it ends. -/
theorem overtaken_append_iff (actions : List Action) (a : Action) : Overtaken (actions ++ [a]) ↔
    a = .secondRead ∧ [.firstRead, .arrive] <:+ actions ∨ Overtaken actions := by
  have hsuffix := suffix_append_iff [.firstRead, .arrive] actions .secondRead a
  rw [Overtaken, List.infix_concat_iff]
  exact or_congr (hsuffix.trans (and_congr_left fun _ => eq_comm)) Iff.rfl

/-- **One action** loses nothing, unless a run ends with it that has been
overtaken. -/
theorem Typing.Faithful.step {actions : List Action} {s s' : Typing} {a : Action}
    (hfaithful : s.Faithful) (h : s.Reached actions) (hstep : s.step a = some s')
    (hnot : ¬ Overtaken (actions ++ [a])) : s'.Faithful := by
  rcases step_cases hstep with ⟨rfl, hpending, value, stream, -, rfl⟩ | ⟨rfl, hidle, rfl⟩ |
    ⟨first, rfl, hreading, rfl⟩
  · exact ⟨hfaithful.same, hfaithful.acted⟩
  · refine ⟨hfaithful.same, fun b hb => ?_⟩
    rcases List.mem_append.mp hb with hb | hb
    · -- the byte that is taken now is the one that will be acted on
      rw [Option.mem_toList] at hb
      refine .inr ?_
      rw [Controller.shown, hb]
      rfl
    · rcases hfaithful.acted b hb with hended | hreading
      · exact .inl hended
      · rw [hidle] at hreading
        cases hreading
  · have hquiet : s.port.pending = none := by
      by_contra hpending
      refine hnot ((overtaken_append_iff actions _).mpr (.inl ⟨rfl, ?_⟩))
      exact h.overtaken.mpr ⟨by simp [hreading], hpending⟩
    have hshown := (h.first_eq_shown_iff hreading).mpr hquiet
    constructor
    · intro reads hreads
      rcases List.mem_cons.mp hreads with rfl | hreads
      · exact hshown
      · exact hfaithful.same reads hreads
    · intro b hb
      rw [hquiet] at hb
      rcases hfaithful.acted b hb with hended | hbyte
      · exact .inl (List.mem_cons_of_mem _ hended)
      · rw [hreading] at hbyte
        cases hbyte
        exact .inl (by rw [← hshown]; exact List.mem_cons_self)

/-- A run that has been overtaken has read two bytes. -/
theorem Typing.Reached.mixes {actions : List Action} {s s' : Typing} {a : Action}
    (h : s.Reached actions) (hstep : s.step a = some s') (hover : Overtaken (actions ++ [a]))
    (hnot : ¬ Overtaken actions) : ∃ reads ∈ s'.ended, reads.1 ≠ reads.2 := by
  obtain ⟨rfl, hsuffix⟩ := ((overtaken_append_iff actions a).mp hover).resolve_right hnot
  obtain ⟨first, hreading, rfl⟩ := Option.map_eq_some_iff.mp hstep
  have hpending := (h.overtaken.mp hsuffix).2
  refine ⟨(first, s.port.shown), List.mem_cons_self, fun hsame => ?_⟩
  exact hpending ((h.first_eq_shown_iff hreading).mp hsame)

/-- What has been read stays. -/
theorem Typing.ended_step {s s' : Typing} {a : Action} (hstep : s.step a = some s') :
    s.ended ⊆ s'.ended := by
  rcases step_cases hstep with ⟨-, -, _, _, -, rfl⟩ | ⟨-, -, rfl⟩ | ⟨_, -, -, rfl⟩
  · exact List.Subset.refl _
  · exact List.Subset.refl _
  · exact List.subset_cons_self _ _

/-! ## Runs -/

theorem Typing.start_reached (stream : List UInt8) (last : UInt8) (k : Keyboard) :
    (Typing.start stream last k).Reached [] where
  last_lt := Nat.zero_lt_one
  pending_lt _ hb := by cases hb
  reading _ hb := by cases hb
  undisturbed := by simp [Typing.start]
  overtaken := by simp [Typing.start]

/-- All that is known of a run. -/
theorem Typing.run_spec (stream : List UInt8) (last : UInt8) (k : Keyboard) (actions : List Action) :
    ∀ s, (Typing.start stream last k).run actions = some s → s.Reached actions ∧
      (¬ Overtaken actions → s.Faithful) ∧
      (Overtaken actions → ∃ reads ∈ s.ended, reads.1 ≠ reads.2) := by
  induction actions using List.reverseRecOn with
  | nil =>
    intro s hs
    cases hs
    exact ⟨start_reached stream last k, fun _ => ⟨by simp [start], by simp [start]⟩,
      fun h => absurd h (by decide)⟩
  | append_singleton actions a ih =>
    intro s' hs'
    rw [run_append] at hs'
    obtain ⟨s, hs, hstep⟩ := Option.bind_eq_some_iff.mp hs'
    obtain ⟨hreached, hgood, hbad⟩ := ih s hs
    refine ⟨hreached.step hstep, fun hnot => ?_, fun hover => ?_⟩
    · have hbefore : ¬ Overtaken actions := fun h =>
        hnot ((overtaken_append_iff actions a).mpr (.inr h))
      exact (hgood hbefore).step hreached hstep hnot
    · by_cases h : Overtaken actions
      · obtain ⟨reads, hreads, hne⟩ := hbad h
        exact ⟨reads, ended_step hstep hreads, hne⟩
      · exact hreached.mixes hstep hover h

/-- **Two reads, one byte**: for every stream of bytes and every order of
arrivals and reads, each run of the handler reads one byte twice and no byte
is lost, exactly if no byte arrives between the two reads of a run. -/
theorem runs_faithful_iff (stream : List UInt8) (last : UInt8) (k : Keyboard)
    (actions : List Action) {s : Typing} (h : (Typing.start stream last k).run actions = some s) :
    s.Faithful ↔ ¬ Overtaken actions := by
  obtain ⟨-, hgood, hbad⟩ := Typing.run_spec stream last k actions s h
  constructor
  · intro hfaithful hover
    obtain ⟨reads, hreads, hne⟩ := hbad hover
    exact hne (hfaithful.same reads hreads)
  · exact hgood

/-- A keyboard at rest. -/
def sampleKeyboard : Keyboard := ⟨false, ⟨fun _ => 0, 0, 0, ⟨0, fun _ => 0⟩, []⟩⟩

/-- A key that is pressed, and handled, and released. -/
theorem runs_faithful_sample : ∃ s, (Typing.start [0x1E, 0x9E] 0 sampleKeyboard).run
    [.arrive, .firstRead, .secondRead, .arrive] = some s ∧ s.Faithful :=
  ⟨_, rfl, (runs_faithful_iff [0x1E, 0x9E] 0 sampleKeyboard
    [.arrive, .firstRead, .secondRead, .arrive] rfl).mpr (by decide)⟩

/-- **The defect**: the release arrives between the two reads, and the press is
not seen. -/
theorem runs_mix_bytes : ¬ ∀ (stream : List UInt8) (last : UInt8) (k : Keyboard)
    (actions : List Action) (s : Typing),
    (Typing.start stream last k).run actions = some s → s.Faithful := by
  intro h
  have hfaithful := h [0x1E, 0x9E] 0 sampleKeyboard [.arrive, .firstRead, .arrive, .secondRead] _ rfl
  have hsame := hfaithful.same (⟨1, 0x1E⟩, ⟨2, 0x9E⟩) List.mem_cons_self
  exact absurd hsame (by decide)

end Netclover.Kernel
