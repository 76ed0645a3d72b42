import Mathlib.Data.List.Induction
import Netclover.Kernel.Service

/-!
# The keyboard's wakeups (`kernel/drivers/keyboard/keyboard.c`, `kernel/main.c`)

The keyboard shows its next byte only when the last one has been read, and only
a byte that comes makes a request. So each request counts: where one is
forgotten while its byte still waits, the keyboard is silent for good. It is
forgotten where `initIDT` initialises the controllers, and by `irq_handler`
before `initKeyboard` has installed the routine, and nowhere else
(`keyboard_awake_iff`); from there on nothing wakes the keyboard up
(`stalled_forever`).
-/

namespace Netclover.Kernel

open I8259

/-! ## Awake -/

/-- The byte that waits will be read: by the handler of its line, or in
`keyboardHandler`. -/
def Phase.Listens : Phase → Prop
  | .handler regs => regs.intNo.toNat = 33
  | .reading _ _ => True
  | .writing _ | .main | .told => False

/-- The same, with the first read still to come. -/
def Phase.Claims : Phase → Prop
  | .handler regs => regs.intNo.toNat = 33
  | .reading none _ => True
  | .reading (some _) _ | .writing _ | .main | .told => False

namespace System

/-- For a byte that waits there is a request, or someone who reads it. -/
def Awake (s : System) : Prop :=
  s.port.pending ≠ none → s.pics.latched keyboardLine = true ∨ s.phase.Listens

/-- A byte waits, and nothing else knows of it. -/
def Stalled (s : System) : Prop :=
  s.port.pending ≠ none ∧ s.pics.latched keyboardLine = false ∧ ¬ s.phase.Listens

/-- What the keyboard's interrupt is handed to. -/
def routine (s : System) : Option Routine := s.irqRoutines[1]

/-- The next step of the code forgets the request of a byte that waits: it
initialises the master, or finds no routine for the line. -/
def Drops (s : System) : Prop :=
  s.port.pending ≠ none ∧
    ((∃ out outs, s.phase = .writing (out :: outs) ∧ (toMaster out).any Write.isInit = true) ∨
      ∃ regs, s.phase = .handler regs ∧ regs.intNo.toNat = 33 ∧ s.routine = none)

/-- Some step of a run has done that. -/
def Dropped (s : System) (events : List Event) : Prop :=
  ∃ before behind t, events = before ++ .code :: behind ∧ s.run before = some t ∧ t.Drops

theorem not_awake_iff {s : System} : ¬ s.Awake ↔ s.Stalled := by
  rw [Awake, Stalled, Classical.not_imp, not_or, Bool.not_eq_true]

end System

/-! ## Line 1 and its routine -/

theorem irqOf_eq_one {l : Line} (h : irqOf l = 1) : l = keyboardLine := by
  cases l with
  | master i => exact congrArg Line.master (Fin.ext h)
  | slave i =>
    rw [irqOf] at h
    omega

/-- No other line has a routine. A handler of the keyboard's line, or a run of
`keyboardHandler` that has not read yet, has taken the request of a byte that
waits. -/
structure System.Engaged (s : System) : Prop where
  others : ∀ i, (hi : i < 16) → i ≠ 1 → s.irqRoutines[i] = none
  claimed : s.phase.Claims → s.port.pending ≠ none ∧ s.pics.latched keyboardLine = false

namespace System

variable {mask : UInt8} {s s' : System} {e : Event}

theorem Engaged.start (pics : Cascade) (tasks : List Task) (port : Controller)
    (keyboard : Keyboard) : (start pics tasks port keyboard).Engaged where
  others _ hi _ := Vector.getElem_replicate hi
  claimed h := h.elim

/-- The routine that `irq_handler` finds for a line. -/
theorem Engaged.routine (h : s.Engaged) (hsound : s.Sound mask) {regs : InterruptRegisters}
    (hphase : s.phase = .handler regs) {handler : Option Routine} {outs : List (UInt16 × UInt8)}
    (hhandler : irqHandler s.irqRoutines regs = some (handler, outs)) :
    if regs.intNo.toNat = 33 then handler = s.routine else handler = none := by
  obtain ⟨l, hintNo, -⟩ := hsound.handled regs hphase
  rw [irqHandler_line _ hintNo] at hhandler
  cases hhandler
  split
  · obtain rfl := irqOf_eq_one (l := l) (by omega)
    rfl
  · exact h.others _ (irqOf_lt l) (by omega)

/-- The handler that an acknowledge leads to is that of the keyboard exactly if
its line was answered for. -/
theorem Sound.intNo_iff (h : s.Sound mask) (hphase : s.phase = .told) {regs : InterruptRegisters}
    (hvector : regs.intNo.toNat = (s.pics.vector s.pics.inta.1).toNat) :
    regs.intNo.toNat = 33 ↔ s.pics.inta.1 = keyboardLine := by
  rw [hvector, vector_of_remapped (h.quiet (.inr hphase)).1]
  constructor
  · intro hnumber
    exact irqOf_eq_one (by omega)
  · intro hline
    rw [hline]
    rfl

/-- **What every step keeps.** -/
theorem Engaged.step (h : s.Engaged) (hsound : s.Sound mask) (hstep : s.step e = some s') :
    s'.Engaged := by
  rcases step_cases hstep with ⟨rfl, port, hport, rfl⟩ | ⟨l, on, rfl, hl, -, rfl⟩ |
    ⟨rfl, hphase, -, rfl⟩ | ⟨regs, rfl, hphase, hvector, rfl⟩ | ⟨rfl, hcode⟩
  · refine ⟨h.others, fun hclaims => ?_⟩
    have hpending := (h.claimed hclaims).1
    rw [Controller.arrive] at hport
    split at hport
    · rename_i hnone _
      exact absurd hnone hpending
    · cases hport
  · refine ⟨h.others, fun hclaims => ?_⟩
    obtain ⟨hpending, hlatch⟩ := h.claimed hclaims
    exact ⟨hpending, (Cascade.latch_drive (by decide) hl).trans hlatch⟩
  · exact ⟨h.others, fun hclaims => hclaims.elim⟩
  · refine ⟨h.others, fun hclaims => ?_⟩
    have hline := (hsound.intNo_iff hphase hvector).mp hclaims
    have hrequest := Cascade.requests_of_inta hline (by decide)
    rw [Chip.requests, Bool.and_eq_true, Bool.and_eq_true, hsound.wired] at hrequest
    refine ⟨fun hnone => ?_, Cascade.latch_of_inta hline (by decide) (by decide)⟩
    rw [hnone] at hrequest
    exact absurd hrequest.1.2 (by decide)
  rcases code_cases hcode with ⟨-, rfl⟩ | ⟨out, outs, -, rfl⟩ | ⟨chr, tasks, hphase, -, rfl⟩ |
    ⟨tasks, hphase, -, rfl⟩ | ⟨regs, handler, outs, hphase, hhandler, rfl⟩ | ⟨outs, -, rfl⟩ |
    ⟨first, outs, -, rfl⟩
  · exact ⟨h.others, fun hclaims => hclaims.elim⟩
  · exact ⟨h.others, fun hclaims => hclaims.elim⟩
  · refine ⟨h.others, fun hclaims => ?_⟩
    rw [show _ = Phase.main from hphase] at hclaims
    exact hclaims.elim
  · refine ⟨fun i hi hne => ?_, fun hclaims => ?_⟩
    · show (irqInstallHandler 1 _ s.irqRoutines)[i] = none
      rw [irqInstallHandler, Vector.getElem_setIfInBounds_ne hi hne.symm]
      exact h.others i hi hne
    · rw [show _ = Phase.main from hphase] at hclaims
      exact hclaims.elim
  · refine ⟨h.others, fun hclaims => ?_⟩
    have hroutine := h.routine hsound hphase hhandler
    have hnumber : regs.intNo.toNat = 33 := by
      by_contra hnot
      rw [if_neg hnot] at hroutine
      rw [if_pos hroutine] at hclaims
      exact hclaims
    exact h.claimed (by rw [hphase]; exact hnumber)
  · exact ⟨h.others, fun hclaims => hclaims.elim⟩
  · exact ⟨h.others, fun hclaims => hclaims.elim⟩

/-- All that holds along a run. -/
structure Regular (mask : UInt8) (s : System) : Prop extends s.Sound mask, s.Engaged

theorem Regular.step (h : s.Regular mask) (hstep : s.step e = some s') : s'.Regular mask :=
  ⟨h.toSound.step hstep, h.toEngaged.step h.toSound hstep⟩

theorem Regular.run (h : s.Regular mask) {events : List Event} (hrun : s.run events = some s') :
    s'.Regular mask := by
  induction events generalizing s with
  | nil =>
    cases hrun
    exact h
  | cons e events ih =>
    obtain ⟨t, hstep, hrest⟩ := Option.bind_eq_some_iff.mp hrun
    exact ih (h.step hstep) hrest

/-! ## One step -/

/-- **Awake stays awake**, unless the code forgets a request. -/
theorem Regular.awake_step (h : s.Regular mask) (hawake : s.Awake) (hstep : s.step e = some s')
    (hkept : e = .code → ¬ s.Drops) : s'.Awake := by
  rcases step_cases hstep with ⟨rfl, port, hport, rfl⟩ | ⟨l, on, rfl, hl, -, rfl⟩ |
    ⟨rfl, hphase, -, rfl⟩ | ⟨regs, rfl, hphase, hvector, rfl⟩ | ⟨rfl, hcode⟩
  · -- the line was low, and rises
    intro _
    have hlow : s.pics.master.level 1 = false := by
      rw [h.wired]
      rw [Controller.arrive] at hport
      split at hport
      · rename_i hnone _
        rw [hnone]
        rfl
      · cases hport
    exact .inl (Chip.drive_rise hlow)
  · intro hpending
    rcases hawake hpending with hlatch | hlistens
    · exact .inl ((Cascade.latch_drive (by decide) hl).trans hlatch)
    · exact .inr hlistens
  · intro hpending
    have hlatch := hawake hpending
    rw [hphase] at hlatch
    exact .inl (hlatch.resolve_right id)
  · intro hpending
    have hlatch := hawake hpending
    rw [hphase] at hlatch
    by_cases hnumber : regs.intNo.toNat = 33
    · exact .inr hnumber
    · have hline := fun e => hnumber ((h.intNo_iff hphase hvector).mpr e)
      refine .inl ((Cascade.latch_inta (by decide) ?_ hline).trans (hlatch.resolve_right id))
      exact cascaded_of_remapped (h.quiet (.inr hphase)).1
  have hkept := hkept rfl
  rcases code_cases hcode with ⟨hphase, rfl⟩ | ⟨out, outs, hphase, rfl⟩ |
    ⟨chr, tasks, -, -, rfl⟩ | ⟨tasks, -, -, rfl⟩ | ⟨regs, handler, outs, hphase, hhandler, rfl⟩ |
    ⟨outs, -, rfl⟩ | ⟨first, outs, -, rfl⟩
  · intro hpending
    have hlatch := hawake hpending
    rw [hphase] at hlatch
    exact .inl (hlatch.resolve_right id)
  · intro hpending
    have hlatch := hawake hpending
    rw [hphase] at hlatch
    refine .inl ((Cascade.latch_outb (by decide)).trans ?_)
    rw [if_neg fun hinit => hkept ⟨hpending, .inl ⟨out, outs, hphase, hinit⟩⟩]
    exact hlatch.resolve_right id
  · exact hawake
  · exact hawake
  · intro hpending
    have hroutine := h.routine h.toSound hphase hhandler
    rcases hawake hpending with hlatch | hlistens
    · exact .inl hlatch
    · rw [hphase] at hlistens
      have hnumber : regs.intNo.toNat = 33 := hlistens
      rw [if_pos hnumber] at hroutine
      have hinstalled : handler ≠ none := by
        rw [hroutine]
        exact fun hnone => hkept ⟨hpending, .inr ⟨regs, hphase, hnumber, hnone⟩⟩
      refine .inr ?_
      dsimp only
      rw [if_neg hinstalled]
      trivial
  · exact fun hpending => absurd rfl hpending
  · exact fun hpending => absurd rfl hpending

/-- A request that is forgotten leaves the keyboard stalled. -/
theorem Regular.drops_stalls (h : s.Regular mask) (hdrops : s.Drops) (hcode : s.code = some s') :
    s'.Stalled := by
  obtain ⟨hpending, ⟨out, outs, hphase, hinit⟩ | ⟨regs, hphase, hnumber, hnone⟩⟩ := hdrops
  · rw [code, hphase] at hcode
    cases hcode
    refine ⟨hpending, (Cascade.latch_outb (by decide)).trans (if_pos hinit), ?_⟩
    exact id
  · have hlatch := (h.claimed (by rw [hphase]; exact hnumber)).2
    obtain ⟨l, hintNo, -⟩ := h.handled regs hphase
    obtain rfl := irqOf_eq_one (l := l) (by omega)
    have hhandler : irqHandler s.irqRoutines regs = some (none, eoiWrites 1) := by
      rw [irqHandler_line _ hintNo, ← hnone]
      rfl
    rw [code, hphase] at hcode
    dsimp only at hcode
    rw [hhandler] at hcode
    cases hcode
    exact ⟨hpending, hlatch, id⟩

end System

/-- What `main` does to the console and the keyboard's state. -/
def Task.act (k : Keyboard) : Task → Keyboard
  | .putc chr => k.putc chr
  | .initKeyboard => Kernel.initKeyboard k

namespace System

variable {mask : UInt8} {s s' : System} {e : Event}

/-- **Stalled stays stalled**: the port does not change, and only `main`
prints. -/
theorem Regular.stalled_step (h : s.Regular mask) (hstalled : s.Stalled)
    (hstep : s.step e = some s') : s'.Stalled ∧ s'.port = s.port ∧
      ∃ done, s.tasks = done ++ s'.tasks ∧ s'.keyboard = done.foldl Task.act s.keyboard := by
  obtain ⟨hpending, hlatch, hlistens⟩ := hstalled
  rcases step_cases hstep with ⟨rfl, port, hport, rfl⟩ | ⟨l, on, rfl, hl, -, rfl⟩ |
    ⟨rfl, hphase, -, rfl⟩ | ⟨regs, rfl, hphase, hvector, rfl⟩ | ⟨rfl, hcode⟩
  · rw [Controller.arrive] at hport
    split at hport
    · rename_i hnone _
      exact absurd hnone hpending
    · cases hport
  · exact ⟨⟨hpending, (Cascade.latch_drive (by decide) hl).trans hlatch, hlistens⟩, rfl, [], rfl,
      rfl⟩
  · exact ⟨⟨hpending, hlatch, id⟩, rfl, [], rfl, rfl⟩
  · -- without its latch line 1 is not answered for
    have hline : s.pics.inta.1 ≠ keyboardLine := by
      intro e
      have hrequest := Cascade.requests_of_inta e (by decide)
      rw [Chip.requests, show s.pics.master.latch 1 = false from hlatch] at hrequest
      exact absurd hrequest Bool.false_ne_true
    have hcascaded := cascaded_of_remapped (h.quiet (.inr hphase)).1
    refine ⟨⟨hpending, (Cascade.latch_inta (by decide) hcascaded hline).trans hlatch, ?_⟩, rfl, [],
      rfl, rfl⟩
    exact fun hnumber => hline ((h.intNo_iff hphase hvector).mp hnumber)
  rcases code_cases hcode with ⟨hphase, rfl⟩ | ⟨out, outs, hphase, rfl⟩ |
    ⟨chr, tasks, hphase, htasks, rfl⟩ | ⟨tasks, hphase, htasks, rfl⟩ |
    ⟨regs, handler, outs, hphase, hhandler, rfl⟩ | ⟨outs, hphase, rfl⟩ | ⟨first, outs, hphase, rfl⟩
  · exact ⟨⟨hpending, hlatch, id⟩, rfl, [], rfl, rfl⟩
  · refine ⟨⟨hpending, ?_, id⟩, rfl, [], rfl, rfl⟩
    refine (Cascade.latch_outb (by decide)).trans ?_
    rw [show s.pics.master.latch 1 = false from hlatch, ite_self]
  · exact ⟨⟨hpending, hlatch, hlistens⟩, rfl, [.putc chr], htasks, rfl⟩
  · exact ⟨⟨hpending, hlatch, hlistens⟩, rfl, [.initKeyboard], htasks, rfl⟩
  · have hroutine := h.routine h.toSound hphase hhandler
    have hnumber : regs.intNo.toNat ≠ 33 := by
      rw [hphase] at hlistens
      exact hlistens
    rw [if_neg hnumber] at hroutine
    rw [if_pos hroutine]
    exact ⟨⟨hpending, hlatch, id⟩, rfl, [], rfl, rfl⟩
  · rw [hphase] at hlistens
    exact absurd trivial hlistens
  · rw [hphase] at hlistens
    exact absurd trivial hlistens

/-! ## Runs -/

theorem Regular.start {pics : Cascade} (tasks : List Task) {port : Controller} (keyboard : Keyboard)
    (hquiet : pics.Quiet) (hwired : pics.master.level 1 = port.pending.isSome) :
    (start pics tasks port keyboard).Regular pics.master.pic.mask :=
  ⟨Sound.start tasks keyboard hquiet hwired, Engaged.start pics tasks port keyboard⟩

theorem dropped_append_iff (s : System) (events : List Event) (e : Event) :
    s.Dropped (events ++ [e]) ↔
      s.Dropped events ∨ e = .code ∧ ∃ t, s.run events = some t ∧ t.Drops := by
  constructor
  · rintro ⟨before, behind, t, hevents, hrun, hdrops⟩
    rcases List.eq_nil_or_concat behind with rfl | ⟨behind', e', rfl⟩
    · obtain ⟨rfl, he⟩ := List.append_inj' hevents rfl
      exact .inr ⟨(List.cons.inj he).1, t, hrun, hdrops⟩
    · rw [List.concat_eq_append, ← List.cons_append, ← List.append_assoc] at hevents
      obtain ⟨hevents, -⟩ := List.append_inj' hevents rfl
      exact .inl ⟨before, behind', t, hevents, hrun, hdrops⟩
  · rintro (⟨before, behind, t, rfl, hrun, hdrops⟩ | ⟨rfl, t, hrun, hdrops⟩)
    · exact ⟨before, behind ++ [e], t, by simp, hrun, hdrops⟩
    · exact ⟨events, [], t, rfl, hrun, hdrops⟩

theorem Regular.awake_iff {s₀ : System} (h₀ : s₀.Regular mask) (hawake₀ : s₀.Awake)
    (events : List Event) {s : System} (hrun : s₀.run events = some s) :
    s.Awake ↔ ¬ s₀.Dropped events := by
  induction events using List.reverseRecOn generalizing s with
  | nil =>
    cases hrun
    refine iff_of_true hawake₀ ?_
    rintro ⟨before, behind, t, hevents, -⟩
    exact absurd hevents (by simp)
  | append_singleton events e ih =>
    rw [run_append] at hrun
    obtain ⟨t, ht, hstep⟩ := Option.bind_eq_some_iff.mp hrun
    have hregular := h₀.run ht
    have ih := ih ht
    rw [dropped_append_iff, not_or, ← ih]
    constructor
    · intro hawake
      have hbefore : t.Awake := by
        by_contra hstalled
        have hstays := hregular.stalled_step (not_awake_iff.mp hstalled) hstep
        exact not_awake_iff.mpr hstays.1 hawake
      refine ⟨hbefore, ?_⟩
      rintro ⟨rfl, u, hu, hdrops⟩
      obtain rfl : t = u := Option.some.inj (ht.symm.trans hu)
      exact not_awake_iff.mpr (hregular.drops_stalls hdrops hstep) hawake
    · rintro ⟨hbefore, hkept⟩
      refine hregular.awake_step hbefore hstep ?_
      rintro rfl hdrops
      exact hkept ⟨rfl, t, ht, hdrops⟩

end System

/-- **The keyboard stays awake** exactly as long as no request is forgotten
while its byte waits; and as long as it does, in `main` a byte that waits is
offered to the processor, unless its line is masked. -/
theorem keyboard_awake_iff {pics : Cascade} (tasks : List Task) {port : Controller}
    (keyboard : Keyboard) (hquiet : pics.Quiet)
    (hwired : pics.master.level 1 = port.pending.isSome)
    (hrequested : port.pending ≠ none → pics.master.latch 1 = true) (events : List Event)
    {s : System} (hrun : (System.start pics tasks port keyboard).run events = some s) :
    (s.Awake ↔ ¬ (System.start pics tasks port keyboard).Dropped events) ∧
    (s.Awake → s.phase = .main → s.port.pending ≠ none →
      pics.master.pic.mask.toNat.testBit 1 = false → s.pics.int = true) := by
  have hstart := System.Regular.start tasks keyboard hquiet hwired
  refine ⟨hstart.awake_iff (fun hpending => .inl (hrequested hpending)) events hrun, ?_⟩
  intro hawake hphase hpending hmask
  have hregular := hstart.run hrun
  obtain ⟨hpair, hquiet'⟩ := hregular.quiet (.inl hphase)
  have hlatch := hawake hpending
  rw [hphase] at hlatch
  apply Chip.int_of_idle (Prod.mk.inj hquiet').1 (i := 1)
  have hunmasked : s.pics.master.masked 1 = false := by
    rw [Chip.masked, show s.pics.master.pic = s.pics.pair.master from rfl, hpair]
    exact hmask
  have hlatched : s.pics.master.latch 1 = true := hlatch.resolve_right id
  rw [Chip.requests, hlatched, hregular.wired, hunmasked,
    Option.isSome_iff_ne_none.mpr hpending]
  rfl

/-- **Nothing wakes it up**: once a request has been forgotten the byte waits
for ever, no other one comes, and nothing is printed but by `main`. -/
theorem stalled_forever {pics : Cascade} (tasks : List Task) {port : Controller}
    (keyboard : Keyboard) (hquiet : pics.Quiet)
    (hwired : pics.master.level 1 = port.pending.isSome)
    (hrequested : port.pending ≠ none → pics.master.latch 1 = true) (events later : List Event)
    {s s' : System} (hrun : (System.start pics tasks port keyboard).run events = some s)
    (hdropped : (System.start pics tasks port keyboard).Dropped events)
    (hlater : s.run later = some s') :
    s.port.pending ≠ none ∧ s'.port = s.port ∧
      ∃ done, s.tasks = done ++ s'.tasks ∧ s'.keyboard = done.foldl Task.act s.keyboard := by
  have hstart := System.Regular.start tasks keyboard hquiet hwired
  have hregular := hstart.run hrun
  have hstalled : s.Stalled := by
    rw [← System.not_awake_iff]
    intro hawake
    have hiff := hstart.awake_iff (fun hpending => .inl (hrequested hpending)) events hrun
    exact hiff.mp hawake hdropped
  refine ⟨hstalled.1, ?_⟩
  clear hdropped hrun
  induction later generalizing s with
  | nil =>
    cases hlater
    exact ⟨rfl, [], rfl, rfl⟩
  | cons e later ih =>
    obtain ⟨t, hstep, hrest⟩ := Option.bind_eq_some_iff.mp hlater
    obtain ⟨hstays, hport, done, htasks, hkeyboard⟩ := hregular.stalled_step hstalled hstep
    obtain ⟨hport', done', htasks', hkeyboard'⟩ := ih hrest (hregular.step hstep) hstays
    refine ⟨hport'.trans hport, done ++ done', ?_, ?_⟩
    · rw [htasks, htasks', List.append_assoc]
    · rw [hkeyboard', hkeyboard, List.foldl_append]

/-- The frame of the keyboard's interrupt. -/
def sampleRegisters : InterruptRegisters := ⟨0, 0, 0, 0, 33, 0, 0, 0, 0x08, 0x202, 0⟩

/-- A key that is pressed while `main` still prints, up to the start of
`irq_handler`. -/
def sampleEarly : List Event :=
  List.replicate 11 .code ++ [.arrive, .interrupt, .acknowledge sampleRegisters]

def sampleStart : System :=
  .start samplePics [.putc 0x21, .initKeyboard] ⟨[0x1E, 0x9E], 1, none, ⟨0, 0⟩⟩ sampleKeyboard

theorem sample_dropped : sampleStart.Dropped (sampleEarly ++ [.code]) :=
  ⟨sampleEarly, [], _, rfl, rfl, Option.some_ne_none _, .inr ⟨sampleRegisters, rfl, rfl, rfl⟩⟩

theorem keyboard_awake_iff_sample : ∃ s, sampleStart.run (sampleEarly ++ [.code]) = some s ∧
    ¬ s.Awake := by
  refine ⟨_, rfl, fun hawake => ?_⟩
  exact (@keyboard_awake_iff samplePics [.putc 0x21, .initKeyboard] ⟨[0x1E, 0x9E], 1, none, ⟨0, 0⟩⟩
    sampleKeyboard rfl rfl (fun h => absurd rfl h) (sampleEarly ++ [Event.code]) _ rfl).1.mp hawake
    sample_dropped

/-- `main` goes on and installs the routine, and the release does not come. -/
theorem stalled_forever_sample : ∃ s s', sampleStart.run (sampleEarly ++ [.code]) = some s ∧
    s.run (List.replicate 4 .code) = some s' ∧ s'.port = s.port := by
  refine ⟨_, _, rfl, rfl, ?_⟩
  exact (@stalled_forever samplePics [.putc 0x21, .initKeyboard] ⟨[0x1E, 0x9E], 1, none, ⟨0, 0⟩⟩
    sampleKeyboard rfl rfl (fun h => absurd rfl h) (sampleEarly ++ [Event.code])
    (List.replicate 4 Event.code) _ _ rfl sample_dropped rfl).2.1

end Netclover.Kernel
