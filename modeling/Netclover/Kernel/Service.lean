import Netclover.Kernel.InitIdt
import Netclover.Kernel.KeyboardPort
import Netclover.Lib.Requests

/-!
# Interrupts at work (`kernel/x86/idt.c`, `kernel/main.c`)

The kernel from the last lines of `initIDT` on: `main` with interrupts enabled,
the two controllers with whatever their devices do, the keyboard's port, and
`irq_handler` with the routines that are installed, in any order of their
steps. Whatever a request does before it is answered, nothing is left in
service behind `irq_handler`, so that the next request is heard
(`system_hears`).
-/

namespace Netclover.Kernel

open I8259

/-! ## `irq_routines` -/

/-- The routine that the kernel installs. -/
inductive Routine where
  | keyboardHandler
  deriving DecidableEq, Repr

section

variable {α : Type} (irq : Nat) (handler : α) (irqRoutines : Vector (Option α) 16)

def irqInstallHandler : Vector (Option α) 16 := irqRoutines.setIfInBounds irq (some handler)

def irqUninstallHandler : Vector (Option α) 16 := irqRoutines.setIfInBounds irq none

end

/-! ## The kernel -/

/-- What `main` does behind `initIDT`: it prints, and it calls
`initKeyboard`. -/
inductive Task where
  | putc (chr : UInt8)
  | initKeyboard

/-- Where the processor is: in `initIDT` or behind the routine in
`irq_handler`, with some writes left and interrupts off; in `main`, with
interrupts on; on its way to a handler; at the start of `irq_handler`; in
`keyboardHandler`, with what its first read has returned. -/
inductive Phase where
  | writing (outs : List (UInt16 × UInt8))
  | main
  | told
  | handler (regs : InterruptRegisters)
  | reading (first : Option KeyByte) (outs : List (UInt16 × UInt8))

structure System where
  pics : Cascade
  irqRoutines : Vector (Option Routine) 16
  phase : Phase
  tasks : List Task
  port : Controller
  keyboard : Keyboard

/-- The writes of `initIDT`, with the mask it has read. -/
def remapWrites (mask : UInt8) : List (UInt16 × UInt8) :=
  [(masterComms, 0x11), (slaveComms, 0x11), (masterData, 0x20), (slaveData, 0x28),
    (masterData, 0x04), (slaveData, 0x02), (masterData, 0x01), (slaveData, 0x01),
    (masterData, mask), (slaveData, mask)]

/-- Behind the two reads of the mask. -/
def System.start (pics : Cascade) (tasks : List Task) (port : Controller) (keyboard : Keyboard) :
    System where
  pics
  irqRoutines := Vector.replicate 16 none
  phase := .writing (remapWrites (pics.pair.inb masterData))
  tasks
  port
  keyboard

namespace System

/-- The next step of the code. With the last of the writes `sti` or `iretq`
turns interrupts on; with no task left `main` halts. -/
def code (s : System) : Option System :=
  match s.phase with
  | .writing [] => some { s with phase := .main }
  | .writing (out :: outs) => some { s with pics := s.pics.outb out, phase := .writing outs }
  | .main =>
    match s.tasks with
    | [] => none
    | .putc chr :: tasks => some { s with keyboard := s.keyboard.putc chr, tasks }
    | .initKeyboard :: tasks => some { s with
        keyboard := initKeyboard s.keyboard
        irqRoutines := irqInstallHandler 1 .keyboardHandler s.irqRoutines
        tasks }
  | .told => none
  | .handler regs =>
    match irqHandler s.irqRoutines regs with
    | none => none
    | some (none, outs) => some { s with phase := .writing outs }
    | some (some .keyboardHandler, outs) => some { s with phase := .reading none outs }
  | .reading none outs => some { s with
      port := s.port.read
      pics := s.pics.drive keyboardLine false
      phase := .reading (some s.port.shown) outs }
  | .reading (some first) outs => some { s with
      port := s.port.read
      pics := s.pics.drive keyboardLine false
      keyboard := keyboardHandler first.value s.port.shown.value s.keyboard
      phase := .writing outs }

end System

/-- The keyboard shows its next byte; another device drives its line; the
processor sees a request, and acknowledges it, so that `irq_handler` gets the
frame of the vector's stub; a step of the code. -/
inductive Event where
  | arrive
  | drive (l : Line) (on : Bool)
  | interrupt
  | acknowledge (regs : InterruptRegisters)
  | code

namespace System

def step (s : System) : Event → Option System
  | .arrive => s.port.arrive.map fun port =>
    { s with port, pics := s.pics.drive keyboardLine true }
  | .drive l on =>
    if l = keyboardLine ∨ l = slaveLine then none else some { s with pics := s.pics.drive l on }
  | .interrupt =>
    match s.phase with
    | .main => if s.pics.int then some { s with phase := .told } else none
    | _ => none
  | .acknowledge regs =>
    match s.phase with
    | .told =>
      if regs.intNo.toNat = (s.pics.vector s.pics.inta.1).toNat
      then some { s with pics := s.pics.inta.2, phase := .handler regs } else none
    | _ => none
  | .code => s.code

def run (s : System) (events : List Event) : Option System := events.foldlM step s

/-! ## What a step does -/

/-- What the code can do, and when. -/
theorem code_cases {s s' : System} (h : s.code = some s') :
    (s.phase = .writing [] ∧ s' = { s with phase := .main }) ∨
    (∃ out outs, s.phase = .writing (out :: outs) ∧
      s' = { s with pics := s.pics.outb out, phase := .writing outs }) ∨
    (∃ chr tasks, s.phase = .main ∧ s.tasks = .putc chr :: tasks ∧
      s' = { s with keyboard := s.keyboard.putc chr, tasks }) ∨
    (∃ tasks, s.phase = .main ∧ s.tasks = .initKeyboard :: tasks ∧
      s' = { s with
        keyboard := initKeyboard s.keyboard
        irqRoutines := irqInstallHandler 1 .keyboardHandler s.irqRoutines
        tasks }) ∨
    (∃ regs handler outs, s.phase = .handler regs ∧
      irqHandler s.irqRoutines regs = some (handler, outs) ∧
      s' = { s with phase := if handler = none then .writing outs else .reading none outs }) ∨
    (∃ outs, s.phase = .reading none outs ∧ s' = { s with
        port := s.port.read
        pics := s.pics.drive keyboardLine false
        phase := .reading (some s.port.shown) outs }) ∨
    ∃ first outs, s.phase = .reading (some first) outs ∧ s' = { s with
        port := s.port.read
        pics := s.pics.drive keyboardLine false
        keyboard := keyboardHandler first.value s.port.shown.value s.keyboard
        phase := .writing outs } := by
  rw [code] at h
  split at h
  · rename_i hphase
    cases h
    exact .inl ⟨hphase, rfl⟩
  · rename_i out outs hphase
    cases h
    exact .inr (.inl ⟨out, outs, hphase, rfl⟩)
  · rename_i hphase
    split at h
    · cases h
    · rename_i chr tasks htasks
      cases h
      exact .inr (.inr (.inl ⟨chr, tasks, hphase, htasks, rfl⟩))
    · rename_i tasks htasks
      cases h
      exact .inr (.inr (.inr (.inl ⟨tasks, hphase, htasks, rfl⟩)))
  · cases h
  · rename_i regs hphase
    split at h
    · cases h
    · rename_i outs hhandler
      cases h
      exact .inr (.inr (.inr (.inr (.inl ⟨regs, none, outs, hphase, hhandler, rfl⟩))))
    · rename_i outs hhandler
      cases h
      exact .inr (.inr (.inr (.inr (.inl ⟨regs, some .keyboardHandler, outs, hphase, hhandler,
        rfl⟩))))
  · rename_i outs hphase
    cases h
    exact .inr (.inr (.inr (.inr (.inr (.inl ⟨outs, hphase, rfl⟩)))))
  · rename_i first outs hphase
    cases h
    exact .inr (.inr (.inr (.inr (.inr (.inr ⟨first, outs, hphase, rfl⟩)))))

/-- What an event can do, and when. -/
theorem step_cases {s s' : System} {e : Event} (h : s.step e = some s') :
    (e = .arrive ∧ ∃ port, s.port.arrive = some port ∧
      s' = { s with port, pics := s.pics.drive keyboardLine true }) ∨
    (∃ l on, e = .drive l on ∧ l ≠ keyboardLine ∧ l ≠ .master 2 ∧
      s' = { s with pics := s.pics.drive l on }) ∨
    (e = .interrupt ∧ s.phase = .main ∧ s.pics.int = true ∧ s' = { s with phase := .told }) ∨
    (∃ regs, e = .acknowledge regs ∧ s.phase = .told ∧
      regs.intNo.toNat = (s.pics.vector s.pics.inta.1).toNat ∧
      s' = { s with pics := s.pics.inta.2, phase := .handler regs }) ∨
    (e = .code ∧ s.code = some s') := by
  cases e with
  | arrive =>
    obtain ⟨port, hport, rfl⟩ := Option.map_eq_some_iff.mp h
    exact .inl ⟨rfl, port, hport, rfl⟩
  | drive l on =>
    rw [step] at h
    split at h
    · cases h
    · rename_i hline
      rw [not_or] at hline
      cases h
      exact .inr (.inl ⟨l, on, rfl, hline.1, hline.2, rfl⟩)
  | interrupt =>
    rw [step] at h
    split at h
    · rename_i hphase
      split at h
      · rename_i hint
        cases h
        exact .inr (.inr (.inl ⟨rfl, hphase, hint, rfl⟩))
      · cases h
    · cases h
  | acknowledge regs =>
    rw [step] at h
    split at h
    · rename_i hphase
      split at h
      · rename_i hvector
        cases h
        exact .inr (.inr (.inr (.inl ⟨regs, rfl, hphase, hvector, rfl⟩)))
      · cases h
    · cases h
  | code => exact .inr (.inr (.inr (.inr ⟨rfl, h⟩)))

theorem run_append (s : System) (events : List Event) (e : Event) :
    s.run (events ++ [e]) = (s.run events).bind (·.step e) := by
  simp only [run, List.foldlM_append, List.foldlM_cons, List.foldlM_nil, bind_pure]
  rfl

end System

/-! ## The controllers -/

/-- The number of a line, as the handlers count. -/
def irqOf : Line → Nat
  | .master i => i
  | .slave i => i + 8

/-- What `irq_handler` writes for a line. -/
def eoiWrites (irq : Nat) : List (UInt16 × UInt8) :=
  (if 8 ≤ irq then [(slaveComms, 0x20)] else []) ++ [(masterComms, 0x20)]

/-- The controllers behind `initIDT`. -/
def remapped (mask : UInt8) : Pair :=
  ⟨⟨0x20, mask, 0x04, 0x01, false, true, .ready⟩, ⟨0x28, mask, 0x02, 0x01, false, true, .ready⟩⟩

theorem irqOf_lt (l : Line) : irqOf l < 16 := by
  cases l with
  | master i => exact Nat.lt_trans i.isLt (by decide)
  | slave i =>
    rw [irqOf]
    omega

theorem outs_remapWrites (pics : Pair) :
    pics.outs (remapWrites (pics.inb masterData)) = remapped pics.master.mask := remapPics_eq pics

/-- The end of an interrupt concerns nothing but the services. -/
theorem outs_eoiWrites (pics : Pair) (irq : Nat) : pics.outs (eoiWrites irq) = pics := by
  have hslave : pics.outb (slaveComms, 0x20) = pics := rfl
  have hmaster : pics.outb (masterComms, 0x20) = pics := rfl
  rw [eoiWrites]
  split
  · show (pics.outb (slaveComms, 0x20)).outb (masterComms, 0x20) = pics
    rw [hslave, hmaster]
  · exact hmaster

/-- With nothing in service no write changes that. -/
theorem endService_none (outs : List (UInt16 × UInt8)) :
    outs.foldl Cascade.endService (Lines.none, Lines.none) = (Lines.none, Lines.none) := by
  induction outs with
  | nil => rfl
  | cons out outs ih =>
    rw [List.foldl_cons, Cascade.endService]
    simp only [Lines.clearHighest_none, ite_self]
    exact ih

/-- `irq_handler` ends the service of the line it is called for. -/
theorem endService_eoiWrites {pics : Cascade} {l : Line} (h : pics.Serving l) :
    (eoiWrites (irqOf l)).foldl Cascade.endService pics.service = (Lines.none, Lines.none) := by
  cases l with
  | master i =>
    have hirq : ¬ 8 ≤ irqOf (.master i) := Nat.not_le.mpr i.isLt
    rw [eoiWrites, if_neg hirq]
    exact congrArg₂ Prod.mk h.1.clearHighest h.2
  | slave i =>
    have hirq : 8 ≤ irqOf (.slave i) := Nat.le_add_left 8 i
    rw [eoiWrites, if_pos hirq]
    exact congrArg₂ Prod.mk h.1.clearHighest h.2.clearHighest

theorem cascaded_of_remapped {pics : Cascade} {mask : UInt8} (h : pics.pair = remapped mask)
    (i : Fin 8) (hi : pics.cascaded i = true) : i = 2 := by
  have hslave : pics.slave.pic.cascade = 0x02 := by
    rw [show pics.slave.pic = pics.pair.slave from rfl, h]
    rfl
  rw [Cascade.cascaded, hslave, Bool.and_eq_true, beq_iff_eq] at hi
  exact Fin.ext hi.2.symm

/-- The vectors are those of the sixteen gates. -/
theorem vector_of_remapped {pics : Cascade} {mask : UInt8} (h : pics.pair = remapped mask)
    (l : Line) : (pics.vector l).toNat = 32 + irqOf l := by
  have hmaster : pics.master.pic.base = 0x20 := by
    rw [show pics.master.pic = pics.pair.master from rfl, h]
    rfl
  have hslave : pics.slave.pic.base = 0x28 := by
    rw [show pics.slave.pic = pics.pair.slave from rfl, h]
    rfl
  cases l with
  | master i =>
    rw [Cascade.vector, hmaster]
    revert i
    decide
  | slave i =>
    rw [Cascade.vector, hslave]
    revert i
    decide

/-- `irq_handler`, for the frame of a line. -/
theorem irqHandler_line {α : Type} (irqRoutines : Vector (Option α) 16) {regs : InterruptRegisters}
    {l : Line} (h : regs.intNo.toNat = 32 + irqOf l) :
    irqHandler irqRoutines regs
      = some (irqRoutines.get ⟨irqOf l, irqOf_lt l⟩, eoiWrites (irqOf l)) := by
  have h32 : (32 : UInt64).toNat = 32 := rfl
  have h40 : (40 : UInt64).toNat = 40 := rfl
  have hindex : (regs.intNo - 32).toNat = irqOf l := by
    rw [UInt64.toNat_sub_of_le _ _ (by rw [UInt64.le_iff_toNat_le]; omega)]
    omega
  have hslave : 40 ≤ regs.intNo ↔ 8 ≤ irqOf l := by
    rw [UInt64.le_iff_toNat_le]
    omega
  rw [irqHandler, hindex, Vector.getElem?_eq_getElem (irqOf_lt l)]
  simp only [hslave]
  rfl

/-! ## What every step keeps -/

/-- The writes that are left before interrupts are on. -/
def Phase.left : Phase → List (UInt16 × UInt8)
  | .writing outs | .reading _ outs => outs
  | .main | .told | .handler _ => []

/-- What holds along a run: the controllers are, or will be, as `initIDT` sets
them up; in a handler there is nothing in service but its own interrupt, and
elsewhere nothing that is not about to be ended; the keyboard's line shows
whether a byte waits. -/
structure System.Sound (mask : UInt8) (s : System) : Prop where
  configured : s.pics.pair.outs s.phase.left = remapped mask
  handled : ∀ regs, s.phase = .handler regs →
    ∃ l, regs.intNo.toNat = 32 + irqOf l ∧ s.pics.Serving l
  ended : (∀ regs, s.phase ≠ .handler regs) →
    s.phase.left.foldl Cascade.endService s.pics.service = (Lines.none, Lines.none)
  wired : s.pics.master.level 1 = s.port.pending.isSome

namespace System

variable {mask : UInt8} {s s' : System} {e : Event}

theorem Sound.start {pics : Cascade} (tasks : List Task) {port : Controller} (keyboard : Keyboard)
    (hquiet : pics.Quiet) (hwired : pics.master.level 1 = port.pending.isSome) :
    (start pics tasks port keyboard).Sound pics.master.pic.mask where
  configured := outs_remapWrites pics.pair
  handled regs h := by cases h
  ended _ := by
    show (remapWrites _).foldl Cascade.endService pics.service = _
    rw [show pics.service = (Lines.none, Lines.none) from hquiet]
    exact endService_none _
  wired := hwired

/-- In `main`, and until a request is acknowledged, nothing is in service. -/
theorem Sound.quiet (h : s.Sound mask) (hphase : s.phase = .main ∨ s.phase = .told) :
    s.pics.pair = remapped mask ∧ s.pics.Quiet := by
  have hconfigured := h.configured
  have hended := h.ended
  rcases hphase with hphase | hphase
  · rw [hphase] at hconfigured hended
    exact ⟨hconfigured, hended fun _ e => by cases e⟩
  · rw [hphase] at hconfigured hended
    exact ⟨hconfigured, hended fun _ e => by cases e⟩

/-- What a device does to its line. -/
theorem Sound.drive (h : s.Sound mask) (l : Line) (on : Bool) {port : Controller}
    (hwired : (s.pics.drive l on).master.level 1 = port.pending.isSome) :
    ({ s with port, pics := s.pics.drive l on } : System).Sound mask where
  configured := by
    show (s.pics.drive l on).pair.outs s.phase.left = _
    rw [Cascade.pair_drive]
    exact h.configured
  handled regs hphase := by
    obtain ⟨k, hintNo, hserving⟩ := h.handled regs hphase
    refine ⟨k, hintNo, ?_⟩
    have hservice : (s.pics.drive l on).service = s.pics.service := Cascade.service_drive
    obtain ⟨hmaster, hslave⟩ := Prod.mk.inj hservice
    cases k with
    | master i => exact ⟨hmaster ▸ hserving.1, hslave.trans hserving.2⟩
    | slave i => exact ⟨hmaster ▸ hserving.1, hslave ▸ hserving.2⟩
  ended hphase := by
    show s.phase.left.foldl Cascade.endService (s.pics.drive l on).service = _
    rw [Cascade.service_drive]
    exact h.ended hphase
  wired := hwired

/-- The code goes on, and the controllers are the same. -/
theorem Sound.go (h : s.Sound mask) {phase : Phase} {tasks : List Task} {keyboard : Keyboard}
    {irqRoutines : Vector (Option Routine) 16} (hleft : phase.left = s.phase.left)
    (hbefore : ∀ regs, s.phase ≠ .handler regs) (hbehind : ∀ regs, phase ≠ .handler regs) :
    ({ s with phase, tasks, keyboard, irqRoutines } : System).Sound mask where
  configured := by
    show s.pics.pair.outs phase.left = _
    rw [hleft]
    exact h.configured
  handled regs hphase := absurd hphase (hbehind regs)
  ended _ := by
    show phase.left.foldl _ _ = _
    rw [hleft]
    exact h.ended hbefore
  wired := h.wired

/-- **What every step keeps.** -/
theorem Sound.step (h : s.Sound mask) (hstep : s.step e = some s') : s'.Sound mask := by
  rcases step_cases hstep with ⟨rfl, port, hport, rfl⟩ | ⟨l, on, rfl, hl, hl', rfl⟩ |
    ⟨rfl, hphase, -, rfl⟩ | ⟨regs, rfl, hphase, hvector, rfl⟩ | ⟨rfl, hcode⟩
  · refine h.drive keyboardLine true ?_
    have hpending : port.pending.isSome = true := by
      rw [Controller.arrive] at hport
      split at hport
      · cases hport
        rfl
      · cases hport
    rw [hpending]
    exact Cascade.level_drive_self
  · refine h.drive l on ?_
    rw [Cascade.level_drive (by decide) hl]
    exact h.wired
  · exact h.go (by rw [hphase]; rfl) (fun _ e => by rw [hphase] at e; cases e) fun _ e => by cases e
  · obtain ⟨hpair, hquiet⟩ := h.quiet (.inr hphase)
    constructor
    · show s.pics.inta.2.pair = _
      rw [Cascade.pair_inta, hpair]
    · rintro regs' hregs
      cases hregs
      refine ⟨s.pics.inta.1, ?_, hquiet.inta (cascaded_of_remapped hpair)⟩
      rw [hvector, vector_of_remapped hpair]
    · intro hnot
      exact absurd rfl (hnot regs)
    · show s.pics.inta.2.master.level 1 = _
      rw [Cascade.level_inta (by decide)]
      exact h.wired
  rcases code_cases hcode with ⟨hphase, rfl⟩ | ⟨out, outs, hphase, rfl⟩ |
    ⟨chr, tasks, hphase, -, rfl⟩ | ⟨tasks, hphase, -, rfl⟩ |
    ⟨regs, handler, outs, hphase, hhandler, rfl⟩ | ⟨outs, hphase, rfl⟩ | ⟨first, outs, hphase, rfl⟩
  · exact h.go (by rw [hphase]; rfl) (fun _ e => by rw [hphase] at e; cases e) fun _ e => by cases e
  · have hconfigured := h.configured
    have hended := h.ended fun _ e => by rw [hphase] at e; cases e
    rw [hphase] at hconfigured hended
    constructor
    · show (s.pics.outb out).pair.outs outs = _
      rw [Cascade.pair_outb]
      exact hconfigured
    · intro regs e
      cases e
    · intro _
      show outs.foldl _ (s.pics.outb out).service = _
      rw [Cascade.service_outb]
      exact hended
    · show (s.pics.outb out).master.level 1 = _
      rw [Cascade.level_outb (by decide)]
      exact h.wired
  · exact h.go (by rfl) (fun _ e => by rw [hphase] at e; cases e) fun _ e => by
      rw [hphase] at e; cases e
  · exact h.go (by rfl) (fun _ e => by rw [hphase] at e; cases e) fun _ e => by
      rw [hphase] at e; cases e
  · -- whichever routine it is, the writes behind it are the same
    obtain ⟨l, hintNo, hserving⟩ := h.handled regs hphase
    rw [irqHandler_line _ hintNo] at hhandler
    cases hhandler
    have hleft : (if s.irqRoutines.get ⟨irqOf l, irqOf_lt l⟩ = none then
        Phase.writing (eoiWrites (irqOf l)) else .reading none (eoiWrites (irqOf l))).left
        = eoiWrites (irqOf l) := by
      split <;> rfl
    have hconfigured := h.configured
    rw [hphase] at hconfigured
    constructor
    · show s.pics.pair.outs _ = _
      rw [hleft, outs_eoiWrites]
      exact hconfigured
    · intro regs' e
      dsimp only at e
      split at e <;> cases e
    · intro _
      show List.foldl _ s.pics.service _ = _
      rw [hleft]
      exact endService_eoiWrites hserving
    · exact h.wired
  · have hsound : ({ s with
        port := s.port.read
        pics := s.pics.drive keyboardLine false } : System).Sound mask :=
      h.drive keyboardLine false Cascade.level_drive_self
    exact hsound.go (by rw [hphase]; rfl) (fun _ e => by rw [hphase] at e; cases e)
      fun _ e => by cases e
  · have hsound : ({ s with
        port := s.port.read
        pics := s.pics.drive keyboardLine false } : System).Sound mask :=
      h.drive keyboardLine false Cascade.level_drive_self
    exact hsound.go (by rw [hphase]; rfl) (fun _ e => by rw [hphase] at e; cases e)
      fun _ e => by cases e

theorem Sound.run (h : s.Sound mask) {events : List Event} (hrun : s.run events = some s') :
    s'.Sound mask := by
  induction events generalizing s with
  | nil =>
    cases hrun
    exact h
  | cons e events ih =>
    obtain ⟨t, hstep, hrest⟩ := Option.bind_eq_some_iff.mp hrun
    exact ih (h.step hstep) hrest

end System

/-! ## The slave -/

/-- No initialisation of the master without one of the slave behind it. -/
def InitsSlaveLast : List (UInt16 × UInt8) → Prop
  | [] => True
  | out :: outs =>
    ((toMaster out).any Write.isInit = true →
      ∃ o ∈ outs, (toSlave o).any Write.isInit = true) ∧ InitsSlaveLast outs

theorem remapWrites_initsSlaveLast (mask : UInt8) : InitsSlaveLast (remapWrites mask) := by
  simp [remapWrites, InitsSlaveLast, toMaster, toSlave, masterComms, slaveComms, masterData,
    slaveData, Write.isInit]

theorem eoiWrites_initsSlaveLast (irq : Nat) : InitsSlaveLast (eoiWrites irq) := by
  have hnot : (0x20 : UInt8) &&& 0x10 = 0 := by decide
  rw [eoiWrites]
  split <;> simp [InitsSlaveLast, toMaster, masterComms, slaveComms, Write.isInit, hnot]

/-- The slave is heard, from its initialisation on. -/
structure System.Coupled (s : System) : Prop where
  ordered : InitsSlaveLast s.phase.left
  linked : (∀ out ∈ s.phase.left, (toSlave out).any Write.isInit = false) → s.pics.Linked

namespace System

variable {mask : UInt8} {s s' : System} {e : Event}

theorem Coupled.start (pics : Cascade) (tasks : List Task) (port : Controller)
    (keyboard : Keyboard) : (start pics tasks port keyboard).Coupled where
  ordered := remapWrites_initsSlaveLast _
  linked h := by
    have hinit := h (slaveComms, 0x11) (List.mem_cons_of_mem _ List.mem_cons_self)
    exact absurd hinit (by decide)

/-- The code goes on with the writes it had, or with none of an
initialisation. -/
theorem Coupled.go (h : s.Coupled) {phase : Phase} {tasks : List Task} {keyboard : Keyboard}
    {irqRoutines : Vector (Option Routine) 16} (hleft : phase.left = s.phase.left) :
    ({ s with phase, tasks, keyboard, irqRoutines } : System).Coupled where
  ordered := by
    show InitsSlaveLast phase.left
    rw [hleft]
    exact h.ordered
  linked hinits := h.linked (hleft ▸ hinits)

theorem Coupled.drive (h : s.Coupled) {l : Line} (hl : l ≠ .master 2) (on : Bool)
    (port : Controller) : ({ s with port, pics := s.pics.drive l on } : System).Coupled where
  ordered := h.ordered
  linked hinits := (h.linked hinits).drive hl

/-- **What every step keeps.** -/
theorem Coupled.step (h : s.Coupled) (hsound : s.Sound mask) (hstep : s.step e = some s') :
    s'.Coupled := by
  have hkeyboard : keyboardLine ≠ .master 2 := by decide
  rcases step_cases hstep with ⟨rfl, port, -, rfl⟩ | ⟨l, on, rfl, -, hl, rfl⟩ |
    ⟨rfl, hphase, -, rfl⟩ | ⟨regs, rfl, hphase, -, rfl⟩ | ⟨rfl, hcode⟩
  · exact h.drive hkeyboard true port
  · exact h.drive hl on s.port
  · exact h.go (by rw [hphase]; rfl)
  · obtain ⟨hpair, -⟩ := hsound.quiet (.inr hphase)
    have hlinked := h.linked (by rw [hphase]; exact fun _ hout => absurd hout List.not_mem_nil)
    have hmode : s.pics.slave.pic.mode &&& 0x02 = 0 := by
      rw [show s.pics.slave.pic = s.pics.pair.slave from rfl, hpair]
      show (0x01 : UInt8) &&& 0x02 = 0
      decide
    have hcascaded : s.pics.cascaded 2 = true := by
      rw [Cascade.cascaded, show s.pics.slave.pic = s.pics.pair.slave from rfl,
        show s.pics.master.pic = s.pics.pair.master from rfl, hpair]
      show ((0x04 : UInt8).toNat.testBit (2 : Fin 8) && (0x02 : UInt8).toNat == (2 : Fin 8)) = true
      decide
    exact ⟨trivial, fun _ => hlinked.inta hmode hcascaded⟩
  rcases code_cases hcode with ⟨hphase, rfl⟩ | ⟨out, outs, hphase, rfl⟩ |
    ⟨chr, tasks, -, -, rfl⟩ | ⟨tasks, -, -, rfl⟩ | ⟨regs, handler, outs, hphase, hhandler, rfl⟩ |
    ⟨outs, hphase, rfl⟩ | ⟨first, outs, hphase, rfl⟩
  · exact h.go (by rw [hphase]; rfl)
  · have hordered := h.ordered
    have hlinked := h.linked
    rw [hphase] at hordered hlinked
    refine ⟨hordered.2, fun hinits => Cascade.linked_outb ?_⟩
    by_cases hinit : (toSlave out).any Write.isInit = true
    · exact .inl hinit
    · refine .inr ⟨Bool.eq_false_iff.mpr fun hmaster => ?_, hlinked fun o ho => ?_⟩
      · obtain ⟨o, ho, hslave⟩ := hordered.1 hmaster
        exact absurd hslave (Bool.eq_false_iff.mp (hinits o ho))
      · rcases List.mem_cons.mp ho with rfl | ho
        · exact Bool.eq_false_iff.mpr hinit
        · exact hinits o ho
  · exact h.go rfl
  · exact h.go rfl
  · obtain ⟨l, hintNo, -⟩ := hsound.handled regs hphase
    rw [irqHandler_line _ hintNo] at hhandler
    cases hhandler
    have hlinked := h.linked (by rw [hphase]; exact fun _ hout => absurd hout List.not_mem_nil)
    refine ⟨?_, fun _ => hlinked⟩
    dsimp only
    split <;> exact eoiWrites_initsSlaveLast _
  · exact (h.drive hkeyboard false s.port.read).go (by rw [hphase]; rfl)
  · exact (h.drive hkeyboard false s.port.read).go (by rw [hphase]; rfl)

theorem Coupled.run (h : s.Coupled) (hsound : s.Sound mask) {events : List Event}
    (hrun : s.run events = some s') : s'.Coupled := by
  induction events generalizing s with
  | nil =>
    cases hrun
    exact h
  | cons e events ih =>
    obtain ⟨t, hstep, hrest⟩ := Option.bind_eq_some_iff.mp hrun
    exact ih (h.step hsound hstep) (hsound.step hstep) hrest

end System

/-! ## The processor hears of every request -/

/-- **No interrupt gets stuck**: for every behaviour of the devices, those that
take a request back included, `irq_handler` finds a routine's place for every
interrupt it is called for, and ends its service. Each time `main` goes on
nothing is in service, and any request that is not masked is offered to the
processor. -/
theorem system_hears {pics : Cascade} (tasks : List Task) {port : Controller} (keyboard : Keyboard)
    (hquiet : pics.Quiet) (hwired : pics.master.level 1 = port.pending.isSome)
    (events : List Event) {s : System}
    (hrun : (System.start pics tasks port keyboard).run events = some s) :
    (∀ regs, s.phase = .handler regs → ∃ l, regs.intNo.toNat = 32 + irqOf l ∧
      irqHandler s.irqRoutines regs
        = some (s.irqRoutines.get ⟨irqOf l, irqOf_lt l⟩, eoiWrites (irqOf l)) ∧
      (eoiWrites (irqOf l)).foldl Cascade.endService s.pics.service = (Lines.none, Lines.none)) ∧
    (s.phase = .main → s.pics.Quiet ∧
      (∀ i, s.pics.master.requests i = true → s.pics.int = true) ∧
      ∀ i, s.pics.slave.requests i = true → pics.master.pic.mask.toNat.testBit 2 = false →
        s.pics.int = true) := by
  have hstart := System.Sound.start tasks keyboard hquiet hwired
  have hsound := hstart.run hrun
  have hcoupled := (System.Coupled.start pics tasks port keyboard).run hstart hrun
  constructor
  · intro regs hphase
    obtain ⟨l, hintNo, hserving⟩ := hsound.handled regs hphase
    exact ⟨l, hintNo, irqHandler_line _ hintNo, endService_eoiWrites hserving⟩
  · intro hphase
    obtain ⟨hpair, hquiet'⟩ := hsound.quiet (.inl hphase)
    obtain ⟨hmaster, hslave⟩ := Prod.mk.inj hquiet'
    refine ⟨hquiet', fun i => Chip.int_of_idle hmaster, fun i hrequest hmask => ?_⟩
    have hlinked := hcoupled.linked
      (by rw [hphase]; exact fun _ hout => absurd hout List.not_mem_nil)
    have hint := Chip.int_of_idle hslave hrequest
    -- the slave's request is one of the master on line 2
    apply Chip.int_of_idle hmaster (i := 2)
    have hunmasked : s.pics.master.masked 2 = false := by
      rw [Chip.masked, show s.pics.master.pic = s.pics.pair.master from rfl, hpair]
      exact hmask
    rw [Chip.requests, hlinked.latch hint, hlinked.level, hint, hunmasked]
    rfl

/-- The controllers as a BIOS leaves them. -/
def samplePics : Cascade where
  master := ⟨⟨0x08, 0xB8, 0x04, 0x01, false, true, .ready⟩, Lines.none, Lines.none, Lines.none⟩
  slave := ⟨⟨0x70, 0x8F, 0x02, 0x01, false, true, .ready⟩, Lines.none, Lines.none, Lines.none⟩

/-- A key is pressed behind `initIDT`. -/
theorem system_hears_sample : ∃ s,
    (System.start samplePics [] ⟨[0x1E], 1, none, ⟨0, 0⟩⟩ sampleKeyboard).run
      (List.replicate 11 .code ++ [.arrive]) = some s ∧ s.pics.int = true := by
  refine ⟨_, rfl, ?_⟩
  have hhears := @system_hears samplePics [] ⟨[0x1E], 1, none, ⟨0, 0⟩⟩ sampleKeyboard rfl rfl
    (List.replicate 11 .code ++ [.arrive]) _ rfl
  exact (hhears.2 rfl).2.1 1 (by decide +kernel)

end Netclover.Kernel
