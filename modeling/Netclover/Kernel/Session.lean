import Netclover.Kernel.FaultReport
import Netclover.Kernel.Typist
import Netclover.Kernel.Wakeup
import Netclover.Stdio.Paper

/-!
# A session (`kernel/main.c`)

What stands on the screen once `main` has printed its lines and the keyboard is
on: for any devices and any order of the steps, the lines and behind them what
`keyboardHandler` makes of the bytes that came, each of them once and in order,
unless a byte overtakes a run of the handler (`session_displays`).
-/

namespace Netclover.Kernel

open I8259 Numeral Stdio

/-! ## `main` -/

/-- `for (int i=0; i<RegionCount; i++)`, with the passes that are left. -/
def bangLoop : Nat → Printing Unit
  | 0 => pure ()
  | n + 1 => do
    printfPassed "!" []
    bangLoop n

/-- What `main` prints. -/
def mainPrints (bootDevice : UInt8) (regionCount : Int32) : Printing Unit := do
  printfPassed "Boot device: 0x%x\n" [.word bootDevice.toUInt64]
  printfPassed "%i regions\n" [.word regionCount.toUInt32.toUInt64]
  bangLoop regionCount.toInt.toNat
  printfPassed "Hello world from the kernel!\n" []

/-- The four lines. -/
def mainText (bootDevice : UInt8) (regionCount : Int32) : List UInt8 :=
  cstr "Boot device: 0x" ++ numeral 16 bootDevice.toNat ++ [ascii '\n'] ++
    (signedNumeral 10 regionCount.toInt ++ cstr " regions\n") ++
    List.replicate regionCount.toInt.toNat (ascii '!') ++ cstr "Hello world from the kernel!\n"

/-- A text that is its own format. -/
theorem printfPassed_plain {format : String} (h : Plain (cstr format)) (out : List UInt8) :
    printfPassed format [] out = .ok ((), out ++ cstr format) := by
  apply printfPassed_printed
  have hplain := printed_plain h 0 [] []
  rw [List.append_nil, Nat.add_zero] at hplain
  rw [hplain]
  simp [printed, filled, scan, fill]

theorem bangLoop_ok (n : Nat) (out : List UInt8) :
    bangLoop n out = .ok ((), out ++ List.replicate n (ascii '!')) := by
  induction n generalizing out with
  | zero =>
    rw [List.replicate_zero, List.append_nil]
    rfl
  | succ n ih =>
    have hone := @printfPassed_plain "!" (by decide +kernel) out
    rw [bangLoop, Proc.bind_ok hone, ih, List.replicate_succ, List.append_assoc]
    rfl

/-- Of an argument `%i` prints the low half. -/
theorem printed_int (n : Nat) (v : UInt64) (format : List UInt8) (slots : List Slot) :
    printed (n + 1) (ascii '%' :: ascii 'i' :: format) (.word v :: slots)
      = (printed n format slots).map (signedNumeral 10 v.toUInt32.toInt32.toInt ++ ·) := by
  have hscan : scan (n + 1) (ascii '%' :: ascii 'i' :: format)
      = (scan n format).map (Piece.number .default .i :: ·) := rfl
  have hvalue : Conversion.i.numeral (BitVec.setWidth 32 v.toBitVec)
      = signedNumeral 10 v.toUInt32.toInt32.toInt := rfl
  rw [printed, filled, hscan, printed, filled]
  cases scan n format with
  | none => rfl
  | some pieces =>
    simp only [Option.map_some, Option.bind_some, fill]
    cases fill pieces slots with
    | none => rfl
    | some items =>
      rw [← hvalue]
      rfl

/-- **`main` prints its lines**, whatever the boot device and the number of
regions are. -/
theorem mainPrints_ok (bootDevice : UInt8) (regionCount : Int32) (out : List UInt8) :
    mainPrints bootDevice regionCount out = .ok ((), out ++ mainText bootDevice regionCount) := by
  have hdevice : ∀ out, printfPassed "Boot device: 0x%x\n" [.word bootDevice.toUInt64] out
      = .ok ((), out ++
        (cstr "Boot device: 0x" ++ numeral 16 bootDevice.toNat ++ [ascii '\n'])) := by
    intro out
    have hline := @printfPassed_line "Boot device: 0x%x\n" "Boot device: 0x" rfl
      (by decide +kernel) bootDevice.toUInt64 out
    have hlow : bootDevice.toUInt64.toNat % 2 ^ 32 = bootDevice.toNat := by
      have hlt := bootDevice.toNat_lt
      rw [UInt8.toNat_toUInt64]
      omega
    rw [hline, line, hlow, List.append_assoc]
  have hregions : ∀ out, printfPassed "%i regions\n" [.word regionCount.toUInt32.toUInt64] out
      = .ok ((), out ++ (signedNumeral 10 regionCount.toInt ++ cstr " regions\n")) := by
    intro out
    refine printfPassed_printed ?_ out
    have hplain := @printed_plain (cstr " regions\n") (by decide +kernel) 1 [] []
    rw [List.append_nil] at hplain
    have hlength : (cstr "%i regions\n").length = (cstr " regions\n").length + 1 + 1 := rfl
    rw [hlength, show cstr "%i regions\n" = ascii '%' :: ascii 'i' :: cstr " regions\n" from rfl,
      printed_int, hplain, UInt32.toUInt32_toUInt64, show printed 1 [] [] = some [] from rfl,
      Option.map_some, Option.map_some, List.append_nil]
    rfl
  have hhello := @printfPassed_plain "Hello world from the kernel!\n" (by decide +kernel)
  rw [mainPrints, Proc.bind_ok (hdevice _), Proc.bind_ok (hregions _),
    Proc.bind_ok (bangLoop_ok ..), hhello, mainText]
  simp only [List.append_assoc]

/-- What `main` does behind `initIDT`, with what it prints. -/
def mainTasks (text : List UInt8) : List Task := text.map .putc ++ [.initKeyboard]

/-! ## The bytes -/

/-- The bytes that have not been read, first the one that waits. -/
def Controller.unread (p : Controller) : List UInt8 := p.pending.toList.map (·.value) ++ p.stream

/-- The byte that `keyboardHandler` has read once. -/
def Phase.inHand : Phase → List UInt8
  | .reading (some first) _ => [first.value]
  | .reading none _ | .writing _ | .main | .told | .handler _ => []

def Phase.halfRead (phase : Phase) : Bool := !phase.inHand.isEmpty

theorem Controller.unread_arrive {p q : Controller} (h : p.arrive = some q) :
    q.unread = p.unread ∧ p.pending = none := by
  rw [arrive] at h
  split at h
  · rename_i value stream hpending hstream
    cases h
    refine ⟨?_, hpending⟩
    rw [unread, unread, hpending, hstream]
    rfl
  · cases h

theorem Controller.unread_read {p : Controller} {b : KeyByte} (h : p.pending = some b) :
    p.unread = b.value :: p.read.unread ∧ p.shown = b := by
  rw [unread, h, shown, h]
  exact ⟨rfl, rfl⟩

theorem Controller.unread_reread {p : Controller} (h : p.pending = none) :
    p.read.unread = p.unread ∧ p.shown = p.last := by
  rw [unread, unread, h, shown, h]
  exact ⟨rfl, rfl⟩

def Event.isArrive : Event → Bool
  | .arrive => true
  | .drive _ _ | .interrupt | .acknowledge _ | .code => false

theorem Event.isArrive_iff (e : Event) : e.isArrive = true ↔ e = .arrive := by
  cases e <;> simp [isArrive]

namespace System

/-- A byte comes between the two reads of a run of `keyboardHandler`. -/
def Overtaken (s : System) (events : List Event) : Prop :=
  ∃ before behind t, events = before ++ .arrive :: behind ∧ s.run before = some t ∧
    t.phase.halfRead = true

theorem overtaken_cons_iff (s : System) (e : Event) (events : List Event) :
    s.Overtaken (e :: events) ↔
      (e = .arrive ∧ s.phase.halfRead = true) ∨ ∃ t, s.step e = some t ∧ t.Overtaken events := by
  constructor
  · rintro ⟨before, behind, u, hevents, hrun, hphase⟩
    cases before with
    | nil =>
      cases hrun
      exact .inl ⟨(List.cons.inj hevents).1, hphase⟩
    | cons e' before =>
      rw [List.cons_append] at hevents
      obtain ⟨rfl, htail⟩ := List.cons.inj hevents
      obtain ⟨t, hstep, hrest⟩ := Option.bind_eq_some_iff.mp hrun
      exact .inr ⟨t, hstep, before, behind, u, htail, hrest, hphase⟩
  · rintro (⟨rfl, hphase⟩ | ⟨t, hstep, before, behind, u, rfl, hrun, hphase⟩)
    · exact ⟨[], events, s, rfl, rfl, hphase⟩
    · refine ⟨e :: before, behind, u, rfl, ?_, hphase⟩
      rw [run, List.foldlM_cons, hstep]
      exact hrun

/-- The same, step by step. -/
def overtaken : System → List Event → Bool
  | _, [] => false
  | s, e :: events => e.isArrive && s.phase.halfRead || (s.step e).any (overtaken · events)

theorem overtaken_iff (s : System) (events : List Event) :
    s.overtaken events = true ↔ s.Overtaken events := by
  induction events generalizing s with
  | nil =>
    refine iff_of_false Bool.false_ne_true ?_
    rintro ⟨before, behind, t, hevents, -⟩
    exact absurd hevents (by simp)
  | cons e events ih =>
    rw [overtaken_cons_iff, overtaken, Bool.or_eq_true, Option.any_eq_true, Bool.and_eq_true,
      Event.isArrive_iff]
    simp only [ih]

instance (s : System) (events : List Event) : Decidable (s.Overtaken events) :=
  decidable_of_iff _ (s.overtaken_iff events)

end System

variable {mask : UInt8} {s s' : System} {e : Event} {text stream : List UInt8} {k : Keyboard}

/-- `main` has some of its text to print yet, and no byte has been read. -/
structure System.Greets (text stream : List UInt8) (k : Keyboard) (s : System) : Prop where
  prints : ∃ done rest, text = done ++ rest ∧ s.tasks = mainTasks rest ∧
    s.keyboard = done.foldl Keyboard.putc k
  routine : s.routine = none
  phase : ∀ first outs, s.phase ≠ .reading first outs
  unread : stream = s.port.unread

/-- `main` is done, and some bytes have been handled. -/
structure System.Handles (text stream : List UInt8) (k : Keyboard) (handled : List UInt8)
    (s : System) : Prop where
  tasks : s.tasks = []
  keyboard : s.keyboard = handle (text.foldl Keyboard.putc k) handled
  unread : stream = handled ++ s.phase.inHand ++ s.port.unread
  reading : ∀ first outs, s.phase = .reading (some first) outs →
    s.port.pending = none ∧ s.port.last = first

namespace System

theorem Greets.start (pics : Cascade) (text : List UInt8) (port : Controller) (k : Keyboard) :
    (start pics (mainTasks text) port k).Greets text port.unread k where
  prints := ⟨[], text, rfl, rfl, rfl⟩
  routine := Vector.getElem_replicate (by decide)
  phase _ _ h := by cases h
  unread := rfl

/-- With something left to print the state is like before but for where the
processor is. -/
theorem Greets.go (h : s.Greets text stream k) {phase : Phase} {pics : Cascade} {port : Controller}
    (hphase : ∀ first outs, phase ≠ .reading first outs) (hunread : port.unread = s.port.unread) :
    ({ s with phase, pics, port } : System).Greets text stream k :=
  ⟨h.prints, h.routine, hphase, h.unread.trans hunread.symm⟩

theorem Handles.go {handled : List UInt8} (h : s.Handles text stream k handled) {phase : Phase}
    {pics : Cascade} {port : Controller} (hin : phase.inHand = s.phase.inHand)
    (hunread : port.unread = s.port.unread)
    (hreading : ∀ first outs, phase = .reading (some first) outs →
      port.pending = none ∧ port.last = first) :
    ({ s with phase, pics, port } : System).Handles text stream k handled :=
  ⟨h.tasks, h.keyboard, by rw [hin, hunread]; exact h.unread, hreading⟩

/-- **While `main` prints** no byte is read, and with its last task the
keyboard is on. -/
theorem Greets.step (h : s.Greets text stream k) (hregular : s.Regular mask)
    (hstep : s.step e = some s') :
    s'.Greets text stream k ∨ s'.Handles text stream k [] := by
  obtain ⟨done, rest, htext, htasks, hkeyboard⟩ := h.prints
  rcases step_cases hstep with ⟨rfl, port, hport, rfl⟩ | ⟨l, on, rfl, -, -, rfl⟩ |
    ⟨rfl, -, -, rfl⟩ | ⟨regs, rfl, -, -, rfl⟩ | ⟨rfl, hcode⟩
  · exact .inl (h.go h.phase (Controller.unread_arrive hport).1)
  · exact .inl (h.go h.phase rfl)
  · exact .inl (h.go (fun _ _ e => by cases e) rfl)
  · exact .inl (h.go (fun _ _ e => by cases e) rfl)
  rcases code_cases hcode with ⟨-, rfl⟩ | ⟨out, outs, -, rfl⟩ | ⟨chr, tasks, hphase, hputc, rfl⟩ |
    ⟨tasks, hphase, hinit, rfl⟩ | ⟨regs, routine, outs, hphase, hhandler, rfl⟩ |
    ⟨outs, hphase, rfl⟩ | ⟨first, outs, hphase, rfl⟩
  · exact .inl (h.go (fun _ _ e => by cases e) rfl)
  · exact .inl (h.go (fun _ _ e => by cases e) rfl)
  · -- a character of the text
    rw [htasks] at hputc
    cases rest with
    | nil => cases hputc
    | cons c rest =>
      obtain ⟨hc, hrest⟩ := List.cons.inj hputc
      obtain rfl := Task.putc.inj hc
      refine .inl ⟨⟨done ++ [c], rest, by simp [htext], hrest.symm, ?_⟩, h.routine, h.phase,
        h.unread⟩
      rw [List.foldl_append, ← hkeyboard]
      rfl
  · rw [htasks] at hinit
    cases rest with
    | cons c rest => cases hinit
    | nil =>
      obtain ⟨-, hnone⟩ := List.cons.inj hinit
      rw [List.append_nil] at htext
      refine .inr ⟨hnone.symm, ?_, ?_, ?_⟩
      · show initKeyboard s.keyboard = _
        rw [hkeyboard, htext]
        rfl
      · rw [show _ = Phase.main from hphase]
        exact h.unread
      · intro first outs hreading
        rw [show _ = Phase.main from hphase] at hreading
        cases hreading
  · have hroutine := hregular.routine hregular.toSound hphase hhandler
    rw [h.routine, ite_self] at hroutine
    rw [if_pos hroutine]
    exact .inl (h.go (fun _ _ e => by cases e) rfl)
  · exact absurd hphase (h.phase _ _)
  · exact absurd hphase (h.phase _ _)

/-- **With the keyboard on** a byte is handled in two reads, and no other byte
is, unless one comes between them. -/
theorem Handles.step {handled : List UInt8} (h : s.Handles text stream k handled)
    (hregular : s.Regular mask) (hstep : s.step e = some s')
    (hnot : e = .arrive → s.phase.halfRead = false) :
    ∃ more, s'.Handles text stream k (handled ++ more) := by
  have hsame : ∀ {t : System}, t.Handles text stream k handled →
      ∃ more, t.Handles text stream k (handled ++ more) := fun ht =>
    ⟨[], by rw [List.append_nil]; exact ht⟩
  rcases step_cases hstep with ⟨rfl, port, hport, rfl⟩ | ⟨l, on, rfl, -, -, rfl⟩ |
    ⟨rfl, hphase, -, rfl⟩ | ⟨regs, rfl, hphase, -, rfl⟩ | ⟨rfl, hcode⟩
  · refine hsame (h.go rfl (Controller.unread_arrive hport).1 fun first outs hreading => ?_)
    have hfree := hnot rfl
    rw [show s.phase = _ from hreading] at hfree
    cases hfree
  · exact hsame (h.go rfl rfl h.reading)
  · exact hsame (h.go (by rw [hphase]; rfl) rfl fun _ _ e => by cases e)
  · exact hsame (h.go (by rw [hphase]; rfl) rfl fun _ _ e => by cases e)
  rcases code_cases hcode with ⟨hphase, rfl⟩ | ⟨out, outs, hphase, rfl⟩ |
    ⟨chr, tasks, -, htasks, rfl⟩ | ⟨tasks, -, htasks, rfl⟩ |
    ⟨regs, routine, outs, hphase, hhandler, rfl⟩ | ⟨outs, hphase, rfl⟩ | ⟨first, outs, hphase, rfl⟩
  · exact hsame (h.go (by rw [hphase]; rfl) rfl fun _ _ e => by cases e)
  · exact hsame (h.go (by rw [hphase]; rfl) rfl fun _ _ e => by cases e)
  · rw [h.tasks] at htasks
    cases htasks
  · rw [h.tasks] at htasks
    cases htasks
  · refine hsame (h.go ?_ rfl fun first outs e => ?_)
    · rw [hphase]
      split
      · rfl
      · rfl
    · split at e <;> cases e
  · -- the first read takes the byte that waits
    have hclaimed := (hregular.claimed (by rw [hphase]; trivial)).1
    obtain ⟨b, hb⟩ := Option.ne_none_iff_exists'.mp hclaimed
    obtain ⟨hunread, hshown⟩ := Controller.unread_read hb
    refine hsame ⟨h.tasks, h.keyboard, ?_, ?_⟩
    · rw [h.unread, hphase, hunread]
      show _ = handled ++ [s.port.shown.value] ++ s.port.read.unread
      rw [hshown]
      simp [Phase.inHand]
    · intro first outs' hreading
      cases hreading
      exact ⟨rfl, rfl⟩
  · -- the second one finds it again
    obtain ⟨hpending, hlast⟩ := h.reading first outs hphase
    obtain ⟨hunread, hshown⟩ := Controller.unread_reread hpending
    rw [hlast] at hshown
    refine ⟨[first.value], h.tasks, ?_, ?_, fun _ _ e => by cases e⟩
    · show keyboardHandler first.value s.port.shown.value s.keyboard = _
      rw [hshown, h.keyboard, handle_append]
    · rw [h.unread, hphase]
      show _ = handled ++ [first.value] ++ [] ++ s.port.read.unread
      rw [hunread, List.append_nil]
      rfl

/-- **A run** from where `main` prints. -/
theorem Greets.run (h : s.Greets text stream k) (hregular : s.Regular mask) {events : List Event}
    (hrun : s.run events = some s') (hnot : ¬ s.Overtaken events) :
    s'.Greets text stream k ∨ ∃ handled, s'.Handles text stream k handled := by
  have hall : s.Greets text stream k ∨ ∃ handled, s.Handles text stream k handled := .inl h
  clear h
  induction events generalizing s with
  | nil =>
    cases hrun
    exact hall
  | cons e events ih =>
    obtain ⟨t, hstep, hrest⟩ := Option.bind_eq_some_iff.mp hrun
    rw [overtaken_cons_iff, not_or] at hnot
    have hfree : e = .arrive → s.phase.halfRead = false :=
      fun he => Bool.eq_false_iff.mpr fun hphase => hnot.1 ⟨he, hphase⟩
    refine ih (hregular.step hstep) hrest (fun hlater => hnot.2 ⟨t, hstep, hlater⟩) ?_
    rcases hall with hgreets | ⟨handled, hhandles⟩
    · exact (hgreets.step hregular hstep).imp_right fun h => ⟨[], h⟩
    · obtain ⟨more, hmore⟩ := hhandles.step hregular hstep hfree
      exact .inr ⟨_, hmore⟩

end System

/-! ## The screen -/

theorem foldl_putc (chars : List UInt8) (k : Keyboard) : chars.foldl Keyboard.putc k
    = ⟨k.capsOn, chars.foldl (Stdio.putc .x86_64) k.console⟩ := by
  induction chars generalizing k with
  | nil => rfl
  | cons chr chars ih =>
    rw [List.foldl_cons, ih]
    rfl

/-- **A session**: `main` prints its lines on the cleared screen; and in every
run of the system without a byte between the two reads of a handler, once
`main` is done, the bytes that have been sent are those that have been handled,
the one that is being handled, and those that have not been read; and the screen
shows the lines and what has been typed, as long as that has no backspace at the
first cell of the screen. -/
theorem session_displays {pics : Cascade} {port : Controller} (c₀ : Console) (capsOn : Bool)
    (bootDevice : UInt8) (regionCount : Int32) (hquiet : pics.Quiet)
    (hwired : pics.master.level 1 = port.pending.isSome) (events : List Event) {s₀ s : System}
    (hstart : s₀ = .start pics (mainTasks (mainText bootDevice regionCount)) port
      ⟨capsOn, clrscr .x86_64 c₀⟩)
    (hrun : s₀.run events = some s) (hnot : ¬ s₀.Overtaken events) (hdone : s.tasks = []) :
    mainPrints bootDevice regionCount [] = .ok ((), mainText bootDevice regionCount) ∧
    ∃ handled, port.unread = handled ++ s.phase.inHand ++ s.port.unread ∧
      s.keyboard.capsOn = handler.after false handled ∧
      (Roll.empty.Fits .x86_64 (mainText bootDevice regionCount ++ handler.written false handled) →
        Displays .x86_64 (Roll.empty.writeAll .x86_64
          (mainText bootDevice regionCount ++ handler.written false handled)) s.keyboard.console) := by
  refine ⟨mainPrints_ok bootDevice regionCount [], ?_⟩
  generalize mainText bootDevice regionCount = text at *
  subst hstart
  have hregular := System.Regular.start (mainTasks text) ⟨capsOn, clrscr .x86_64 c₀⟩ hquiet hwired
  have hgreets := System.Greets.start pics text port ⟨capsOn, clrscr .x86_64 c₀⟩
  rcases hgreets.run hregular hrun hnot with hgreets' | ⟨handled, hhandles⟩
  · obtain ⟨done, rest, -, htasks, -⟩ := hgreets'.prints
    rw [hdone] at htasks
    exact absurd htasks.symm (by simp [mainTasks])
  · refine ⟨handled, hhandles.unread, ?_, fun hfits => ?_⟩
    · rw [hhandles.keyboard, handle_eq]
    · rw [hhandles.keyboard, handle_eq, foldl_putc, ← List.foldl_append]
      exact (clrscr_displays .x86_64 c₀).writeAll hfits

/-- A key is pressed when `main` has halted, and its interrupt is served. -/
def sampleSession : List Event :=
  List.replicate 68 .code ++ [.arrive, .interrupt, .acknowledge sampleRegisters] ++
    List.replicate 5 .code

theorem session_displays_sample : ∃ s handled,
    (System.start samplePics (mainTasks (mainText 0 0)) ⟨[0x1E, 0x9E], 1, none, ⟨0, 0⟩⟩
      ⟨true, clrscr .x86_64 sampleKeyboard.console⟩).run sampleSession = some s ∧
    [0x1E, 0x9E] = handled ++ s.phase.inHand ++ s.port.unread ∧
    s.keyboard.capsOn = handler.after false handled := by
  have hdone : ((System.start samplePics (mainTasks (mainText 0 0)) ⟨[0x1E, 0x9E], 1, none, ⟨0, 0⟩⟩
      ⟨true, clrscr .x86_64 sampleKeyboard.console⟩).run sampleSession).any (·.tasks.isEmpty) := by
    decide +kernel
  obtain ⟨s, hrun, htasks⟩ := Option.any_eq_true _ _ |>.mp hdone
  obtain ⟨-, handled, hbytes, hcaps, -⟩ := @session_displays samplePics _ _ true 0 0 rfl rfl
    sampleSession _ _ rfl hrun (by decide +kernel) (List.isEmpty_iff.mp htasks)
  exact ⟨s, handled, hrun, hbytes, hcaps⟩

end Netclover.Kernel
