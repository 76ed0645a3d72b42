import Mathlib.Data.List.TakeWhile
import Netclover.Kernel.InitIdt
import Netclover.Stdio.Vprintf

/-!
# The report of an exception (`kernel/x86/idt.c`)

`isr_handler` prints registers of 64 bits under `%x`, which takes an
`unsigned int`. The report is right exactly if all that is reported fits in 32
bits (`isr_reports_iff`), which no address of the kernel does.
-/

namespace Netclover.Kernel

open Numeral Proc Stdio

/-! ## Arguments as they are passed -/

/-- A variable argument of the x86-64 calling convention, in eight bytes: an
integer, or the address of a string. -/
inductive Slot where
  | word (v : UInt64)
  | string (str : List UInt8)

/-- The pieces of a format with what `va_arg` makes of the arguments: an `int`
is the low half of its eight bytes. -/
def fill : List Piece → List Slot → Option (List (Filled .x86_64))
  | [], _ => some []
  | .literal c h :: pieces, slots => (fill pieces slots).map (⟨.literal c h, ()⟩ :: ·)
  | .percent :: pieces, slots => (fill pieces slots).map (⟨.percent, ()⟩ :: ·)
  | .char :: pieces, .word v :: slots =>
    (fill pieces slots).map (⟨.char, v.toBitVec.setWidth 32⟩ :: ·)
  | .string :: pieces, .string str :: slots => (fill pieces slots).map (⟨.string, str⟩ :: ·)
  | .number length conversion :: pieces, .word v :: slots =>
    (fill pieces slots).map
      (⟨.number length conversion, v.toBitVec.setWidth (length.bits .x86_64)⟩ :: ·)
  | _, _ => none

/-- The first `n` characters at most of a format, with the arguments. -/
def filled (n : Nat) (format : List UInt8) (slots : List Slot) : Option (List (Filled .x86_64)) :=
  (scan n format).bind (fill · slots)

/-- `printf`, with the arguments as they are passed. -/
def printfPassed (format : String) (slots : List Slot) : Printing Unit :=
  match filled (cstr format).length (cstr format) slots with
  | none => Proc.halt .badArgument
  | some items => do
    let _ ← printf .x86_64 (cstr format) (items.flatMap Filled.args)

/-! ## `isr_handler` -/

def isrHandler (regs : InterruptRegisters) : Printing InterruptRegisters := do
  if regs.intNo < 32 then
    match exceptionMessage regs.intNo with
    | none => Proc.halt .outOfBounds
    | some message =>
      printfPassed "\nInterrupt! \"%s\" err: 0x%x\n" [.string (cstr message), .word regs.errNo]
      printfPassed "RAX: 0x%x\n" [.word regs.rax]
      printfPassed "RBX: 0x%x\n" [.word regs.rbx]
      printfPassed "RCX: 0x%x\n" [.word regs.rcx]
      printfPassed "RDX: 0x%x\n" [.word regs.rdx]
      printfPassed "RIP: 0x%x\n" [.word regs.rip]
      return regs
  else return regs

/-! ## Reading a report -/

/-- The text behind the first place where the label stands. -/
def after (label : List UInt8) : List UInt8 → List UInt8
  | [] => []
  | c :: cs => if label.isPrefixOf (c :: cs) then (c :: cs).drop label.length else after label cs

def isHexDigit (c : UInt8) : Bool :=
  ascii '0' ≤ c && c ≤ ascii '9' || ascii 'a' ≤ c && c ≤ ascii 'f'

/-- The value of the hexadecimal digits behind the label. -/
def reported (label : String) (text : List UInt8) : Nat :=
  parseFrom 16 0 ((after (cstr label) text).takeWhile isHexDigit)

/-- The report says what is in the frame. -/
structure Reports (regs : InterruptRegisters) (text : List UInt8) : Prop where
  errNo : reported "err: 0x" text = regs.errNo.toNat
  rax : reported "RAX: 0x" text = regs.rax.toNat
  rbx : reported "RBX: 0x" text = regs.rbx.toNat
  rcx : reported "RCX: 0x" text = regs.rcx.toNat
  rdx : reported "RDX: 0x" text = regs.rdx.toNat
  rip : reported "RIP: 0x" text = regs.rip.toNat

/-! ## What is printed -/

/-- What a format prints, if the arguments fit it. -/
def printed (n : Nat) (format : List UInt8) (slots : List Slot) : Option (List UInt8) :=
  (filled n format slots).map (·.flatMap Filled.output)

theorem map_piece_fill : ∀ {pieces : List Piece} {slots : List Slot} {items : List (Filled .x86_64)},
    fill pieces slots = some items → items.map Filled.piece = pieces := by
  intro pieces
  induction pieces with
  | nil =>
    intro slots items h
    cases h
    rfl
  | cons piece pieces ih =>
    intro slots items h
    have hcons : ∀ {slots : List Slot} {item : Filled .x86_64},
        (fill pieces slots).map (item :: ·) = some items →
        item.piece = piece → items.map Filled.piece = piece :: pieces := by
      intro slots item h hitem
      obtain ⟨rest, hrest, rfl⟩ := Option.map_eq_some_iff.mp h
      rw [List.map_cons, ih hrest, hitem]
    cases piece with
    | literal c hc => exact hcons h rfl
    | percent => exact hcons h rfl
    | char =>
      rcases slots with _ | ⟨v | str, slots⟩
      · cases h
      · exact hcons h rfl
      · cases h
    | string =>
      rcases slots with _ | ⟨v | str, slots⟩
      · cases h
      · cases h
      · exact hcons h rfl
    | number length conversion =>
      rcases slots with _ | ⟨v | str, slots⟩
      · cases h
      · exact hcons h rfl
      · cases h

/-- **`printf`** prints the pieces of its format. -/
theorem printfPassed_printed {format : String} {slots : List Slot} {text : List UInt8}
    (h : printed (cstr format).length (cstr format) slots = some text) (out : List UInt8) :
    printfPassed format slots out = .ok ((), out ++ text) := by
  obtain ⟨items, hitems, rfl⟩ := Option.map_eq_some_iff.mp h
  obtain ⟨pieces, hpieces, hfill⟩ := Option.bind_eq_some_iff.mp hitems
  have hrun := runPieces_args items [] out
  rw [List.append_nil, map_piece_fill hfill, ← printf_text, formatText_scan hpieces] at hrun
  rw [printfPassed, hitems]
  exact bind_ok hrun

/-- Characters that are printed as they are. -/
def Plain (cs : List UInt8) : Prop := ∀ c ∈ cs, c ≠ 0 ∧ c ≠ ascii '%'

instance (cs : List UInt8) : Decidable (Plain cs) :=
  List.decidableBAll (fun c => c ≠ 0 ∧ c ≠ ascii '%') cs

theorem printed_plain {cs : List UInt8} (h : Plain cs) (n : Nat) (format : List UInt8)
    (slots : List Slot) : printed (cs.length + n) (cs ++ format) slots
      = (printed n format slots).map (cs ++ ·) := by
  induction cs with
  | nil => simp
  | cons c cs ih =>
    have hc := h c List.mem_cons_self
    have hrest := ih fun c' hc' => h c' (List.mem_cons_of_mem c hc')
    have hscan : printed ((c :: cs).length + n) (c :: cs ++ format) slots
        = (printed (cs.length + n) (cs ++ format) slots).map (c :: ·) := by
      rw [List.length_cons, show cs.length + 1 + n = cs.length + n + 1 by omega, List.cons_append,
        printed, filled, scan, dif_pos hc]
      simp only [printed, filled]
      cases scan (cs.length + n) (cs ++ format) with
      | none => rfl
      | some pieces =>
        simp only [Option.map_some, Option.bind_some, fill]
        cases fill pieces slots with
        | none => rfl
        | some items => rfl
    rw [hscan, hrest, Option.map_map]
    rfl

theorem printed_string (n : Nat) (str format : List UInt8) (slots : List Slot) :
    printed (n + 1) (ascii '%' :: ascii 's' :: format) (.string str :: slots)
      = (printed n format slots).map (str.takeWhile (· ≠ 0) ++ ·) := by
  have hscan : scan (n + 1) (ascii '%' :: ascii 's' :: format)
      = (scan n format).map (Piece.string :: ·) := rfl
  rw [printed, filled, hscan, printed, filled]
  cases scan n format with
  | none => rfl
  | some pieces =>
    simp only [Option.map_some, Option.bind_some, fill]
    cases fill pieces slots with
    | none => rfl
    | some items => rfl

/-- Of a register `%x` prints the low half. -/
theorem printed_hex (n : Nat) (v : UInt64) : printed (n + 3) (cstr "%x\n") [.word v]
    = some (numeral 16 (v.toNat % 2 ^ 32) ++ [ascii '\n']) := by
  have houtput : printed (n + 3) (cstr "%x\n") [.word v]
      = some (Conversion.x.numeral (v.toBitVec.setWidth 32) ++ [ascii '\n']) := rfl
  rw [houtput, Conversion.numeral, Conversion.value, if_neg (by decide), BitVec.toNat_setWidth,
    signedNumeral_natCast]
  rfl

/-- What is printed of a register behind its label, and what follows. -/
def line (label : String) (v : UInt64) (rest : List UInt8) : List UInt8 :=
  cstr label ++ (numeral 16 (v.toNat % 2 ^ 32) ++ (ascii '\n' :: rest))

theorem printfPassed_line {format : String} (label : String)
    (hformat : cstr format = cstr label ++ cstr "%x\n") (hplain : Plain (cstr label))
    (v : UInt64) (out : List UInt8) :
    printfPassed format [.word v] out = .ok ((), out ++ line label v []) := by
  refine printfPassed_printed ?_ out
  rw [hformat, List.length_append, printed_plain hplain,
    show (cstr "%x\n").length = 0 + 3 from rfl, printed_hex]
  rfl

/-- The whole report. -/
def reportText (message : String) (regs : InterruptRegisters) : List UInt8 :=
  cstr "\nInterrupt! \"" ++ (cstr message ++ line "\" err: 0x" regs.errNo
    (line "RAX: 0x" regs.rax (line "RBX: 0x" regs.rbx (line "RCX: 0x" regs.rcx
      (line "RDX: 0x" regs.rdx (line "RIP: 0x" regs.rip []))))))

theorem exceptionMessages_plain : ∀ message ∈ exceptionMessages, Plain (cstr message) := by
  decide +kernel

/-- **`isr_handler`** prints the report and hands back what it got. -/
theorem isrHandler_prints (regs : InterruptRegisters) (h : regs.intNo < 32) :
    ∃ message ∈ exceptionMessages, exceptionMessage regs.intNo = some message ∧
      ∀ out, isrHandler regs out = .ok (regs, out ++ reportText message regs) := by
  rw [UInt64.lt_iff_toNat_lt] at h
  have hmessage : exceptionMessage regs.intNo
      = some (exceptionMessages.get ⟨regs.intNo.toNat, h⟩) := List.getElem?_eq_getElem h
  have hmem : exceptionMessages.get ⟨regs.intNo.toNat, h⟩ ∈ exceptionMessages := List.get_mem ..
  generalize exceptionMessages.get ⟨regs.intNo.toNat, h⟩ = message at hmessage hmem
  refine ⟨message, hmem, hmessage, fun out => ?_⟩
  have hstring : (cstr message).takeWhile (· ≠ 0) = cstr message := by
    rw [List.takeWhile_eq_self_iff]
    intro c hc
    exact decide_eq_true (exceptionMessages_plain message hmem c hc).1
  have hfirst : ∀ out, printfPassed "\nInterrupt! \"%s\" err: 0x%x\n"
      [.string (cstr message), .word regs.errNo] out
      = .ok ((), out ++ (cstr "\nInterrupt! \"" ++
        (cstr message ++ line "\" err: 0x" regs.errNo []))) := by
    have hformat : cstr "\nInterrupt! \"%s\" err: 0x%x\n" = cstr "\nInterrupt! \"" ++
        ascii '%' :: ascii 's' :: (cstr "\" err: 0x" ++ cstr "%x\n") := by decide
    have hlength : (cstr "\nInterrupt! \"%s\" err: 0x%x\n").length
        = (cstr "\nInterrupt! \"").length + ((cstr "\" err: 0x").length + (1 + 3) + 1) := by decide
    refine printfPassed_printed ?_
    rw [hlength, hformat, printed_plain (by decide), printed_string, printed_plain (by decide),
      printed_hex, hstring]
    rfl
  have hlt : regs.intNo < 32 := UInt64.lt_iff_toNat_lt.mpr h
  rw [isrHandler, if_pos hlt, hmessage]
  dsimp only
  rw [bind_ok (hfirst out),
    bind_ok (printfPassed_line "RAX: 0x" (by decide) (by decide) regs.rax _),
    bind_ok (printfPassed_line "RBX: 0x" (by decide) (by decide) regs.rbx _),
    bind_ok (printfPassed_line "RCX: 0x" (by decide) (by decide) regs.rcx _),
    bind_ok (printfPassed_line "RDX: 0x" (by decide) (by decide) regs.rdx _),
    bind_ok (printfPassed_line "RIP: 0x" (by decide) (by decide) regs.rip _)]
  simp only [line, reportText, List.append_assoc, List.cons_append, List.nil_append]
  rfl

/-! ## Finding the labels -/

/-- The two differ somewhere, as far as both go. -/
def clashes : List UInt8 → List UInt8 → Bool
  | a :: as, b :: bs => a ≠ b || clashes as bs
  | _, _ => false

/-- Nowhere in the text does the label start, whatever follows the text. -/
def absent (label : List UInt8) : List UInt8 → Bool
  | [] => true
  | c :: cs => clashes label (c :: cs) && absent label cs

theorem not_prefix_of_clashes {label text : List UInt8} (h : clashes label text = true)
    (rest : List UInt8) : label.isPrefixOf (text ++ rest) = false := by
  induction label generalizing text with
  | nil => cases h
  | cons a label ih =>
    cases text with
    | nil => cases h
    | cons b text =>
      rw [clashes, Bool.or_eq_true, decide_eq_true_eq] at h
      rw [List.cons_append, List.isPrefixOf]
      rcases h with hne | hrest
      · rw [beq_eq_false_iff_ne.mpr hne, Bool.false_and]
      · rw [ih hrest, Bool.and_false]

/-- A text without the label is passed over. -/
theorem after_append {label text : List UInt8} (h : absent label text = true) (rest : List UInt8) :
    after label (text ++ rest) = after label rest := by
  induction text with
  | nil => rfl
  | cons c text ih =>
    rw [absent, Bool.and_eq_true] at h
    have hnot := not_prefix_of_clashes h.1 rest
    rw [List.cons_append] at hnot
    rw [List.cons_append, after, hnot, if_neg (by decide), ih h.2]

theorem after_label {label : List UInt8} (h : label ≠ []) (rest : List UInt8) :
    after label (label ++ rest) = rest := by
  obtain ⟨c, label, rfl⟩ := List.exists_cons_of_ne_nil h
  have hprefix : (c :: label).isPrefixOf (c :: (label ++ rest)) = true := by
    rw [List.isPrefixOf_iff_prefix]
    exact List.prefix_append (c :: label) rest
  rw [List.cons_append, after, if_pos hprefix, ← List.cons_append, List.drop_left]

/-- A label that starts with another character than all of the text. -/
theorem absent_of_head {c : UInt8} {label text : List UInt8} (h : ∀ b ∈ text, c ≠ b) :
    absent (c :: label) text = true := by
  induction text with
  | nil => rfl
  | cons b text ih =>
    rw [absent, clashes, ih fun b' hb' => h b' (List.mem_cons_of_mem b hb'), Bool.and_true,
      decide_eq_true (h b List.mem_cons_self), Bool.true_or]

/-! ## Digits -/

/-- The digits of a number, of which none is an `R`. -/
theorem numeral_hex (n : Nat) : ∀ c ∈ numeral 16 n, isHexDigit c = true ∧ ascii 'R' ≠ c := by
  have hdigit : ∀ d : Fin 16, isHexDigit (digit d) = true ∧ ascii 'R' ≠ digit d := by decide
  induction n using Nat.base_induction 16 (by decide) with
  | single m hm =>
    rw [numeral_of_lt hm]
    intro c hc
    rw [List.mem_singleton.mp hc]
    exact hdigit ⟨m, hm⟩
  | digit m k hk hm ih =>
    rw [numeral_mul_add (by decide) hm hk]
    intro c hc
    rcases List.mem_append.mp hc with hc | hc
    · exact ih c hc
    · rw [List.mem_singleton.mp hc]
      exact hdigit ⟨k, hk⟩

/-- The value that is read behind a label. -/
theorem reported_line {label : String} (h : cstr label ≠ []) (v : UInt64) (rest : List UInt8) :
    reported label (line label v rest) = v.toNat % 2 ^ 32 := by
  have hdigits : (numeral 16 (v.toNat % 2 ^ 32) ++ ascii '\n' :: rest).takeWhile isHexDigit
      = numeral 16 (v.toNat % 2 ^ 32) := by
    rw [List.takeWhile_append_of_pos fun c hc => (numeral_hex _ c hc).1,
      List.takeWhile_cons_of_neg (by decide), List.append_nil]
  rw [reported, line, after_label h, hdigits, parseFrom_numeral (by decide) (by decide)]

/-- A label of a register is not in the line of another. -/
theorem reported_past {label other : String} (hlabel : (cstr label).head? = some (ascii 'R'))
    (hother : absent (cstr label) (cstr other) = true) (v : UInt64) (rest : List UInt8) :
    reported label (line other v rest) = reported label rest := by
  obtain ⟨tail, htail⟩ := List.head?_eq_some_iff.mp hlabel
  have hdigits : absent (cstr label) (numeral 16 (v.toNat % 2 ^ 32)) = true := by
    rw [htail]
    exact absent_of_head fun c hc => (numeral_hex _ c hc).2
  have hnewline : absent (cstr label) [ascii '\n'] = true := by
    rw [htail]
    exact absent_of_head (List.forall_mem_singleton.mpr (by decide))
  rw [reported, line, after_append hother, after_append hdigits,
    show ascii '\n' :: rest = [ascii '\n'] ++ rest from rfl, after_append hnewline]
  rfl

/-- One line after the other. -/
def lines : List (String × UInt64) → List UInt8
  | [] => []
  | p :: ps => line p.1 p.2 (lines ps)

/-- **Every line is found** by its label, behind the lines before it. -/
theorem reported_lines {ps : List (String × UInt64)}
    (hlabels : (ps.map Prod.fst).Pairwise fun other label =>
      (cstr label).head? = some (ascii 'R') ∧ absent (cstr label) (cstr other) = true)
    (hne : ∀ label ∈ ps.map Prod.fst, cstr label ≠ []) :
    ∀ p ∈ ps, reported p.1 (lines ps) = p.2.toNat % 2 ^ 32 := by
  induction ps with
  | nil => exact fun p hp => absurd hp List.not_mem_nil
  | cons q ps ih =>
    obtain ⟨hpast, htail⟩ := List.pairwise_cons.mp hlabels
    obtain ⟨hq, hne⟩ := List.forall_mem_cons.mp hne
    intro p hp
    rw [lines]
    rcases List.mem_cons.mp hp with rfl | hp
    · exact reported_line hq p.2 (lines ps)
    · obtain ⟨hhead, habsent⟩ := hpast p.1 (List.mem_map_of_mem hp)
      rw [reported_past hhead habsent, ih htail hne p hp]

/-- The first line up to the error code. -/
def opening (message : String) : List UInt8 := cstr "\nInterrupt! \"" ++ (cstr message ++ cstr "\" ")

/-- The lines of the report, the first from its error code on. -/
def reportLines (regs : InterruptRegisters) : List (String × UInt64) :=
  [("err: 0x", regs.errNo), ("RAX: 0x", regs.rax), ("RBX: 0x", regs.rbx), ("RCX: 0x", regs.rcx),
    ("RDX: 0x", regs.rdx), ("RIP: 0x", regs.rip)]

theorem reportText_eq (message : String) (regs : InterruptRegisters) :
    reportText message regs = opening message ++ lines (reportLines regs) := by
  have hlabel : cstr "\" err: 0x" = cstr "\" " ++ cstr "err: 0x" := by decide
  simp only [reportText, opening, lines, reportLines, line, hlabel, List.append_assoc]

/-- No label is in the first line before its place. -/
theorem opening_absent : ∀ message ∈ exceptionMessages,
    ∀ label ∈ ["err: 0x", "RAX: 0x", "RBX: 0x", "RCX: 0x", "RDX: 0x", "RIP: 0x"],
      absent (cstr label) (opening message) = true := by
  decide +kernel

/-- **What the report says** of each register is its low half. -/
theorem reported_text {message : String} (h : message ∈ exceptionMessages)
    (regs : InterruptRegisters) : ∀ p ∈ reportLines regs,
    reported p.1 (reportText message regs) = p.2.toNat % 2 ^ 32 := by
  have hlabels : (reportLines regs).map Prod.fst
      = ["err: 0x", "RAX: 0x", "RBX: 0x", "RCX: 0x", "RDX: 0x", "RIP: 0x"] := rfl
  intro p hp
  have hline : reported p.1 (lines (reportLines regs)) = p.2.toNat % 2 ^ 32 :=
    reported_lines (by rw [hlabels]; decide) (by rw [hlabels]; decide) p hp
  have hlabel := List.mem_map_of_mem (f := Prod.fst) hp
  rw [hlabels] at hlabel
  rw [← hline, reportText_eq, reported, after_append (opening_absent message h p.1 hlabel)]
  rfl

/-! ## The report -/

/-- What is reported of a frame. -/
def InterruptRegisters.reported (regs : InterruptRegisters) : List UInt64 :=
  [regs.errNo, regs.rax, regs.rbx, regs.rcx, regs.rdx, regs.rip]

/-- **Fault reports** are right exactly if the error code, the four registers
and the instruction pointer are all below `2 ^ 32`. -/
theorem isr_reports_iff (regs : InterruptRegisters) (h : regs.intNo < 32) :
    ∃ text, (∀ out, isrHandler regs out = .ok (regs, out ++ text)) ∧
      (Reports regs text ↔ ∀ v ∈ regs.reported, v.toNat < 2 ^ 32) := by
  obtain ⟨message, hmem, -, hprints⟩ := isrHandler_prints regs h
  have hline := reported_text hmem regs
  simp only [reportLines, List.forall_mem_cons, List.not_mem_nil, false_implies, implies_true,
    and_true] at hline
  obtain ⟨herr, hax, hbx, hcx, hdx, hip⟩ := hline
  have hlow : ∀ v : UInt64, v.toNat % 2 ^ 32 = v.toNat ↔ v.toNat < 2 ^ 32 := fun v =>
    Nat.mod_eq_iff_lt (by decide)
  refine ⟨reportText message regs, hprints, ?_⟩
  simp only [InterruptRegisters.reported, List.mem_cons, List.not_mem_nil, or_false,
    forall_eq_or_imp, forall_eq, ← hlow]
  constructor
  · rintro ⟨herr', hax', hbx', hcx', hdx', hip'⟩
    exact ⟨herr.symm.trans herr', hax.symm.trans hax', hbx.symm.trans hbx', hcx.symm.trans hcx',
      hdx.symm.trans hdx', hip.symm.trans hip'⟩
  · rintro ⟨herr', hax', hbx', hcx', hdx', hip'⟩
    exact ⟨herr.trans herr', hax.trans hax', hbx.trans hbx', hcx.trans hcx', hdx.trans hdx',
      hip.trans hip'⟩

/-- A breakpoint in the first 2 MiB, and one in the kernel. -/
def lowFrame : InterruptRegisters := ⟨4, 3, 2, 1, 3, 0, 0x200000, 0x08, 0x202, 0x1FFFF0, 0x10⟩

def kernelFrame : InterruptRegisters := { lowFrame with rip := 0xFFFFFFFFC0200000 }

theorem isr_reports_sample : ∃ text,
    (∀ out, isrHandler lowFrame out = .ok (lowFrame, out ++ text)) ∧ Reports lowFrame text := by
  obtain ⟨text, hprints, hiff⟩ := isr_reports_iff lowFrame (by decide)
  exact ⟨text, hprints, hiff.mpr (by simp [InterruptRegisters.reported, lowFrame])⟩

/-- **The defect**: the address of a breakpoint in the kernel loses its upper
half. -/
theorem isr_reports_low_half : ¬ ∀ (regs : InterruptRegisters) (text : List UInt8),
    regs.intNo < 32 → isrHandler regs [] = .ok (regs, text) → Reports regs text := by
  intro h
  obtain ⟨message, hmem, -, hprints⟩ := isrHandler_prints kernelFrame (by decide)
  have hip := (h kernelFrame _ (by decide) (hprints [])).rip
  have hline := reported_text hmem kernelFrame ("RIP: 0x", kernelFrame.rip)
    (by simp only [reportLines, List.mem_cons, true_or, or_true])
  rw [List.nil_append, hline] at hip
  revert hip
  decide

end Netclover.Kernel
