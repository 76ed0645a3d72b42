import Netclover.Lib.Blocks
import Netclover.Stdio.Format

/-!
# `vprintf.c` and `logger.c`

`vprintf` looks ahead in its format, takes an argument as the conversion says
and has `printf` print it under a format of its own. `vprintfPass_piece` says
that a pass over a piece is that piece's run, so that `vprintf` and `printf`
agree piece by piece.
-/

namespace Netclover.Stdio

open Numeral Proc

variable {t : Target}

/-- A string literal. -/
def cstr (s : String) : List UInt8 := s.toList.map ascii

/-! ## `vprintf` -/

/-- One of the five switches over the integer conversions. The argument is
taken by `va` and printed as `arg`, with `modifier` in the format. -/
def reprint (t : Target) {α : Type} (modifier : String)
    (va : List (Arg t) → Printing (α × List (Arg t))) (arg : α → Arg t) (c : UInt8)
    (args : List (Arg t)) : Printing (List (Arg t)) :=
  let print (spec : String) : Printing (List (Arg t)) := do
    let (value, args) ← va args
    let _ ← printf t (cstr "%" ++ (cstr modifier ++ cstr spec)) [arg value]
    return args
  if c = ascii 'd' ∨ c = ascii 'i' then print "d"
  else if c = ascii 'u' then print "u"
  else if c = ascii 'X' ∨ c = ascii 'x' ∨ c = ascii 'p' then print "p"
  else if c = ascii 'o' then print "o"
  else pure args

/-- Lines 18-28. -/
def vprintfInt (t : Target) : UInt8 → List (Arg t) → Printing (List (Arg t)) :=
  reprint t "" vaInt .int

/-- Lines 31-43. -/
def vprintfLongLong (t : Target) : UInt8 → List (Arg t) → Printing (List (Arg t)) :=
  reprint t "ll" vaLongLong .longLong

/-- Lines 46-58. -/
def vprintfLong (t : Target) : UInt8 → List (Arg t) → Printing (List (Arg t)) :=
  reprint t "l" vaLong .long

/-- Lines 63-75. -/
def vprintfShortShort (t : Target) : UInt8 → List (Arg t) → Printing (List (Arg t)) :=
  reprint t "hh" vaInt .int

/-- Lines 78-90. -/
def vprintfShort (t : Target) : UInt8 → List (Arg t) → Printing (List (Arg t)) :=
  reprint t "h" vaInt .int

/-- Lines 11-95: what follows a `%`, and how far `format` moves. -/
def vprintfDirective (t : Target) (format : List UInt8) (args : List (Arg t)) :
    Printing (Nat × List (Arg t)) := do
  let c := format.getD 1 0
  if c = ascii 'c' then
    let (value, args) ← vaInt args
    let _ ← printf t (cstr "%c") [.int value]
    return (2, args)
  else if c = ascii 's' then
    let (str, args) ← vaString args
    let _ ← printf t (cstr "%s") [.string str]
    return (2, args)
  else if c = ascii '%' then
    callPutc (ascii '%')
    return (2, args)
  else if c = ascii 'l' then
    if format.getD 2 0 = ascii 'l' then
      let args ← vprintfLongLong t (format.getD 3 0) args
      return (4, args)
    else
      let args ← vprintfLong t (format.getD 2 0) args
      return (3, args)
  else if c = ascii 'h' then
    if format.getD 2 0 = ascii 'h' then
      let args ← vprintfShortShort t (format.getD 3 0) args
      return (4, args)
    else
      let args ← vprintfShort t (format.getD 2 0) args
      return (3, args)
  else
    let args ← vprintfInt t c args
    return (2, args)

/-- One pass of the loop. Past the terminator of the format there is nothing
to read. -/
def vprintfPass (t : Target) (r : List UInt8 × List (Arg t)) :
    Printing ((List UInt8 × List (Arg t)) × Bool) :=
  let (format, args) := r
  let c := format.getD 0 0
  if c = 0 then pure ((format, args), false)
  else if c = ascii '%' ∧ format.getD 1 0 ≠ 0 then do
    let (n, args) ← vprintfDirective t format args
    if n ≤ format.length then return ((format.drop n, args), true)
    else Proc.halt .outOfBounds
  else do
    callPutc c
    return ((format.drop 1, args), true)

/-- `vprintf`. Each pass moves `format` on. -/
def vprintf (t : Target) (format : List UInt8) (args : List (Arg t)) : Printing (List (Arg t)) := do
  let r ← Proc.iterate .unfinished (vprintfPass t) (format.length + 1) (format, args)
  return r.2

/-! ## `log` -/

inductive LogLevel where
  | normal
  | warning
  | error
  | critical
  deriving DecidableEq, Repr

def LogLevel.text : LogLevel → String
  | .warning => "WARNING: "
  | .error => "ERROR: "
  | .critical => "CRITICAL: "
  | .normal => ""

/-- `for (int i = 0; i < 8; i++) putc(service[i]);`, from `i` on. -/
def putService (service : Block 8) : Nat → Nat → Printing Unit
  | 0, _ => pure ()
  | n + 1, i => do
    callPutc (service.bytes.getD i 0)
    putService service n (i + 1)

def log (t : Target) (level : LogLevel) (service : Block 8) (format : List UInt8)
    (args : List (Arg t)) : Printing Unit := do
  callPutc (ascii '[')
  putService service 8 0
  callPuts (cstr "] ")
  callPuts (cstr level.text)
  let _ ← vprintf t format args
  callPutc (ascii '\n')

/-- The formats that `log` is called with. -/
def logFormats : List String := [
  -- fat.c
  "Failed to read bootsector!",
  "Bad bootsector signature!",
  "Not enough memory to read FAT! (Required %u but only have %u)",
  "Failed to read FAT!",
  "Failed to read root!",
  "No more file handles!",
  "Open entry failed. Cluster=%u LBA=%u",
  "%s is not a directory",
  "Opening %s",
  "file \"%s\" not found",
  "Read error on take!",
  "Read error!",
  -- memdetect.c
  "Getting memory map...",
  "E820: base=0x%llx | length=0x%llx | type=0x%x",
  -- disk.c
  "Failed to init disk! Failed to get drive parameters. %s",
  "Disk geometry: \"C: %i | H: %i | S: %i\"",
  "Failed to reset disk!",
  "Failed to read disk! (%s)",
  "Exhausted all three attempts.",
  -- main.c
  "Venderid: %s",
  "Loading kernel...",
  "Initialized disk!",
  "Failed to initialize disk.",
  "Initialized FAT!",
  "Failed to initialize FAT."]

/-! ## A piece, once more -/

/-- The conversion `vprintf` rewrites a conversion to. -/
def Conversion.rewritten : Conversion → Conversion
  | .d | .i => .d
  | .u => .u
  | .X | .x | .p => .p
  | .o => .o

theorem Conversion.numeral_rewritten (conversion : Conversion) {w : Nat} (v : BitVec w) :
    conversion.rewritten.numeral v = conversion.numeral v := by
  cases conversion <;> rfl

/-- `printf` of one integer. -/
theorem printf_number (length : Length) (conversion : Conversion) (v : BitVec (length.bits t)) :
    printf t (ascii '%' :: (length.text ++ [conversion.char])) [length.arg v]
      = putAll (conversion.numeral v) >>= fun _ => pure [] := by
  have hpieces := printf_text (t := t) [.number length conversion] [length.arg v]
  rw [formatText, List.flatMap_singleton] at hpieces
  show printf t (Piece.number length conversion).text [length.arg v] = _
  rw [hpieces]
  cases length <;> rfl

/-- **A switch of `vprintf`** prints what `printf` prints under its own
conversion. -/
theorem reprint_char (length : Length) (conversion : Conversion) {modifier : String}
    (hmodifier : cstr modifier = length.text) (args : List (Arg t)) :
    reprint t modifier (vaNumber length) length.arg conversion.char args
      = (Piece.number length conversion).run args := by
  have hcase : reprint t modifier (vaNumber length) length.arg conversion.char args
      = vaNumber length args >>= fun r =>
        printf t (ascii '%' :: (cstr modifier ++ [conversion.rewritten.char])) [length.arg r.1]
          >>= fun _ => pure r.2 := by
    cases conversion <;> rfl
  rw [hcase, hmodifier]
  simp only [printf_number, Conversion.numeral_rewritten, bind_assoc, pure_bind]
  rfl

def Length.modifier : Length → String
  | .default => ""
  | .short => "h"
  | .shortShort => "hh"
  | .long => "l"
  | .longLong => "ll"

/-- **Lines 11-95** run the piece and find its end. -/
theorem vprintfDirective_piece {piece : Piece} (hpiece : ∀ c h, piece ≠ .literal c h)
    (format : List UInt8) (args : List (Arg t)) :
    vprintfDirective t (piece.text ++ format) args
      = piece.run args >>= fun args => pure (piece.text.length, args) := by
  cases piece with
  | literal c h => exact (hpiece c h rfl).elim
  | percent => rfl
  | char =>
    have hprint : ∀ v : BitVec 32, printf t (cstr "%c") [.int v]
        = putAll [⟨v.setWidth 8⟩] >>= fun _ => pure [] := by
      intro v
      exact printf_text (t := t) [.char] [.int v]
    show (vaInt args >>= fun r => printf t (cstr "%c") [.int r.1] >>= fun _ => pure (2, r.2)) = _
    simp only [hprint, Piece.run, bind_assoc, pure_bind]
    rfl
  | string =>
    have hprint : ∀ str : List UInt8, printf t (cstr "%s") [.string str]
        = callPuts str >>= fun _ => pure [] := by
      intro str
      have hpieces := printf_text (t := t) [.string] [.string str]
      rw [formatText, List.flatMap_singleton] at hpieces
      show printf t Piece.string.text [.string str] = _
      rw [hpieces]
      simp only [runPieces, bind_pure]
      rfl
    show (vaString args >>= fun r => printf t (cstr "%s") [.string r.1] >>= fun _ =>
      pure (2, r.2)) = _
    simp only [hprint, Piece.run, bind_assoc, pure_bind]
    rfl
  | number length conversion =>
    -- the format that is printed is put together again from the two parts
    have hmodifier : cstr length.modifier = length.text := by cases length <;> rfl
    rw [← reprint_char length conversion hmodifier]
    cases length <;> cases conversion <;> rfl

/-- A pass over a directive that is all there. -/
theorem vprintfPass_directive {tok tail : List UInt8} {c : UInt8}
    {f : List (Arg t) → Printing (List (Arg t))} (hc : c ≠ 0) (htok : tok = ascii '%' :: c :: tail)
    (hdirective : ∀ rest args, vprintfDirective t (tok ++ rest) args
      = f args >>= fun args => pure (tok.length, args)) (rest : List UInt8) (args : List (Arg t)) :
    vprintfPass t (tok ++ rest, args) = f args >>= fun args => pure ((rest, args), true) := by
  have hfirst : (tok ++ rest).getD 0 0 = ascii '%' := by rw [htok]; rfl
  have hsecond : (tok ++ rest).getD 1 0 = c := by rw [htok]; rfl
  simp only [vprintfPass]
  rw [if_neg (by rw [hfirst]; decide), if_pos (by rw [hfirst, hsecond]; exact ⟨rfl, hc⟩),
    hdirective, bind_assoc]
  congr 1
  funext args
  rw [pure_bind]
  dsimp only
  rw [if_pos (by rw [List.length_append]; omega), List.drop_left]

/-- **A pass of `vprintf`** over a piece is the piece's run. -/
theorem vprintfPass_piece (piece : Piece) (format : List UInt8) (args : List (Arg t)) :
    vprintfPass t (piece.text ++ format, args)
      = piece.run args >>= fun args => pure ((format, args), true) := by
  by_cases hliteral : ∃ c h, piece = .literal c h
  · obtain ⟨c, h, rfl⟩ := hliteral
    have hfirst : ((Piece.literal c h).text ++ format).getD 0 0 = c := rfl
    simp only [vprintfPass, hfirst]
    rw [if_neg h.1, if_neg (fun hc => h.2 hc.1)]
    rfl
  · have hdirective : ∀ rest args, vprintfDirective t (piece.text ++ rest) args
        = piece.run args >>= fun args => pure (piece.text.length, args) :=
      vprintfDirective_piece fun c h e => hliteral ⟨c, h, e⟩
    -- the look-ahead of two characters sees the `%` and what follows it
    have hstart : ∃ c tail, piece.text = ascii '%' :: c :: tail ∧ c ≠ 0 := by
      cases piece with
      | literal c h => exact (hliteral ⟨c, h, rfl⟩).elim
      | percent => exact ⟨_, _, rfl, by decide⟩
      | char => exact ⟨_, _, rfl, by decide⟩
      | string => exact ⟨_, _, rfl, by decide⟩
      | number length conversion =>
        cases length <;> cases conversion <;> exact ⟨_, _, rfl, by decide⟩
    obtain ⟨c, tail, htext, hc⟩ := hstart
    exact vprintfPass_directive hc htext hdirective format args

/-- The loop of `vprintf`, with a pass for each piece. -/
theorem vprintf_loop (pieces : List Piece) : ∀ (n : Nat) (args : List (Arg t)),
    pieces.length < n →
    iterate .unfinished (vprintfPass t) n (formatText pieces, args)
      = runPieces pieces args >>= fun args => pure ([], args) := by
  induction pieces with
  | nil =>
    intro n args hn
    obtain ⟨n, rfl⟩ : ∃ m, n = m + 1 := Nat.exists_eq_add_of_le' (Nat.zero_lt_of_lt hn)
    rfl
  | cons piece pieces ih =>
    intro n args hn
    obtain ⟨n, rfl⟩ : ∃ m, n = m + 1 := Nat.exists_eq_add_of_le' (Nat.zero_lt_of_lt hn)
    have hn' : pieces.length < n := by
      simp only [List.length_cons] at hn
      omega
    have hpass := vprintfPass_piece (t := t) piece (formatText pieces) args
    rw [iterate_succ, formatText, List.flatMap_cons, ← formatText, hpass, bind_assoc, runPieces,
      bind_assoc]
    congr 1
    funext args
    rw [pure_bind]
    dsimp only
    rw [if_pos rfl, ih n args hn']

theorem length_formatText (pieces : List Piece) : pieces.length ≤ (formatText pieces).length := by
  induction pieces with
  | nil => exact Nat.le_refl 0
  | cons piece pieces ih =>
    have hpos : 0 < piece.text.length := by
      cases piece <;> exact Nat.succ_pos _
    rw [formatText, List.flatMap_cons, List.length_append, List.length_cons, ← formatText]
    omega

theorem vprintf_text (pieces : List Piece) (args : List (Arg t)) :
    vprintf t (formatText pieces) args = runPieces pieces args := by
  have hlength := length_formatText pieces
  rw [vprintf, vprintf_loop pieces _ args (by omega), bind_assoc]
  simp only [pure_bind, bind_pure]

/-! ## The formats of `log` -/

/-- The directives: every piece but the literals. -/
def directives : List Piece :=
  let lengths : List Length := [.default, .short, .shortShort, .long, .longLong]
  let conversions : List Conversion := [.d, .i, .u, .X, .x, .p, .o]
  [.percent, .char, .string] ++
    lengths.flatMap fun length => conversions.map fun conversion => .number length conversion

/-- The pieces of a format, if it has any, in `n` steps. -/
def scan : Nat → List UInt8 → Option (List Piece)
  | _, [] => some []
  | 0, _ :: _ => none
  | n + 1, c :: cs =>
    if h : c ≠ 0 ∧ c ≠ ascii '%' then (scan n cs).map (.literal c h :: ·)
    else
      match directives.find? fun piece => piece.text.isPrefixOf (c :: cs) with
      | none => none
      | some piece => (scan n ((c :: cs).drop piece.text.length)).map (piece :: ·)

/-- What has been scanned is the format. -/
theorem formatText_scan : ∀ {n : Nat} {cs : List UInt8} {pieces : List Piece},
    scan n cs = some pieces → formatText pieces = cs := by
  intro n
  induction n with
  | zero =>
    intro cs pieces h
    cases cs with
    | nil =>
      cases h
      rfl
    | cons c cs => cases h
  | succ n ih =>
    intro cs pieces h
    cases cs with
    | nil =>
      cases h
      rfl
    | cons c cs =>
      rw [scan] at h
      split at h
      · rename_i hliteral
        obtain ⟨rest, hrest, rfl⟩ := Option.map_eq_some_iff.mp h
        rw [formatText, List.flatMap_cons, ← formatText, ih hrest]
        rfl
      · split at h
        · cases h
        · rename_i piece hfind
          obtain ⟨rest, hrest, rfl⟩ := Option.map_eq_some_iff.mp h
          have hprefix := List.find?_some hfind
          rw [List.isPrefixOf_iff_prefix, List.prefix_iff_eq_append] at hprefix
          rw [formatText, List.flatMap_cons, ← formatText, ih hrest, hprefix]

/-- **`vprintf` agrees with `printf`** on every format made of pieces, whatever
the arguments: the same characters go to `putc`, the same arguments are taken
and left, and where one does not return neither does the other. Every format
`log` is called with is made of pieces. -/
theorem vprintf_agrees_with_printf (t : Target) :
    (∀ (pieces : List Piece) (args : List (Arg t)),
      vprintf t (formatText pieces) args = printf t (formatText pieces) args) ∧
    ∀ format ∈ logFormats, ∃ pieces, cstr format = formatText pieces := by
  constructor
  · intro pieces args
    rw [vprintf_text, printf_text]
  · have hscan : logFormats.all (fun format =>
        (scan (cstr format).length (cstr format)).isSome) = true := by decide +kernel
    intro format hformat
    have hsome := List.all_eq_true.mp hscan format hformat
    obtain ⟨pieces, hpieces⟩ := Option.isSome_iff_exists.mp hsome
    exact ⟨pieces, (formatText_scan hpieces).symm⟩

end Netclover.Stdio
