import Netclover.Stdio.Vprintf

/-!
# Formats that end inside a conversion (`libc/stdio/vprintf.c`)

`vprintf` looks ahead up to three characters, which never leads past the
terminator. But for a length modifier it moves on by a character that it has
not looked at: where the format ends behind the modifier, that is the
terminator, and the loop goes on behind it (`vprintf_inside_iff`).
-/

namespace Netclover.Stdio

open Numeral Proc

variable {t : Target}

/-! ## Looking ahead -/

/-- The characters of `format` that a pass looks at. -/
def vprintfReads (format : List UInt8) : List Nat :=
  if format.getD 0 0 = ascii '%' then
    if format.getD 1 0 = ascii 'l' ∨ format.getD 1 0 = ascii 'h' then
      [0, 1, 2] ++ if format.getD 2 0 = format.getD 1 0 then [3] else []
    else [0, 1]
  else [0]

/-- **The look-ahead** stops at the terminator. -/
theorem vprintfReads_le (format : List UInt8) : ∀ i ∈ vprintfReads format, i ≤ format.length := by
  have hin : ∀ {k : Nat} {c : UInt8}, format.getD k 0 = c → c ≠ 0 → k < format.length := by
    intro k c hk hc
    by_contra hge
    rw [List.getD_eq_default _ _ (by omega)] at hk
    exact hc hk.symm
  intro i hi
  rw [vprintfReads] at hi
  split at hi
  · rename_i hfirst
    have h₀ := hin hfirst (by decide)
    split at hi
    · rename_i hsecond
      have hne : format.getD 1 0 ≠ 0 := by rcases hsecond with h | h <;> rw [h] <;> decide
      have h₁ := hin rfl hne
      split at hi
      · rename_i hthird
        have h₂ := hin hthird hne
        simp only [List.cons_append, List.nil_append, List.mem_cons, List.not_mem_nil,
          or_false] at hi
        omega
      · simp only [List.append_nil, List.mem_cons, List.not_mem_nil, or_false] at hi
        omega
    · simp only [List.mem_cons, List.not_mem_nil, or_false] at hi
      omega
  · simp only [List.mem_cons, List.not_mem_nil, or_false] at hi
    omega

/-! ## Formats -/

/-- What a pass moves over: a character, or a conversion that is all there,
known or not. -/
inductive Token : List UInt8 → Prop
  | char {c : UInt8} (hzero : c ≠ 0) (hpercent : c ≠ ascii '%') : Token [c]
  | plain {c : UInt8} (hzero : c ≠ 0) (hl : c ≠ ascii 'l') (hh : c ≠ ascii 'h') :
      Token [ascii '%', c]
  | single {m c : UInt8} (hm : m = ascii 'l' ∨ m = ascii 'h') (hzero : c ≠ 0) (hc : c ≠ m) :
      Token [ascii '%', m, c]
  | double {m c : UInt8} (hm : m = ascii 'l' ∨ m = ascii 'h') (hzero : c ≠ 0) :
      Token [ascii '%', m, m, c]

/-- A conversion that lacks its last character. -/
def CutConversion (format : List UInt8) : Prop :=
  ∃ m : UInt8, (m = ascii 'l' ∨ m = ascii 'h') ∧
    (format = [ascii '%', m] ∨ format = [ascii '%', m, m])

/-- The format ends behind a token, or with a lone `%`. -/
inductive Whole : List UInt8 → Prop
  | nil : Whole []
  | percent : Whole [ascii '%']
  | token {tok format : List UInt8} : Token tok → Whole format → Whole (tok ++ format)

/-- Behind some tokens the format ends inside a conversion. -/
inductive EndsCut : List UInt8 → Prop
  | cut {format : List UInt8} : CutConversion format → EndsCut format
  | token {tok format : List UInt8} : Token tok → EndsCut format → EndsCut (tok ++ format)

theorem Token.length_pos {tok : List UInt8} (h : Token tok) : 0 < tok.length := by
  cases h <;> exact Nat.succ_pos _

/-- The first token, unless the format ends first. -/
theorem first_token {format : List UInt8} (hzero : (0 : UInt8) ∉ format) :
    format = [] ∨ format = [ascii '%'] ∨ CutConversion format ∨
      ∃ tok rest, Token tok ∧ format = tok ++ rest := by
  rcases format with _ | ⟨c, format⟩
  · exact .inl rfl
  have hc : c ≠ 0 := fun e => hzero (by rw [e]; exact List.mem_cons_self)
  by_cases hpercent : c ≠ ascii '%'
  · exact .inr (.inr (.inr ⟨[c], format, .char hc hpercent, rfl⟩))
  obtain rfl := not_not.mp hpercent
  rcases format with _ | ⟨m, format⟩
  · exact .inr (.inl rfl)
  have hm₀ : m ≠ 0 := fun e => hzero (by rw [e]; simp)
  by_cases hm : m = ascii 'l' ∨ m = ascii 'h'
  · rcases format with _ | ⟨c, format⟩
    · exact .inr (.inr (.inl ⟨m, hm, .inl rfl⟩))
    have hc₀ : c ≠ 0 := fun e => hzero (by rw [e]; simp)
    by_cases hsame : c = m
    · subst hsame
      rcases format with _ | ⟨d, format⟩
      · exact .inr (.inr (.inl ⟨c, hm, .inr rfl⟩))
      have hd₀ : d ≠ 0 := fun e => hzero (by rw [e]; simp)
      exact .inr (.inr (.inr ⟨[ascii '%', c, c, d], format, .double hm hd₀, rfl⟩))
    · exact .inr (.inr (.inr ⟨[ascii '%', m, c], format, .single hm hc₀ hsame, rfl⟩))
  · rw [not_or] at hm
    exact .inr (.inr (.inr ⟨[ascii '%', m], format, .plain hm₀ hm.1 hm.2, rfl⟩))

theorem whole_or_endsCut : ∀ (n : Nat) {format : List UInt8}, format.length ≤ n →
    (0 : UInt8) ∉ format → Whole format ∨ EndsCut format := by
  intro n
  induction n with
  | zero =>
    intro format hn _
    rw [List.length_eq_zero_iff.mp (Nat.le_zero.mp hn)]
    exact .inl .nil
  | succ n ih =>
    intro format hn hzero
    rcases first_token hzero with rfl | rfl | hcut | ⟨tok, rest, htok, rfl⟩
    · exact .inl .nil
    · exact .inl .percent
    · exact .inr (.cut hcut)
    · have hpos := htok.length_pos
      rw [List.length_append] at hn
      rw [List.mem_append, not_or] at hzero
      exact (ih (by omega) hzero.2).imp (.token htok) (.token htok)

/-! ## One pass -/

/-- What a pass does with the arguments: nothing but a missing or wrong one
stops it, and there are arguments that do not. -/
structure Consumes (f : List (Arg t) → Printing (List (Arg t))) : Prop where
  halts : ∀ args, Ensures (fun _ => False) (· = Stop.badArgument) (f args) fun _ => True
  takes : ∃ given, ∀ args out, ∃ out', f (given ++ args) out = .ok (args, out')

theorem Consumes.pure : Consumes (pure : List (Arg t) → Printing (List (Arg t))) :=
  ⟨fun _ => Ensures.pure trivial, [], fun _ out => ⟨out, rfl⟩⟩

/-- Text is printed. -/
theorem Consumes.text (cs : List UInt8) : Consumes (t := t) fun args => do
    putAll cs
    return args := by
  refine ⟨fun args => ?_, [], fun args out => ⟨_, rfl⟩⟩
  have hput : Ensures (fun _ => False) (· = Stop.badArgument) (putAll cs) fun _ => True :=
    Ensures.act fun _ _ => trivial
  exact Ensures.bind hput (fun _ _ h => h) fun _ _ => Ensures.pure trivial

/-- An argument is taken and printed. -/
theorem Consumes.print {α : Type} (given : List (Arg t)) (value : α)
    {take : List (Arg t) → Printing (α × List (Arg t))}
    (hhalts : ∀ args, Ensures (fun _ => False) (· = Stop.badArgument) (take args) fun _ => True)
    (hgiven : ∀ args, take (given ++ args) = Pure.pure (value, args)) (text : α → List UInt8) :
    Consumes (t := t) fun args => take args >>= fun r => do
      putAll (text r.1)
      return r.2 := by
  refine ⟨fun args => ?_, given, fun args out => ⟨out ++ text value, ?_⟩⟩
  · exact Ensures.bind (hhalts args) (fun _ _ h => h) fun r _ =>
      (Consumes.text (text r.1)).halts r.2
  · rw [hgiven, pure_bind]
    rfl

theorem vaString_halts (args : List (Arg t)) :
    Ensures (fun _ => False) (· = Stop.badArgument) (vaString args) fun _ => True := by
  rcases args with _ | ⟨_ | _ | _ | _, args⟩ <;>
    first | exact Ensures.pure trivial | exact Ensures.halt rfl

theorem vaNumber_halts (length : Length) (args : List (Arg t)) :
    Ensures (fun _ => False) (· = Stop.badArgument) (vaNumber length args) fun _ => True := by
  cases length <;> rcases args with _ | ⟨_ | _ | _ | _, args⟩ <;>
    first | exact Ensures.pure trivial | exact Ensures.halt rfl

theorem Consumes.piece (piece : Piece) : Consumes (t := t) piece.run := by
  cases piece with
  | literal c h => exact .text [c]
  | percent => exact .text [ascii '%']
  | char =>
    exact .print [.int 0] 0 (vaNumber_halts .default) (fun _ => rfl) fun value =>
      [⟨value.setWidth 8⟩]
  | string =>
    have hrun : (Piece.string.run : List (Arg t) → Printing (List (Arg t))) = fun args =>
        vaString args >>= fun r => do
          putAll (r.1.takeWhile (· ≠ 0))
          return r.2 := by
      funext args
      simp only [Piece.run, callPuts_eq]
    rw [hrun]
    exact .print [.string []] [] vaString_halts (fun _ => rfl) (·.takeWhile (· ≠ 0))
  | number length conversion =>
    refine .print [length.arg 0] 0 (vaNumber_halts length) (fun _ => ?_) conversion.numeral
    cases length <;> rfl

/-- A switch, on a conversion that is known or not. -/
theorem Consumes.reprint (length : Length) (modifier : String)
    (hmodifier : cstr modifier = length.text) (c : UInt8) :
    Consumes (t := t) (Stdio.reprint t modifier (vaNumber length) length.arg c) := by
  by_cases hknown : ∃ conversion : Conversion, c = conversion.char
  · obtain ⟨conversion, rfl⟩ := hknown
    have hrun : Stdio.reprint t modifier (vaNumber length) length.arg conversion.char
        = (Piece.number length conversion).run := by
      funext args
      exact reprint_char length conversion hmodifier args
    rw [hrun]
    exact .piece _
  · have hne : ∀ conversion : Conversion, c ≠ conversion.char := fun conversion e =>
      hknown ⟨conversion, e⟩
    have hdi : ¬ (c = ascii 'd' ∨ c = ascii 'i') := not_or.mpr ⟨hne .d, hne .i⟩
    have hu : c ≠ ascii 'u' := hne .u
    have hhex : ¬ (c = ascii 'X' ∨ c = ascii 'x' ∨ c = ascii 'p') :=
      not_or.mpr ⟨hne .X, not_or.mpr ⟨hne .x, hne .p⟩⟩
    have ho : c ≠ ascii 'o' := hne .o
    have hpure : Stdio.reprint t modifier (vaNumber length) length.arg c = Pure.pure := by
      funext args
      simp only [Stdio.reprint]
      rw [if_neg hdi, if_neg hu, if_neg hhex, if_neg ho]
    rw [hpure]
    exact .pure

/-- **A pass over a token** moves behind it. -/
theorem vprintfPass_token {tok : List UInt8} (h : Token tok) :
    ∃ f : List (Arg t) → Printing (List (Arg t)), Consumes f ∧ ∀ rest args,
      vprintfPass t (tok ++ rest, args) = f args >>= fun args => pure ((rest, args), true) := by
  cases h with
  | @char c hzero hpercent =>
    refine ⟨_, .piece (.literal c ⟨hzero, hpercent⟩), fun rest args => ?_⟩
    exact vprintfPass_piece (.literal c ⟨hzero, hpercent⟩) rest args
  | @plain c hzero hl hh =>
    by_cases hchar : c = ascii 'c'
    · subst hchar
      exact ⟨_, .piece .char, fun rest args => vprintfPass_piece .char rest args⟩
    by_cases hstring : c = ascii 's'
    · subst hstring
      exact ⟨_, .piece .string, fun rest args => vprintfPass_piece .string rest args⟩
    by_cases hpercent : c = ascii '%'
    · subst hpercent
      exact ⟨_, .piece .percent, fun rest args => vprintfPass_piece .percent rest args⟩
    refine ⟨_, .reprint .default "" rfl c, vprintfPass_directive hzero rfl fun rest args => ?_⟩
    have hsecond : ([ascii '%', c] ++ rest).getD 1 0 = c := rfl
    simp only [vprintfDirective, hsecond]
    rw [if_neg hchar, if_neg hstring, if_neg hpercent, if_neg hl, if_neg hh]
    rfl
  | @single m c hm hzero hc =>
    rcases hm with rfl | rfl
    · refine ⟨_, .reprint .long "l" rfl c,
        vprintfPass_directive (by decide) rfl fun rest args => ?_⟩
      have hthird : ([ascii '%', ascii 'l', c] ++ rest).getD 2 0 = c := rfl
      have hsecond : ([ascii '%', ascii 'l', c] ++ rest).getD 1 0 = ascii 'l' := rfl
      simp only [vprintfDirective, hsecond, hthird]
      rw [if_neg (by decide), if_neg (by decide), if_neg (by decide), if_pos trivial, if_neg hc]
      rfl
    · refine ⟨_, .reprint .short "h" rfl c,
        vprintfPass_directive (by decide) rfl fun rest args => ?_⟩
      have hthird : ([ascii '%', ascii 'h', c] ++ rest).getD 2 0 = c := rfl
      have hsecond : ([ascii '%', ascii 'h', c] ++ rest).getD 1 0 = ascii 'h' := rfl
      simp only [vprintfDirective, hsecond, hthird]
      rw [if_neg (by decide), if_neg (by decide), if_neg (by decide), if_neg (by decide),
        if_pos trivial, if_neg hc]
      rfl
  | @double m c hm hzero =>
    rcases hm with rfl | rfl
    · exact ⟨_, .reprint .longLong "ll" rfl c,
        vprintfPass_directive (by decide) rfl fun rest args => rfl⟩
    · exact ⟨_, .reprint .shortShort "hh" rfl c,
        vprintfPass_directive (by decide) rfl fun rest args => rfl⟩

/-! ## The loop -/

/-- The loop of `vprintf`. -/
def vprintfLoop (t : Target) (format : List UInt8) (args : List (Arg t)) :
    Printing (List UInt8 × List (Arg t)) :=
  iterate .unfinished (vprintfPass t) (format.length + 1) (format, args)

theorem vprintf_eq (format : List UInt8) (args : List (Arg t)) :
    vprintf t format args = vprintfLoop t format args >>= fun r => pure r.2 := rfl

/-- `vprintf` looks at no character behind the terminator, and its loop ends
there, unless an argument is missing or of another type. -/
structure StaysInside (t : Target) (format : List UInt8) (args : List (Arg t)) : Prop where
  reads : ∀ out rest args' out', Visits (vprintfPass t) (format, args) out (rest, args') out' →
    rest <:+ format ∧ ∀ i ∈ vprintfReads rest, i ≤ rest.length
  ends : ∀ out, (∃ args' out', vprintfLoop t format args out = .ok (([], args'), out')) ∨
    ∃ out', vprintfLoop t format args out = .error (.badArgument, out')

/-- A pass that goes on leaves a shorter format. -/
theorem vprintfPass_suffix {format rest : List UInt8} {args args' : List (Arg t)}
    {out out' : List UInt8}
    (h : vprintfPass t (format, args) out = .ok (((rest, args'), true), out')) : rest <:+ format := by
  simp only [vprintfPass] at h
  split at h
  · cases h
  · split at h
    · obtain ⟨⟨n, args₁⟩, out₁, -, hrest⟩ := of_bind_ok h
      dsimp only at hrest
      split at hrest
      · cases hrest
        exact List.drop_suffix n format
      · cases hrest
    · obtain ⟨_, out₁, -, hrest⟩ := of_bind_ok h
      cases hrest
      exact List.drop_suffix 1 format

/-- **A format that is all there** is left at its end. -/
theorem Whole.ends {format : List UInt8} (h : Whole format) (args : List (Arg t)) :
    Ensures (fun _ => False) (· = Stop.badArgument) (vprintfLoop t format args)
      fun r => r.1 = [] := by
  refine Ensures.iterate (I := fun r => Whole r.1) (fun r => r.1.length)
    (fun _ _ hfalse => hfalse) ?_ _ _ h (.inl (Nat.lt_succ_self _))
  rintro ⟨format, args⟩ hwhole
  cases hwhole with
  | nil => exact Ensures.pure rfl
  | percent => exact fun _ _ => ⟨.nil, Nat.zero_lt_one⟩
  | @token tok rest htok hrest =>
    obtain ⟨f, hf, hpass⟩ := vprintfPass_token (t := t) htok
    have hpos := htok.length_pos
    change Ensures _ _ (vprintfPass t (tok ++ rest, args)) _
    rw [hpass]
    refine Ensures.bind (hf.halts args) (fun _ _ hfalse => hfalse) fun args' _ => Ensures.pure ?_
    dsimp only
    rw [if_pos rfl]
    refine ⟨hrest, ?_⟩
    show rest.length < (tok ++ rest).length
    rw [List.length_append]
    omega

/-- **A format that is cut off** is overrun, for some arguments. -/
theorem EndsCut.overruns {format : List UInt8} (h : EndsCut format) : ∀ n, format.length < n →
    ∃ args : List (Arg t), ∀ out, ∃ out',
      iterate .unfinished (vprintfPass t) n (format, args) out = .error (.outOfBounds, out') := by
  induction h with
  | @cut format hcut =>
    intro n hn
    obtain ⟨n, rfl⟩ : ∃ m, n = m + 1 := Nat.exists_eq_add_of_le' (Nat.zero_lt_of_lt hn)
    refine ⟨[], fun out => ⟨out, ?_⟩⟩
    rw [iterate_succ]
    refine bind_error ?_
    obtain ⟨m, rfl | rfl, rfl | rfl⟩ := hcut <;> rfl
  | @token tok rest htok _ ih =>
    intro n hn
    obtain ⟨n, rfl⟩ : ∃ m, n = m + 1 := Nat.exists_eq_add_of_le' (Nat.zero_lt_of_lt hn)
    have hpos := htok.length_pos
    rw [List.length_append] at hn
    obtain ⟨args, hargs⟩ := ih n (by omega)
    obtain ⟨f, hf, hpass⟩ := vprintfPass_token (t := t) htok
    obtain ⟨given, hgiven⟩ := hf.takes
    refine ⟨given ++ args, fun out => ?_⟩
    obtain ⟨out₁, hout₁⟩ := hgiven args out
    obtain ⟨out₂, hout₂⟩ := hargs out₁
    refine ⟨out₂, ?_⟩
    rw [iterate_succ, hpass, bind_assoc, bind_ok hout₁, pure_bind]
    exact hout₂

/-- No format is both. -/
theorem Whole.not_endsCut {format : List UInt8} (h : Whole format) : ¬ EndsCut format := by
  intro hcut
  obtain ⟨args, hargs⟩ := hcut.overruns (t := .i686) _ (Nat.lt_succ_self _)
  obtain ⟨out', hout'⟩ := hargs []
  have hbad := (h.ends (t := .i686) args).of_error hout' id
  cases hbad

/-- **The end of the format**: whatever the arguments, `vprintf` stays inside
its format, exactly if that does not end in a conversion that is cut off
behind its length. -/
theorem vprintf_inside_iff (t : Target) {format : List UInt8} (h : (0 : UInt8) ∉ format) :
    (∀ args, StaysInside t format args) ↔ ¬ EndsCut format := by
  constructor
  · intro hinside hcut
    obtain ⟨args, hargs⟩ := hcut.overruns (t := t) _ (Nat.lt_succ_self _)
    obtain ⟨out', hout'⟩ := hargs []
    rcases (hinside args).ends [] with ⟨args', out₁, hok⟩ | ⟨out₁, hbad⟩
    · rw [vprintfLoop, hout'] at hok
      cases hok
    · rw [vprintfLoop, hout'] at hbad
      cases hbad
  · intro hcut args
    have hwhole := (whole_or_endsCut _ (Nat.le_refl _) h).resolve_right hcut
    refine ⟨fun out rest args' out' hvisit => ?_, fun out => ?_⟩
    · refine ⟨?_, vprintfReads_le rest⟩
      exact hvisit.invariant (I := fun r => r.1 <:+ format) (List.suffix_refl format)
        fun a b s s' ha hpass => (vprintfPass_suffix hpass).trans ha
    · have hends := hwhole.ends args
      cases hrun : vprintfLoop t format args out with
      | ok r =>
        have hnil := hends.of_ok hrun id
        obtain ⟨⟨rest, args'⟩, out'⟩ := r
        dsimp only at hnil
        rw [hnil]
        exact .inl ⟨args', out', rfl⟩
      | error e =>
        have hbad := hends.of_error hrun id
        obtain ⟨e, out'⟩ := e
        dsimp only at hbad
        rw [hbad]
        exact .inr ⟨out', rfl⟩

/-- A format may end with a lone `%`. -/
theorem vprintf_inside_sample : StaysInside .i686 [ascii '%', ascii 'u', ascii '%'] [.int 7] := by
  have hwhole : Whole ([ascii '%', ascii 'u'] ++ [ascii '%']) :=
    .token (.plain (by decide) (by decide) (by decide)) .percent
  exact (vprintf_inside_iff .i686 (by decide)).mpr hwhole.not_endsCut _

/-- **The defect**: `%l` at the end of the format. -/
theorem vprintf_overruns : ¬ ∀ (t : Target) (format : List UInt8) (args : List (Arg t)),
    (0 : UInt8) ∉ format → StaysInside t format args := by
  intro h
  have hends := (h .i686 [ascii '%', ascii 'l'] [] (by decide)).ends []
  rcases hends with ⟨args', out', hok⟩ | ⟨out', hbad⟩
  · cases hok
  · cases hbad

end Netclover.Stdio
