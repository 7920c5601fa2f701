import PrintLang.Proofs.Diagnostic.Context
import PrintLang.Proofs.Program.Viable
import PrintLang.Proofs.Token.Kinds

set_option autoImplicit false

namespace PrintLang

theorem isVisible_of_isLetter : ∀ b : UInt8, Lexer.isLetter b = true → isVisible b = true := by
  decide +kernel

theorem isVisible_of_isDigit : ∀ b : UInt8, Lexer.isDigit b = true → isVisible b = true := by
  decide +kernel

theorem Lexer.Munch.exists_visible {text : Bytes} {next : Option UInt8} {kind : TokenKind}
    (h : Munch text next kind none) : ∃ b w, text = b :: w ∧ isVisible b = true := by
  have symbol : ∀ x ∈ symbols, isVisible x.1 = true := by decide
  have comparison : ∀ x ∈ comparisons, isVisible x.1 = true := by decide
  cases h with
  | comment | string | multiLine | char => exact ⟨_, _, rfl, rfl⟩
  | word first => exact ⟨_, _, rfl, isVisible_of_isLetter _ first⟩
  | integer first => exact ⟨_, _, rfl, isVisible_of_isDigit _ first⟩
  | long first => exact ⟨_, _, rfl, isVisible_of_isDigit _ first⟩
  | symbol known => exact ⟨_, _, rfl, symbol _ known⟩
  | short known => exact ⟨_, _, rfl, comparison _ known⟩
  | extended known => exact ⟨_, _, rfl, comparison _ known⟩

theorem lex_exists_visible (source : Bytes) : ∀ t ∈ (lex source).stream.tokens, t.kind ≠ .eof →
    t.kind ≠ .invalid → ∃ b w, t.text source = b :: w ∧ isVisible b = true := by
  refine (lex_forall_mem source).mpr ?_
  intro l mem inside valid
  obtain ⟨eof, -⟩ | ⟨munch, -⟩ := Lexer.lexemes_munch source l mem
  · exact absurd eof inside
  · cases defect : l.defect with
    | none =>
      rw [defect] at munch
      exact munch.exists_visible
    | some d =>
      rw [defect] at munch
      exact absurd munch.kind_of_defect valid

theorem TokenKind.newline_not_mem_name (k : TokenKind) : 10 ∉ k.name := by
  cases k with
  | other c =>
    simp only [name, List.mem_append, not_or]
    exact ⟨⟨by decide, newline_not_mem_decimal c⟩, by decide⟩
  | _ => decide

theorem TypeKind.newline_not_mem_name (k : TypeKind) : 10 ∉ k.name := by
  cases k with
  | other c =>
    simp only [name, List.mem_append, not_or]
    exact ⟨⟨by decide, newline_not_mem_decimal c⟩, by decide⟩
  | _ => decide

namespace ParseError
variable {e : ParseError}

theorem newline_not_mem_text (detail : 10 ∉ e.detail) : 10 ∉ e.text := by
  have got := e.got.newline_not_mem_name
  have names : ∀ name ∈ e.expected.map TokenKind.name, 10 ∉ name :=
    List.forall_mem_map.mpr fun k _ => k.newline_not_mem_name
  unfold text
  split
  · exact detail
  · split
    · rw [List.mem_append, not_or]
      exact ⟨by decide, got⟩
    · next k _ =>
      simp only [List.mem_append, not_or]
      exact ⟨⟨⟨by decide, k.newline_not_mem_name⟩, by decide⟩, got⟩
    · simp only [List.mem_append, not_or]
      exact ⟨⟨⟨by decide, Bytes.not_mem_join (by decide) names⟩,
        by decide⟩, got⟩

theorem newline_not_mem_caretLine (e : ParseError) : 10 ∉ e.caretLine := by
  rw [caretLine, List.mem_append, not_or]
  exact ⟨fun mem => absurd (List.eq_of_mem_replicate mem) (by decide),
    fun mem => absurd (List.eq_of_mem_replicate mem) (by decide)⟩

def header (e : ParseError) : Bytes :=
  e.file ++ bytes ":" ++ e.loc.render ++ bytes ":" ++ bytes " " ++ bytes "error:" ++ bytes " " ++
    e.text

theorem render_plain (e : ParseError) :
    e.render false = Bytes.lines [e.header, e.context, e.caretLine] := by
  simp [render, header, Paint.apply, Bytes.lines]

theorem newline_not_mem_header (file : 10 ∉ e.file) (detail : 10 ∉ e.detail) : 10 ∉ e.header := by
  simp only [header, List.mem_append, not_or]
  refine ⟨⟨⟨⟨⟨⟨⟨file, ?_⟩, e.loc.newline_not_mem_render⟩, ?_⟩, ?_⟩, ?_⟩, ?_⟩,
    newline_not_mem_text detail⟩ <;> decide

/-- The context is a piece of the line of the diagnostic, and the token stands at the caret. -/
def PointsAt (e : ParseError) (source : Bytes) (t : Token) : Prop :=
  ∃ (n : Nat) (line before shown after : Bytes),
    e.loc.line = n + 1 ∧ (Bytes.splitOn 10 source)[n]? = some line ∧
    line = before ++ (shown ++ after) ∧ (before.length : Int) + 1 = e.loc.column - e.caret ∧
    e.context = TokenStream.blankControls shown ∧
    TokenStream.blankControls (t.firstLine source) <+: e.context.drop e.caret.toNat

/-- The context is the line on which a token ends, and the caret stands behind it. -/
def PointsBehind (e : ParseError) (source : Bytes) (t : Token) : Prop :=
  ∃ (n : Nat) (line : Bytes), (Location.ofOffset source t.stop).line = n + 1 ∧
    (Bytes.splitOn 10 source)[n]? = some line ∧
    e.context = TokenStream.blankControls (TokenStream.trimmed line) ∧ e.caret = e.context.length

end ParseError

section Refused
variable {file source : Bytes} {e : ParseError}

structure ParseError.About (e : ParseError) (file source : Bytes) (i : Nat) (t : Token) : Prop where
  found : (lex source).stream.tokens[i]? = some t
  file : e.file = file
  loc : e.loc = t.loc
  mark : e.mark = t.mark
  got : e.got = t.kind
  context : e.context = ((lex source).stream.context i t).1
  caret : e.caret = ((lex source).stream.context i t).2
  detail : 10 ∉ e.detail

theorem exists_about (h : parse file (lex source).stream = .error e) :
    ∃ i t, e.About file source i t := by
  rw [parse] at h
  split at h
  · cases h
  · next rejection read =>
    cases h
    obtain ⟨front, ⟨t, i⟩, rest, q, split, -, refuses⟩ :=
      Parser.stops_of_error (lex_significant_literalText source) read
    have mem : (t, i) ∈ (lex source).stream.significant := by
      rw [split]
      exact List.mem_append_right front List.mem_cons_self
    have found := (TokenStream.mem_significant.mp mem).1
    refine ⟨i, t, ?_⟩
    cases refuses with
    | unexpected =>
      rw [TokenStream.rejected, TokenStream.parseError_eq found]
      exact ⟨found, rfl, rfl, rfl, rfl, rfl, rfl, List.not_mem_nil⟩
    | @tooLarge _ _ _ type integer =>
      rw [TokenStream.rejected, TokenStream.parseError_eq found]
      refine ⟨found, rfl, rfl, rfl, rfl, rfl, rfl, ?_⟩
      have number : 10 ∉ t.text source := by
        have form := lex_literalText source t (Array.mem_of_getElem? found)
        rw [integer] at form
        obtain ⟨ds, -, digits, same⟩ := form
        have absent := not_mem_of_all digits (b := 10) (by decide)
        rcases same with same | same <;> simp [same, absent]
      rw [TokenStream.text_eq found]
      simp only [List.mem_append, not_or]
      exact ⟨⟨⟨by decide, number⟩, by decide⟩, type.newline_not_mem_name⟩

namespace ParseError.About
variable {i : Nat} {t : Token}

theorem shown_visible (h : e.About file source i t) (valid : (lex source).invalid = [])
    (inside : t.kind ≠ .eof) : Bytes.isBlank ((lex source).stream.shown i t) = false := by
  have mem := Array.mem_of_getElem? h.found
  have bounds := lex_bounds source t mem
  obtain ⟨front, left, right, back, cut⟩ :=
    Bytes.exists_cut (s := (lex source).stream.source) (bounds.1.trans bounds.2)
  obtain ⟨l₁, l₂, r₁, r₂, -, -, shown, -, part⟩ := (TokenStream.lex_frames h.found).exists_split cut
  obtain ⟨b, w, text, visible⟩ :=
    lex_exists_visible source t mem inside ((lex_invalid_eq_nil source).mp valid t mem)
  have first : b ∈ t.firstLine source := by
    have other : (b != 10) = true := by
      rw [bne_iff_ne]
      rintro rfl
      exact absurd visible (by decide)
    rw [Token.firstLine, text, List.takeWhile_cons, if_pos other]
    exact List.mem_cons_self
  rw [shown]
  exact Bytes.isBlank_of_visible visible (List.mem_append_right l₂ (part.subset first))

theorem pointsAt (h : e.About file source i t) (valid : (lex source).invalid = [])
    (inside : t.kind ≠ .eof) : e.PointsAt source t := by
  have mem := Array.mem_of_getElem? h.found
  have bounds := lex_bounds source t mem
  obtain ⟨front, left, right, back, cut⟩ :=
    Bytes.exists_cut (s := (lex source).stream.source) (bounds.1.trans bounds.2)
  obtain ⟨l₁, l₂, r₁, r₂, rfl, rfl, shown, caret, part⟩ :=
    (TokenStream.lex_frames h.found).exists_split cut
  have context := TokenStream.context_of_shown (.inr (h.shown_visible valid inside))
  rw [shown, caret] at context
  have loc : e.loc = ⟨1 + (source.take t.start).count 10, 1 + (l₁ ++ l₂).length⟩ :=
    h.loc.trans ((lex_located source t mem).trans cut.loc)
  have caretAt : e.caret = l₂.length := by rw [h.caret, context]
  refine ⟨(source.take t.start).count 10, _, l₁, l₂ ++ r₁, r₂, ?_, cut.line, ?_, ?_, ?_, ?_⟩
  · rw [loc]
    exact Int.add_comm ..
  · simp only [List.append_assoc]
  · rw [loc, caretAt, List.length_append]
    push_cast
    omega
  · rw [h.context, context]
  · have behind : (TokenStream.blankControls (l₂ ++ r₁)).drop l₂.length =
        TokenStream.blankControls r₁ := by
      rw [TokenStream.blankControls, List.map_append, List.drop_left' (List.length_map _)]
      rfl
    rw [h.context, context, caretAt, Int.toNat_natCast, behind]
    exact part.map _

theorem pointsBehind {prev : Token} (h : e.About file source i t) (later : i ≠ 0)
    (before : (lex source).stream.tokens[i - 1]? = some prev)
    (blank : Bytes.isBlank ((lex source).stream.shown i t) = true) :
    e.PointsBehind source prev := by
  have bounds := lex_bounds source prev (Array.mem_of_getElem? before)
  have previous : (lex source).stream.previous? i = some prev := by
    rw [TokenStream.previous?, if_neg later, before]
  obtain ⟨line, found, trailing, -⟩ := (lex source).stream.trailingContext_eq bounds.1 bounds.2
  have context := (TokenStream.context_of_blank previous blank).trans trailing
  refine ⟨_, line, Int.add_comm .., found, ?_, ?_⟩
  · rw [h.context, context]
  · rw [h.caret, h.context, context, length_blankControls]

theorem caretLine_eq (h : e.About file source i t) (small : source.length ≤ Bytes.maxSize) :
    e.caretFault? = none ∧ e.caretLine =
      List.replicate e.caret.toNat 32 ++ List.replicate (e.mark.stop - e.mark.start).toNat 94 := by
  have bounds := lex_bounds source t (Array.mem_of_getElem? h.found)
  obtain ⟨-, caret, shown⟩ := TokenStream.lex_oneLine_context h.found
  have room : (source.length : Int) < 2 ^ 63 := by
    rw [Bytes.maxSize] at small
    omega
  have mark : e.mark.start = t.start ∧ e.mark.stop = t.stop := by
    rw [h.mark]
    exact ⟨rfl, rfl⟩
  have length : e.mark.length = e.mark.stop - e.mark.start := by
    rw [Mark.length, mark.1, mark.2]
    change Int.bmod _ (2 ^ 64) = _
    exact Int.bmod_eq_of_le_mul_two (by omega) (by omega)
  have drawable {n : Int} (low : 0 ≤ n) (high : n ≤ source.length) : undrawable? n = none := by
    rw [undrawable?, if_neg (by omega), if_neg (by omega)]
  constructor
  · rw [caretFault?, length, h.caret, mark.1, mark.2]
    rw [drawable (Int.natCast_nonneg _) (by exact_mod_cast caret.trans shown),
      drawable (by omega) (by omega)]
    rfl
  · rw [caretLine, length]

end ParseError.About

end Refused

/-- A syntax error shows one line of the source, with the carets under its token or, at the end of
input, behind the last token. No text is longer than `Bytes.maxSize`, so the carets can be drawn. -/
theorem syntax_error_points_at_token (source : Bytes) :
    (∀ i t, (lex source).stream.tokens[i]? = some t →
      (lex source).stream.SlicesFit i t ∧
      (lex source).stream.OneLine ((lex source).stream.context i t) ∧
      (lex source).stream.OneLine ((lex source).stream.trailingContext t)) ∧
    ∀ file e, parse file (lex source).stream = .error e → ∃ i t, e.About file source i t ∧
      ((lex source).invalid = [] → e.got ≠ .eof → e.PointsAt source t) ∧
      (∀ prev, e.got = .eof → i ≠ 0 → (lex source).stream.tokens[i - 1]? = some prev →
        Bytes.isBlank ((lex source).stream.shown i t) = true → e.PointsBehind source prev) ∧
      (source.length ≤ Bytes.maxSize → e.caretFault? = none ∧ e.caretLine =
        List.replicate e.caret.toNat 32 ++ List.replicate (e.mark.stop - e.mark.start).toNat 94) ∧
      (10 ∉ file → ∃ header, 10 ∉ header ∧ 10 ∉ e.context ∧ 10 ∉ e.caretLine ∧
        e.render false = Bytes.lines [header, e.context, e.caretLine]) := by
  constructor
  · intro i t found
    exact ⟨TokenStream.lex_slicesFit found, TokenStream.lex_oneLine_context found,
      TokenStream.lex_oneLine_trailing found⟩
  · intro file e stopped
    obtain ⟨i, t, about⟩ := exists_about stopped
    refine ⟨i, t, about, ?_, ?_, about.caretLine_eq, ?_⟩
    · intro valid inside
      exact about.pointsAt valid (about.got ▸ inside)
    · intro prev _ later before blank
      exact about.pointsBehind later before blank
    · intro newline
      have context : 10 ∉ e.context := by
        rw [about.context]
        exact (TokenStream.lex_oneLine_context about.found).newline
      rw [← about.file] at newline
      exact ⟨e.header, e.newline_not_mem_header newline about.detail, context,
        e.newline_not_mem_caretLine, e.render_plain⟩

/-- A string over two lines where a parenthesis is due, and an end of input behind a comment. -/
theorem split_string_underlined :
    let file := bytes "a.kt"
    let split := bytes "println(1 \"\"\"a\n\tb\"\"\")"
    let ended := bytes "\tprintln // c\t\n \n"
    let misplaced : ParseError :=
      { kind := .unexpectedToken, file, loc := ⟨1, 11⟩, mark := ⟨.string, 10, 20⟩, got := .string
        expected := [.rparen], detail := [], context := bytes "1 \"\"\"a", caret := 2 }
    let missing : ParseError :=
      { kind := .unexpectedToken, file, loc := ⟨3, 1⟩, mark := ⟨.eof, 17, 17⟩, got := .eof
        expected := [.lparen], detail := [], context := bytes " println // c", caret := 13 }
    (parse file (lex split).stream = .error misplaced ∧ (lex split).invalid = [] ∧
      (∃ t, t.kind = .string ∧ misplaced.PointsAt split t) ∧
      split.length ≤ Bytes.maxSize ∧ misplaced.caretLine = bytes "  ^^^^^^^^^^" ∧
      10 ∉ file ∧ (misplaced.render false).count 10 = 3) ∧
    parse file (lex ended).stream = .error missing ∧
    missing.PointsBehind ended ⟨.comment, 9, 14, ⟨1, 10⟩⟩ := by
  intro file split ended misplaced missing
  have stopped : parse file (lex split).stream = .error misplaced := by decide +kernel
  have stopped' : parse file (lex ended).stream = .error missing := by decide +kernel
  have valid : (lex split).invalid = [] := by decide +kernel
  have small : split.length ≤ Bytes.maxSize := by decide +kernel
  have newline : 10 ∉ file := by decide +kernel
  constructor
  · obtain ⟨i, t, about, points, -, carets, lines⟩ :=
      (syntax_error_points_at_token split).2 file misplaced stopped
    obtain ⟨header, noHeader, noContext, noCarets, report⟩ := lines newline
    refine ⟨stopped, valid, ⟨t, about.got.symm, points valid (by decide)⟩, small, ?_, newline, ?_⟩
    · rw [(carets small).2]
      decide +kernel
    · rw [report]
      simp [Bytes.lines, List.count_eq_zero.mpr noHeader, List.count_eq_zero.mpr noContext,
        List.count_eq_zero.mpr noCarets]
  · obtain ⟨i, t, about, -, behind, -⟩ :=
      (syntax_error_points_at_token ended).2 file missing stopped'
    have tokens : (lex ended).stream.tokens = #[⟨.kwPrintln, 1, 8, ⟨1, 2⟩⟩,
        ⟨.comment, 9, 14, ⟨1, 10⟩⟩, ⟨.eof, 17, 17, ⟨3, 1⟩⟩] := by
      decide +kernel
    have last : i = 2 ∧ t = ⟨.eof, 17, 17, ⟨3, 1⟩⟩ := by
      have found := about.found
      have kind : t.kind = .eof := about.got.symm
      rw [tokens] at found
      match i with
      | 0 | 1 =>
        cases found
        cases kind
      | 2 =>
        cases found
        exact ⟨rfl, rfl⟩
      | _ + 3 => cases found
    obtain ⟨rfl, rfl⟩ := last
    exact ⟨stopped', behind _ rfl (by decide) (by rw [tokens]; rfl) (by decide +kernel)⟩

/-- The line on which the last token ends is not shown as it stands. -/
theorem tab_before_last_token_blanked :
    let source := bytes "\tprintln(\n"
    let opening : Token := ⟨.lparen, 8, 9, ⟨1, 9⟩⟩
    let last : Token := ⟨.eof, 10, 10, ⟨2, 1⟩⟩
    ∃ e, parse (bytes "a.kt") (lex source).stream = .error e ∧ (lex source).invalid = [] ∧
      e.got = .eof ∧ (lex source).stream.tokens[1]? = some opening ∧
      (lex source).stream.tokens[2]? = some last ∧
      Bytes.isBlank ((lex source).stream.shown 2 last) = true ∧
      ¬∃ (n : Nat) (line : Bytes), (Location.ofOffset source opening.stop).line = n + 1 ∧
        (Bytes.splitOn 10 source)[n]? = some line ∧ e.context = TokenStream.trimmed line := by
  intro source opening last
  refine ⟨{ kind := .unexpectedToken, file := bytes "a.kt", loc := ⟨2, 1⟩, mark := ⟨.eof, 10, 10⟩
            got := .eof, expected := Literal.kinds, detail := [], context := bytes " println("
            caret := 9 }, ?_, ?_, ?_, ?_, ?_, ?_, ?_⟩
  · decide +kernel
  · decide +kernel
  · rfl
  · decide +kernel
  · decide +kernel
  · decide +kernel
  · rintro ⟨n, line, number, found, same⟩
    have first : (Location.ofOffset source opening.stop).line = 1 := by decide +kernel
    have whole : (Bytes.splitOn 10 source)[0]? = some (bytes "\tprintln(") := by decide +kernel
    obtain rfl : n = 0 := by omega
    rw [whole] at found
    cases found
    exact absurd same (by decide +kernel)

end PrintLang
