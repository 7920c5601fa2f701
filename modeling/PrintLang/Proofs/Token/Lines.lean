import PrintLang.Proofs.Token.Munch

/-!
# Lexing line by line

The end of the input and a newline cut a token off at the same place, unless it is a string in triple
quotes that nothing closes. So the tokens of two texts with a newline between them are those of the
first and, moved down, those of the second; and the tokens of a source, one on each line, are read
back with the same kinds and texts.
-/

set_option autoImplicit false

namespace PrintLang

def Token.shift (offset lines : Nat) (t : Token) : Token where
  kind := t.kind
  start := t.start + offset
  stop := t.stop + offset
  loc := ⟨t.loc.line + lines, t.loc.column⟩

def InvalidToken.shift (tokens lines : Nat) (e : InvalidToken) : InvalidToken where
  index := e.index + tokens
  loc := ⟨e.loc.line + lines, e.loc.column⟩
  text := e.text
  reason := e.reason

def TokenStream.body (ts : TokenStream) : List Token := ts.tokens.toList.filter (·.kind != .eof)

namespace Lexer

section Boundary
variable {text : Bytes} {next : Option UInt8} {kind : TokenKind} {defect : Option Defect}

/-- Every token may stand at the end of the input. -/
theorem Munch.at_end (h : Munch text next kind defect) : Munch text none kind defect := by
  cases h with
  | comment line _ => exact .comment line (by simp)
  | word first tail _ => exact .word first tail (by simp)
  | integer first tail _ => exact .integer first tail (by simp)
  | long first tail => exact .long first tail
  | string body _ => exact .string body (by simp)
  | multiLine closes => exact .multiLine closes
  | char body => exact .char body
  | symbol known _ => exact .symbol known (by simp)
  | short known _ => exact .short known (by simp)
  | extended known => exact .extended known
  | openMultiLineString unclosed => exact .openMultiLineString unclosed
  | openString body _ => exact .openString body (by simp)
  | openChar body _ => exact .openChar body (by simp)
  | charLength body length => exact .charLength body length
  | strayByte stray => exact .strayByte stray

/-- What may stand at the end of the input may stand at the end of a line. -/
theorem Munch.at_newline (h : Munch text next kind defect)
    (closed : defect ≠ some .openMultiLineString) : Munch text (some 10) kind defect := by
  cases h with
  | comment line _ => exact .comment line (by simp)
  | word first tail _ => exact .word first tail (by simp; decide)
  | integer first tail _ => exact .integer first tail (by simp; decide)
  | long first tail => exact .long first tail
  | string body _ => exact .string body (by simp)
  | multiLine closes => exact .multiLine closes
  | char body => exact .char body
  | symbol known _ => exact .symbol known (by simp)
  | short known _ => exact .short known (by simp)
  | extended known => exact .extended known
  | openMultiLineString _ => exact absurd rfl closed
  | openString body _ => exact .openString body (by simp)
  | openChar body _ => exact .openChar body (by simp)
  | charLength body length => exact .charLength body length
  | strayByte stray => exact .strayByte stray

theorem scan_append_newline {b : UInt8} (hb : isBlank b = false) (rest more : Bytes)
    (closed : (scan b rest).defect ≠ some .openMultiLineString) :
    scan b (rest ++ 10 :: more) = scan b rest := by
  obtain ⟨w, after, kind, defect, rfl, munch⟩ := exists_munch hb rest
  rw [(scan_of_munch munch).2] at closed ⊢
  have same : Munch (b :: w) (after ++ 10 :: more).head? kind defect := by
    cases after with
    | nil => exact munch.at_newline closed
    | cons c after => exact munch
  rw [List.append_assoc]
  exact (scan_of_munch same).2

end Boundary

theorem lexemes_nil (p : Position) :
    lexemes p [] = [⟨⟨.eof, p.offset, p.offset, p.loc⟩, none⟩] := by
  rw [lexemes]

theorem lexemes_blank {b : UInt8} (hb : isBlank b = true) (p : Position) (rest : Bytes) :
    lexemes p (b :: rest) = lexemes (p.advance b) rest := by
  rw [lexemes, if_pos hb]

theorem lexemes_token {b : UInt8} (hb : isBlank b = false) (p : Position) (rest : Bytes) :
    lexemes p (b :: rest) = ⟨⟨(scan b rest).kind, p.offset,
        (p.after (b :: rest.take (scan b rest).extra)).offset, p.loc⟩, (scan b rest).defect⟩ ::
      lexemes (p.after (b :: rest.take (scan b rest).extra)) (rest.drop (scan b rest).extra) := by
  rw [lexemes, if_neg (by simp [hb])]

theorem lexemes_ne_nil (p : Position) (input : Bytes) : lexemes p input ≠ [] := by
  fun_induction lexemes p input with
  | case1 => simp
  | case2 _ _ _ _ ih => exact ih
  | case3 => simp

theorem lexemes_append_newline (p : Position) (a b : Bytes)
    (closed : ∀ l ∈ lexemes p a, l.defect ≠ some .openMultiLineString) :
    lexemes p (a ++ 10 :: b) = (lexemes p a).dropLast ++ lexemes (p.after (a ++ [10])) b := by
  fun_induction lexemes p a with
  | case1 p =>
    rw [List.nil_append, lexemes_blank (by decide)]
    rfl
  | case2 p c rest hc ih =>
    rw [List.cons_append, lexemes_blank hc, ih closed]
    rfl
  | case3 p c rest hc s q =>
    rename_i ih
    have blank : isBlank c = false := by simpa using hc
    obtain ⟨first, later⟩ := List.forall_mem_cons.mp closed
    have fits : s.extra ≤ rest.length := (scan_sound c rest).extra_le
    rw [List.cons_append, lexemes_token blank, scan_append_newline blank rest b first,
      List.take_append_of_le_length fits, List.drop_append_of_le_length fits, ih later,
      List.dropLast_cons_of_ne_nil (lexemes_ne_nil _ _), List.cons_append]
    have behind : q.after (rest.drop s.extra ++ [10]) = p.after (c :: rest ++ [10]) := by
      rw [← Position.after_append, List.cons_append, ← List.append_assoc, List.take_append_drop,
        List.cons_append]
    rw [behind]

section Shift
variable (n l : Nat)

def Position.shift (p : Position) : Position := ⟨p.offset + n, p.line + l, p.column⟩

theorem Position.advance_shift (p : Position) (b : UInt8) :
    (p.shift n l).advance b = (p.advance b).shift n l := by
  unfold advance shift
  split <;> simp <;> omega

theorem Position.after_shift (p : Position) (text : Bytes) :
    (p.shift n l).after text = (p.after text).shift n l := by
  induction text generalizing p with
  | nil => rfl
  | cons b text ih =>
    change ((p.shift n l).advance b).after text = _
    rw [advance_shift, ih]
    rfl

def Lexeme.shift (x : Lexeme) : Lexeme := ⟨x.token.shift n l, x.defect⟩

theorem lexemes_shift (p : Position) (input : Bytes) :
    lexemes (p.shift n l) input = (lexemes p input).map (Lexeme.shift n l) := by
  fun_induction lexemes p input with
  | case1 p =>
    rw [lexemes_nil]
    simp [Lexeme.shift, Token.shift, Position.shift, Position.loc]
  | case2 p b rest hb ih => rw [lexemes_blank hb, Position.advance_shift, ih]
  | case3 p b rest hb s q =>
    rename_i ih
    rw [lexemes_token (by simpa using hb), Position.after_shift, List.map_cons, ih]
    simp [Lexeme.shift, Token.shift, Position.shift, Position.loc, s, q]

end Shift

theorem Position.after_line (a : Bytes) :
    Position.start.after (a ++ [10]) = Position.start.shift (a.length + 1) (a.count 10 + 1) := by
  rw [after_start]
  simp [shift, start, Nat.add_comm]

theorem lexemes_lines {a : Bytes} (b : Bytes)
    (closed : ∀ l ∈ lexemes .start a, l.defect ≠ some .openMultiLineString) :
    lexemes .start (a ++ 10 :: b) = (lexemes .start a).dropLast ++
      (lexemes .start b).map (Lexeme.shift (a.length + 1) (a.count 10 + 1)) := by
  rw [lexemes_append_newline _ _ _ closed, Position.after_line, lexemes_shift]

theorem lexemes_stop_le (source : Bytes) :
    ∀ l ∈ lexemes .start source, l.token.stop ≤ source.length := by
  refine (lex_passes source).forall_mem ?_ (Nat.le_refl _)
  intro i b rest here _
  have size := length_of_drop here
  have fits := (scan_sound b rest).extra_le
  dsimp only
  omega

theorem text_append {t : Token} {a : Bytes} (inside : t.stop ≤ a.length) (b : Bytes) :
    t.text (a ++ b) = t.text a := by
  rw [Token.text, Token.text, Bytes.slice, Bytes.slice]
  by_cases h : t.start ≤ a.length
  · rw [List.drop_append_of_le_length h, List.take_append_of_le_length (by rw [List.length_drop]; omega)]
  · rw [show t.stop - t.start = 0 by omega, List.take_zero, List.take_zero]

theorem text_shift (t : Token) (a b : Bytes) (lines : Nat) :
    (t.shift a.length lines).text (a ++ b) = t.text b := by
  rw [Token.text, Token.text, Bytes.slice, Bytes.slice]
  simp only [Token.shift]
  rw [Nat.add_comm t.start, ← List.drop_drop, List.drop_left,
    show t.stop + a.length - (a.length + t.start) = t.stop - t.start by omega]

def entry (source : Bytes) (x : Lexeme × Nat) : Option InvalidToken :=
  x.1.defect.map fun d => ⟨x.2, x.1.token.loc, x.1.token.text source, d.reason⟩

theorem entry_shift (a b : Bytes) (x : Lexeme) (lines k j : Nat) :
    entry (a ++ b) (x.shift a.length lines, k + j) =
      (entry b (x, k)).map (InvalidToken.shift j lines) := by
  have text := text_shift x.token a b lines
  cases hd : x.defect with
  | none => simp [entry, Lexeme.shift, hd]
  | some d =>
    simp only [entry, Lexeme.shift, hd, Option.map_some, text]
    simp [InvalidToken.shift, Token.shift]

theorem entries_shift (a b : Bytes) (ls : List Lexeme) (lines k j : Nat) :
    ((ls.map (Lexeme.shift a.length lines)).zipIdx (k + j)).filterMap (entry (a ++ b)) =
      ((ls.zipIdx k).filterMap (entry b)).map (InvalidToken.shift j lines) := by
  induction ls generalizing k with
  | nil => rfl
  | cons x ls ih =>
    have rest := ih (k + 1)
    rw [Nat.add_right_comm] at rest
    rw [List.map_cons, List.zipIdx_cons, List.zipIdx_cons, List.filterMap_cons, List.filterMap_cons,
      entry_shift, rest]
    cases entry b (x, k) <;> simp

theorem entries_append {a : Bytes} {ls : List Lexeme} (inside : ∀ l ∈ ls, l.token.stop ≤ a.length)
    (b : Bytes) (k : Nat) :
    (ls.zipIdx k).filterMap (entry (a ++ b)) = (ls.zipIdx k).filterMap (entry a) := by
  induction ls generalizing k with
  | nil => rfl
  | cons x ls ih =>
    obtain ⟨first, later⟩ := List.forall_mem_cons.mp inside
    have same : entry (a ++ b) (x, k) = entry a (x, k) := by
      simp only [entry, text_append first]
    rw [List.zipIdx_cons, List.filterMap_cons, List.filterMap_cons, same, ih later]

/-- A lexeme without its place. -/
def view (source : Bytes) (l : Lexeme) : TokenKind × Bytes × Option Defect :=
  (l.token.kind, l.token.text source, l.defect)

def views (source : Bytes) : List (TokenKind × Bytes × Option Defect) :=
  (lexemes .start source).map (view source)

theorem views_append_newline {a : Bytes} (b : Bytes)
    (closed : ∀ v ∈ views a, v.2.2 ≠ some .openMultiLineString) :
    views (a ++ 10 :: b) = (views a).dropLast ++ views b := by
  have inside := lexemes_stop_le a
  have closed' : ∀ l ∈ lexemes .start a, l.defect ≠ some .openMultiLineString :=
    fun l hl => closed (view a l) (List.mem_map_of_mem hl)
  rw [views, lexemes_lines b closed', List.map_append, views, ← List.map_dropLast, views,
    List.map_map]
  congr 1
  · apply List.map_congr_left
    intro l hl
    simp only [view, text_append (inside l (List.dropLast_subset _ hl))]
  · apply List.map_congr_left
    intro l _
    have text := text_shift l.token (a ++ [10]) b (a.count 10 + 1)
    rw [List.length_append, List.append_assoc] at text
    exact Prod.ext rfl (Prod.ext text rfl)

/-- The text of a token alone is read as this token. -/
theorem views_munch {text : Bytes} {next : Option UInt8} {kind : TokenKind} {defect : Option Defect}
    (h : Munch text next kind defect) :
    views text = [(kind, text, defect), (.eof, [], none)] := by
  obtain ⟨b, w, rfl⟩ := h.exists_cons
  have alone : Munch (b :: w) ([] : Bytes).head? kind defect := h.at_end
  obtain ⟨blank, scanned⟩ := scan_of_munch alone
  rw [List.append_nil] at scanned
  rw [views, lexemes_token blank, scanned, List.drop_length, lexemes_nil]
  simp [view, Token.text, Bytes.slice, Position.after_start]
  simp [Position.start]

theorem Munch.next_of_open {text : Bytes} {next : Option UInt8} {kind : TokenKind}
    (h : Munch text next kind (some .openMultiLineString)) : next = none := by
  cases h
  rfl

theorem Passes.of_drop_nil {source : Bytes} {i : Nat} {ls : List Lexeme} (h : Passes source i ls)
    (nil : source.drop i = []) : ls.length = 1 := by
  cases h with
  | done => rfl
  | blank here => simp [nil] at here
  | token here => simp [nil] at here

/-- One token on each line, and the tokens are read back. -/
theorem Passes.relex {source : Bytes} {i : Nat} {ls : List Lexeme} (h : Passes source i ls) :
    views (Bytes.join [10] ((ls.map (view source)).dropLast.map fun v => v.2.1)) =
      ls.map (view source) := by
  induction h with
  | done => simp [views, Bytes.join, lexemes_nil, view, Token.text, Bytes.slice]
  | blank _ _ _ ih => exact ih
  | @token i b rest ls here hb tail ih =>
    have munch := scan_munch hb rest
    have alone := views_munch munch
    have first : view source ⟨⟨(scan b rest).kind, i, i + 1 + (scan b rest).extra,
          .ofOffset source i⟩, (scan b rest).defect⟩ =
        ((scan b rest).kind, b :: rest.take (scan b rest).extra, (scan b rest).defect) := by
      simp only [view, Token.text, slice_of_drop here]
    obtain ⟨front, rfl, -⟩ := tail.ends
    have last : view source ⟨⟨.eof, source.length, source.length,
        .ofOffset source source.length⟩, none⟩ = (.eof, [], none) := by
      simp [view, Token.text, Bytes.slice]
    simp only [List.map_cons, List.map_append, List.map_nil, last, first] at ih ⊢
    rw [List.dropLast_concat] at ih
    rw [← List.cons_append, List.dropLast_concat]
    cases front with
    | nil => simpa [Bytes.join] using alone
    | cons x front =>
      -- with a token behind it, this one is no string that is open up to the end
      have closed : (scan b rest).defect ≠ some .openMultiLineString := by
        intro opened
        rw [opened] at munch
        have nil := List.head?_eq_none_iff.mp munch.next_of_open
        have := tail.of_drop_nil ((drop_of_drop here _).trans nil)
        simp at this
      rw [List.map_cons, List.map_cons, List.map_cons, Bytes.join, List.intercalate_cons_cons,
        List.append_assoc, List.singleton_append, views_append_newline, alone]
      · simpa [Bytes.join] using ih
      · rw [alone]
        simpa using closed

end Lexer

open Lexer

theorem lexemes_eq_append (source : Bytes) : ∃ front,
    lexemes .start source = front ++
      [⟨⟨.eof, source.length, source.length, .ofOffset source source.length⟩, none⟩] ∧
    (lex source).stream.body = front.map (·.token) := by
  obtain ⟨front, split, others⟩ := (lex_passes source).ends
  refine ⟨front, split, ?_⟩
  rw [TokenStream.body, lex_tokens, split, List.map_append, List.filter_append,
    List.filter_eq_self.mpr]
  · simp
  · intro t ht
    obtain ⟨l, hl, rfl⟩ := List.mem_map.mp ht
    simpa using others l hl

theorem lex_invalid (source : Bytes) :
    (lex source).invalid = (lexemes .start source).zipIdx.filterMap (entry source) := rfl

theorem closed_of_reasons {source : Bytes}
    (h : ∀ e ∈ (lex source).invalid, e.reason ≠ Defect.openMultiLineString.reason) :
    ∀ l ∈ lexemes .start source, l.defect ≠ some .openMultiLineString := by
  intro l hl opened
  obtain ⟨i, hi⟩ := List.mem_iff_getElem?.mp hl
  refine h ⟨i, l.token.loc, l.token.text source, Defect.openMultiLineString.reason⟩ ?_ rfl
  rw [lex_invalid, List.mem_filterMap]
  refine ⟨(l, i), List.mk_mem_zipIdx_iff_getElem?.mpr hi, ?_⟩
  simp [entry, opened]

theorem lex_tokens_lines {a : Bytes} (b : Bytes)
    (closed : ∀ l ∈ lexemes .start a, l.defect ≠ some .openMultiLineString) :
    (lex (a ++ 10 :: b)).stream.tokens.toList = (lex a).stream.body ++
      (lex b).stream.tokens.toList.map (Token.shift (a.length + 1) (a.count 10 + 1)) := by
  obtain ⟨front, split, body⟩ := lexemes_eq_append a
  rw [lex_tokens, lexemes_lines b closed, body, split, List.dropLast_concat, lex_tokens]
  simp [Lexeme.shift, Function.comp_def]

theorem lex_invalid_lines {a : Bytes} (b : Bytes)
    (closed : ∀ l ∈ lexemes .start a, l.defect ≠ some .openMultiLineString) :
    (lex (a ++ 10 :: b)).invalid = (lex a).invalid ++
      (lex b).invalid.map (InvalidToken.shift (lex a).stream.body.length (a.count 10 + 1)) := by
  obtain ⟨front, split, body⟩ := lexemes_eq_append a
  have inside : ∀ l ∈ front, l.token.stop ≤ a.length := by
    intro l hl
    exact lexemes_stop_le a l (by rw [split]; exact List.mem_append_left _ hl)
  have moved := entries_shift (a ++ [10]) b (lexemes .start b) (a.count 10 + 1) 0 front.length
  rw [List.length_append, List.append_assoc] at moved
  rw [lex_invalid, lexemes_lines b closed, split, List.dropLast_concat, List.zipIdx_append,
    List.filterMap_append, entries_append inside, lex_invalid, split, List.zipIdx_append,
    List.filterMap_append, lex_invalid, body, List.length_map, List.append_assoc]
  exact congrArg (front.zipIdx.filterMap (entry a) ++ ·) moved

/-- The tokens of a source, one on each line. -/
def TokenStream.onePerLine (ts : TokenStream) : Bytes :=
  Bytes.join [10] (ts.body.map (·.text ts.source))

theorem views_onePerLine (source : Bytes) :
    views (lex source).stream.onePerLine = views source := by
  obtain ⟨front, split, body⟩ := lexemes_eq_append source
  have again := (lex_passes source).relex
  rw [split, List.map_append, List.map_singleton, List.dropLast_concat, List.map_map] at again
  have whole : views source = front.map (view source) ++ [view source ⟨⟨.eof, source.length,
      source.length, .ofOffset source source.length⟩, none⟩] := by
    rw [views, split, List.map_append, List.map_singleton]
  rw [TokenStream.onePerLine, body, List.map_map, whole]
  exact again

theorem lex_tokens_views (source : Bytes) :
    (lex source).stream.tokens.toList.map (fun t => (t.kind, t.text source)) =
      (views source).map fun v => (v.1, v.2.1) := by
  rw [lex_tokens, views, List.map_map, List.map_map]
  rfl

theorem lex_invalid_views (source : Bytes) :
    (lex source).invalid.map (fun e => (e.index, e.text, e.reason)) =
      (views source).zipIdx.filterMap fun (v, i) =>
        v.2.2.map fun d => ((i : Int), v.2.1, d.reason) := by
  rw [lex_invalid, views, List.zipIdx_map, List.filterMap_map, List.map_filterMap]
  congr 1
  funext x
  simp [entry, view, Function.comp_def]

/-- Lexing by lines. After a text that leaves no string in triple quotes open, a newline and a second
text add the tokens of the second one, moved by the bytes and the lines in front of them. And the
tokens of a source, one on each line, are read back with their kinds, texts and defects. -/
theorem lex_line_by_line :
    (∀ a b : Bytes, (∀ e ∈ (lex a).invalid, e.reason ≠ Defect.openMultiLineString.reason) →
      (lex (a ++ 10 :: b)).stream.tokens.toList = (lex a).stream.body ++
        (lex b).stream.tokens.toList.map (Token.shift (a.length + 1) (a.count 10 + 1)) ∧
      (lex (a ++ 10 :: b)).invalid = (lex a).invalid ++
        (lex b).invalid.map (InvalidToken.shift (lex a).stream.body.length (a.count 10 + 1))) ∧
    ∀ source : Bytes,
      (lex (lex source).stream.onePerLine).stream.tokens.toList.map
          (fun t => (t.kind, t.text (lex source).stream.onePerLine)) =
        (lex source).stream.tokens.toList.map (fun t => (t.kind, t.text source)) ∧
      (lex (lex source).stream.onePerLine).invalid.map (fun e => (e.index, e.text, e.reason)) =
        (lex source).invalid.map (fun e => (e.index, e.text, e.reason)) := by
  constructor
  · intro a b reasons
    have closed := closed_of_reasons reasons
    exact ⟨lex_tokens_lines b closed, lex_invalid_lines b closed⟩
  · intro source
    have same := views_onePerLine source
    exact ⟨by rw [lex_tokens_views, lex_tokens_views, same],
      by rw [lex_invalid_views, lex_invalid_views, same]⟩

/-- A character literal and a string that the line leaves open, then a string that stays open. -/
theorem open_quotes_line_by_line :
    let a := bytes "'\n \"x"
    let b := bytes "\"\" \"\"\"y\n"
    (∀ e ∈ (lex a).invalid, e.reason ≠ Defect.openMultiLineString.reason) ∧
    (lex (a ++ 10 :: b)).stream.tokens.toList.map (·.kind) =
      [.invalid, .invalid, .string, .invalid, .eof] ∧
    (lex (a ++ 10 :: b)).invalid.map (fun e => (e.index, e.loc)) =
      [(0, ⟨1, 1⟩), (1, ⟨2, 2⟩), (3, ⟨3, 4⟩)] := by
  intro a b
  have closed : ∀ e ∈ (lex a).invalid, e.reason ≠ Defect.openMultiLineString.reason := by
    decide +kernel
  obtain ⟨tokens, invalid⟩ := lex_line_by_line.1 a b closed
  rw [tokens, invalid]
  exact ⟨closed, by decide +kernel, by decide +kernel⟩

end PrintLang
