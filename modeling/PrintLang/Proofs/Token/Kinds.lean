import PrintLang.Proofs.Token.Munch

set_option autoImplicit false

namespace PrintLang

namespace TokenKind

def words : List TokenKind := .identifier :: keywords.map Prod.snd

theorem ofWord_eq_keyword {w : Bytes} {entry : Bytes × TokenKind} (known : entry ∈ keywords) :
    ofWord w = entry.2 ↔ w = entry.1 := by
  constructor
  · intro same
    have named : ∀ x ∈ keywords, x.2 ≠ .identifier := by decide
    have found : keywords.lookup w = some entry.2 := by
      unfold ofWord at same
      cases found : keywords.lookup w with
      | none => exact absurd (by rw [← same, found]; rfl) (named _ known)
      | some kind => rw [← same, found]; rfl
    obtain ⟨front, back, split, -⟩ := List.lookup_eq_some_iff.mp found
    have member : (w, entry.2) ∈ keywords := by simp [split]
    have distinct : ∀ x ∈ keywords, ∀ y ∈ keywords, x.2 = y.2 → x.1 = y.1 := by decide
    exact distinct _ member _ known rfl
  · rintro rfl
    have all : ∀ x ∈ keywords, ofWord x.1 = x.2 := by decide
    exact all _ known

theorem ofWord_eq_identifier {w : Bytes} :
    ofWord w = .identifier ↔ w ∉ keywords.map Prod.fst := by
  constructor
  · intro same member
    obtain ⟨entry, known, rfl⟩ := List.mem_map.mp member
    rw [(ofWord_eq_keyword known).mpr rfl] at same
    have named : ∀ x ∈ keywords, x.2 ≠ .identifier := by decide
    exact named entry known same
  · intro unknown
    have missing : keywords.lookup w = none := by
      rw [List.lookup_eq_none_iff]
      intro entry known
      simpa using fun same : w = entry.1 => unknown (same ▸ List.mem_map_of_mem known)
    rw [ofWord, missing]
    rfl

end TokenKind

namespace Lexer

/-- A quote `q` closes `body` on its line. -/
def ClosedBy (q : UInt8) (s body : Bytes) : Prop :=
  ∃ after, s = body ++ q :: after ∧ q ∉ body ∧ 10 ∉ body

/-- The inputs that start with no valid token: an open literal, a character literal that does not
hold one byte, or a byte that starts nothing. -/
inductive Unreadable : Bytes → Prop where
  | multiLine {s : Bytes} (unclosed : ¬ [34, 34, 34] <:+: s) : Unreadable ([34, 34, 34] ++ s)
  | string {s : Bytes} (single : ¬ [34, 34] <+: s) (unclosed : ∀ body, ¬ ClosedBy 34 s body) :
      Unreadable (34 :: s)
  | char {s : Bytes} (malformed : ∀ body, ClosedBy 39 s body → body.length ≠ 1) :
      Unreadable (39 :: s)
  | byte {b : UInt8} {s : Bytes} (stray : isStray b = true) : Unreadable (b :: s)

theorem Unreadable.munch {input : Bytes} (h : Unreadable input) : ∃ b w after d,
    input = b :: (w ++ after) ∧ Munch (b :: w) after.head? .invalid (some d) := by
  cases h with
  | @multiLine s unclosed =>
    exact ⟨34, 34 :: 34 :: s, [], _, by simp, .openMultiLineString unclosed⟩
  | string single unclosed =>
    rename_i s
    obtain ⟨body, after, rfl, inside, stop⟩ := exists_quoted 34 s
    refine ⟨34, body, after, _, rfl, .openString inside fun c hc => ?_⟩
    refine (stop c hc).resolve_left ?_
    rintro rfl
    obtain ⟨after, rfl⟩ := List.head?_eq_some_iff.mp hc
    exact unclosed body ⟨after, rfl, inside⟩
  | char malformed =>
    rename_i s
    obtain ⟨body, after, rfl, inside, stop⟩ := exists_quoted 39 s
    by_cases closed : after.head? = some 39
    · obtain ⟨after, rfl⟩ := List.head?_eq_some_iff.mp closed
      exact ⟨39, body ++ [39], after, _, by simp,
        .charLength inside (malformed body ⟨after, rfl, inside⟩)⟩
    · refine ⟨39, body, after, _, rfl, .openChar inside fun c hc => ?_⟩
      exact (stop c hc).resolve_left fun h => closed (h ▸ hc)
  | byte stray => exact ⟨_, [], _, _, rfl, .strayByte stray⟩

/-- The body up to a quote on the line is determined by the line. -/
theorem ClosedBy.split {q : UInt8} {s body after : Bytes} (h : ClosedBy q (s ++ after) body)
    (inside : q ∉ s ∧ 10 ∉ s) (stop : ∀ c ∈ after.head?, c = q ∨ c = 10) :
    body = s ∧ after.head? = some q := by
  obtain ⟨behind, split, closed⟩ := h
  have stopped : ∀ c ∈ (q :: behind).head?, c = q ∨ c = 10 := by simp
  have first := takeWhile_quoted closed stopped
  rw [← split, takeWhile_quoted inside stop] at first
  subst first
  rw [List.append_cancel_left_eq] at split
  exact ⟨rfl, by rw [split]; rfl⟩

theorem unreadable_of_munch {text after : Bytes} {d : Defect} {kind : TokenKind}
    (h : Munch text after.head? kind (some d)) : Unreadable (text ++ after) := by
  generalize behind : after.head? = next at h
  cases h with
  | openMultiLineString unclosed =>
    obtain rfl := List.head?_eq_none_iff.mp behind
    rw [List.append_nil]
    exact .multiLine unclosed
  | openString body stop =>
    rename_i s
    subst behind
    refine .string ?_ fun other closed => ?_
    · rintro ⟨tail, split⟩
      cases s with
      | nil =>
        have here : after = 34 :: 34 :: tail := split.symm
        exact absurd (stop 34 (by rw [here]; rfl)) (by decide)
      | cons c s =>
        obtain rfl : 34 = c := (List.cons.inj split).1
        exact body.1 List.mem_cons_self
    · have found := (closed.split body fun c hc => .inr (stop c hc)).2
      exact absurd (stop 34 found) (by decide)
  | openChar body stop =>
    subst behind
    refine .char fun other closed => ?_
    have found := (closed.split body fun c hc => .inr (stop c hc)).2
    exact absurd (stop 39 found) (by decide)
  | @charLength s _ body length =>
    have input : 39 :: (s ++ [39]) ++ after = 39 :: (s ++ 39 :: after) := by simp
    rw [input]
    refine .char fun other closed => ?_
    rw [(closed.split body (by simp)).1]
    exact length
  | strayByte stray => exact .byte stray

inductive Rule where
  | comment
  | word
  | integer
  | string
  | char
  | symbol
  | short
  | extended
  | invalid
  | ending
deriving DecidableEq

def Rule.of : TokenKind → Rule
  | .comment => .comment
  | .identifier | .kwTrue | .kwFalse | .kwPrintln | .kwIf | .kwElse | .kwWhile | .kwFun | .kwClass
  | .kwReturn | .kwVar | .kwVal | .kwSyscall => .word
  | .integer => .integer
  | .string => .string
  | .char => .char
  | .lbrace | .rbrace | .lparen | .rparen | .comma | .colon | .plus | .minus | .star | .slash
  | .percent => .symbol
  | .assign | .bang | .less | .greater => .short
  | .equals | .bangEq | .lessEq | .greaterEq => .extended
  | .invalid => .invalid
  | .eof | .other _ => .ending

theorem Rule.of_words : ∀ kind ∈ TokenKind.words, Rule.of kind = .word := by decide

theorem Rule.of_symbols : ∀ x ∈ symbols, Rule.of x.2 = .symbol := by decide

theorem Rule.of_comparisons :
    ∀ x ∈ comparisons, Rule.of x.2.1 = .short ∧ Rule.of x.2.2 = .extended := by decide

/-- What a rule says of the tokens of its kinds, with `next` the byte behind the text. -/
def Rule.Holds (kind : TokenKind) (text : Bytes) (next : Option UInt8) : Rule → Prop
  | .comment => ∃ s, text = [47, 47] ++ s ∧ 10 ∉ s ∧ (next = none ∨ next = some 10)
  | .word => (∃ b s, text = b :: s ∧ isLetter b = true ∧ ∀ c ∈ s, isWord c = true) ∧
      (∀ c, next = some c → isWord c = false) ∧
      (∀ entry ∈ TokenKind.keywords, (kind = entry.2 ↔ text = entry.1)) ∧
      (kind = .identifier ↔ text ∉ TokenKind.keywords.map Prod.fst)
  | .integer => ∃ ds, ds ≠ [] ∧ (∀ c ∈ ds, isDigit c = true) ∧
      (text = ds ++ [76] ∨ text = ds ∧ ∀ c, next = some c → isDigit c = false ∧ c ≠ 76)
  | .string => ∃ s, (text = [34] ++ s ++ [34] ∧ 34 ∉ s ∧ 10 ∉ s ∧ (s = [] → next ≠ some 34)) ∨
      (text = [34, 34, 34] ++ s ++ [34, 34, 34] ∧ ClosesFirst s)
  | .char => ∃ c, text = [39, c, 39] ∧ c ≠ 39 ∧ c ≠ 10
  | .symbol => ∃ b, (b, kind) ∈ symbols ∧ text = [b] ∧ (b = 47 → next ≠ some 47)
  | .short => ∃ b long, (b, kind, long) ∈ comparisons ∧ text = [b] ∧ next ≠ some 61
  | .extended => ∃ b short, (b, short, kind) ∈ comparisons ∧ text = [b, 61]
  | .invalid => ∃ d, Munch text next .invalid (some d)
  | .ending => kind = .eof ∧ text = [] ∧ next = none

theorem Munch.rule {text : Bytes} {next : Option UInt8} {kind : TokenKind} {defect : Option Defect}
    (h : Munch text next kind defect) : (Rule.of kind).Holds kind text next := by
  cases h with
  | comment line stop =>
    refine ⟨_, rfl, line, ?_⟩
    cases next with
    | none => exact .inl rfl
    | some c => exact .inr (congrArg some (stop c rfl))
  | word first tail stop =>
    rw [Rule.of_words _ (TokenKind.ofWord_mem _)]
    exact ⟨⟨_, _, rfl, first, tail⟩, stop, fun _ => TokenKind.ofWord_eq_keyword,
      TokenKind.ofWord_eq_identifier⟩
  | integer first tail stop =>
    exact ⟨_, List.cons_ne_nil _ _, List.forall_mem_cons.mpr ⟨first, tail⟩, .inr ⟨rfl, stop⟩⟩
  | long first tail =>
    exact ⟨_, List.cons_ne_nil _ _, List.forall_mem_cons.mpr ⟨first, tail⟩, .inl rfl⟩
  | string body single => exact ⟨_, .inl ⟨rfl, body.1, body.2, single⟩⟩
  | multiLine closes => exact ⟨_, .inr ⟨rfl, closes⟩⟩
  | char body => exact ⟨_, rfl, body⟩
  | symbol known stop =>
    rw [Rule.of_symbols _ known]
    exact ⟨_, known, rfl, stop⟩
  | short known stop =>
    rw [(Rule.of_comparisons _ known).1]
    exact ⟨_, _, known, rfl, stop⟩
  | extended known =>
    rw [(Rule.of_comparisons _ known).2]
    exact ⟨_, _, known, rfl⟩
  | openMultiLineString unclosed => exact ⟨_, .openMultiLineString unclosed⟩
  | openString body stop => exact ⟨_, .openString body stop⟩
  | openChar body stop => exact ⟨_, .openChar body stop⟩
  | charLength body length => exact ⟨_, .charLength body length⟩
  | strayByte stray => exact ⟨_, .strayByte stray⟩

theorem Munch.kind_of_defect {text : Bytes} {next : Option UInt8} {kind : TokenKind} {d : Defect}
    (h : Munch text next kind (some d)) : kind = .invalid := by
  cases h <;> rfl

theorem Munch.invalid_iff {text after : Bytes} {kind : TokenKind} {defect : Option Defect}
    (h : Munch text after.head? kind defect) : kind = .invalid ↔ Unreadable (text ++ after) := by
  obtain ⟨b, w, rfl⟩ := h.exists_cons
  have scanned := (scan_of_munch h).2
  constructor
  · rintro rfl
    have named := (scan_sound b (w ++ after)).defect
    rw [scanned] at named
    obtain ⟨d, rfl⟩ := Option.isSome_iff_exists.mp named
    exact unreadable_of_munch h
  · intro unreadable
    -- a text of the grammar with a defect starts there, and there is only one text
    obtain ⟨c, v, rest, d, split, munch⟩ := unreadable.munch
    obtain ⟨rfl, same⟩ := List.cons.inj split
    have other := (scan_of_munch munch).2
    rw [← same, List.append_eq, scanned] at other
    exact congrArg Scan.kind other

/-- Every token but the end of input is a text of the grammar, with what is left behind it. -/
theorem lexemes_munch (source : Bytes) : ∀ l ∈ lexemes .start source,
    (l.token.kind = .eof ∧ l.token.start = source.length ∧ l.token.stop = source.length ∧
      l.defect = none) ∨
    (Munch (l.token.text source) (source.drop l.token.stop).head? l.token.kind l.defect ∧
      source.drop l.token.start = l.token.text source ++ source.drop l.token.stop) := by
  refine (lex_passes source).forall_mem ?_ (.inl ⟨rfl, rfl, rfl, rfl⟩)
  intro i b rest here hb
  right
  simp only [Token.text]
  rw [slice_of_drop here, drop_of_drop here, here]
  exact ⟨scan_munch hb rest, by simp⟩

end Lexer

open Lexer

/-- Every token obeys the rule of its kind, it is invalid exactly when no valid token starts at its
place, and the reason given for an invalid one is the defect of its text. -/
theorem lex_classifies (source : Bytes) :
    (∀ t ∈ (lex source).stream.tokens,
      (Rule.of t.kind).Holds t.kind (t.text source) source[t.stop]? ∧
      (t.kind = .invalid ↔ Unreadable (source.drop t.start))) ∧
    ∀ e ∈ (lex source).invalid, ∃ t ∈ (lex source).stream.tokens, ∃ d : Defect,
      e.text = t.text source ∧ e.loc = t.loc ∧ e.reason = d.reason ∧
      Munch (t.text source) source[t.stop]? .invalid (some d) := by
  have munch := lexemes_munch source
  constructor
  · rw [lex_forall_mem]
    intro l hl
    rcases munch l hl with ⟨kind, start, stop, -⟩ | ⟨munch, split⟩
    · rw [kind, start, stop, Token.text, start, stop]
      refine ⟨⟨rfl, by simp [Bytes.slice], by simp⟩, fun h => (by cases h), fun h => ?_⟩
      rw [List.drop_length] at h
      cases h
    · rw [← List.head?_drop, split]
      exact ⟨munch.rule, munch.invalid_iff⟩
  · intro e he
    obtain ⟨⟨l, i⟩, indexed, entry⟩ := List.mem_filterMap.mp he
    obtain ⟨d, defect, rfl⟩ := Option.map_eq_some_iff.mp entry
    have hl : l ∈ lexemes .start source := List.fst_mem_of_mem_zipIdx indexed
    have listed : l.token ∈ (lex source).stream.tokens := by
      rw [← Array.mem_toList_iff, lex_tokens]
      exact List.mem_map_of_mem hl
    refine ⟨l.token, listed, d, rfl, rfl, rfl, ?_⟩
    rcases munch l hl with ⟨-, -, -, none⟩ | ⟨munch, -⟩
    · rw [none] at defect
      cases defect
    · rw [defect] at munch
      rwa [← List.head?_drop, ← munch.kind_of_defect]

end PrintLang
