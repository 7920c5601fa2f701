import Mathlib.Data.List.Forall2
import PrintLang.Proofs.Program.Literal
import PrintLang.Proofs.Program.Records
import PrintLang.Proofs.Token.Partition

set_option autoImplicit false

namespace PrintLang

structure Phrase where
  keyword : Token × Nat
  opening : Token × Nat
  argument : Token × Nat
  closing : Token × Nat
deriving DecidableEq, Repr

namespace Phrase

def tokens (p : Phrase) : List (Token × Nat) := [p.keyword, p.opening, p.argument, p.closing]

structure Shaped (source : Bytes) (p : Phrase) : Prop where
  keyword : p.keyword.1.kind = .kwPrintln
  opening : p.opening.1.kind = .lparen
  argument : p.argument.1.kind ∈ Literal.kinds
  fits : p.argument.1.kind = .integer → Literal.IntegerFits (p.argument.1.text source)
  closing : p.closing.1.kind = .rparen

structure Means (source : Bytes) (p : Phrase) (st : Statement) : Prop where
  first : st.first = p.keyword.2
  token : st.token = p.argument.2
  literal : Literal.Reads p.argument.1.kind (p.argument.1.text source) st.literal
  last : st.last = p.closing.2

end Phrase

/-- The tokens are one phrase or more, and the end of input. -/
structure Grammatical (source : Bytes) (tokens : List (Token × Nat)) (phrases : List Phrase) :
    Prop where
  ne : phrases ≠ []
  split : ∃ e, e.1.kind = .eof ∧ tokens = phrases.flatMap Phrase.tokens ++ [e]
  shaped : ∀ p ∈ phrases, p.Shaped source

namespace Parser

inductive EndsOnce : List (Token × Nat) → Prop where
  | last {e : Token × Nat} (h : e.1.kind = .eof) : EndsOnce [e]
  | cons {x : Token × Nat} {rest : List (Token × Nat)} (h : x.1.kind ≠ .eof)
      (tail : EndsOnce rest) : EndsOnce (x :: rest)

variable {source : Bytes} {tokens : List (Token × Nat)} {sts : List Statement}

theorem EndsOnce.of_append {front : List (Token × Nat)} {e : Token × Nat} (last : e.1.kind = .eof)
    (h : ∀ x ∈ front, x.1.kind ≠ .eof) : EndsOnce (front ++ [e]) := by
  induction front with
  | nil => exact .last last
  | cons x front ih =>
    obtain ⟨first, rest⟩ := List.forall_mem_cons.mp h
    exact .cons first (ih rest)

section Peel

-- In each phase the first token decides.

theorem peel_keyword {started : Bool} (ends : EndsOnce tokens)
    (h : statements source (.keyword started) tokens = .ok sts) :
    (∃ t i rest, tokens = (t, i) :: rest ∧ t.kind = .kwPrintln ∧ EndsOnce rest ∧
      statements source (.opening i) rest = .ok sts) ∨
    (∃ e, tokens = [e] ∧ e.1.kind = .eof ∧ started = true ∧ sts = []) := by
  cases ends with
  | @last e eof =>
    rw [statements, eof, if_neg (by decide)] at h
    split at h
    · next both =>
      cases h
      exact .inr ⟨e, rfl, eof, both.2, rfl⟩
    · cases h
  | @cons x rest ne tail =>
    rw [statements] at h
    split at h
    · next kind => exact .inl ⟨x.1, x.2, rest, rfl, kind, tail, h⟩
    · rw [if_neg (fun both => ne both.1)] at h
      cases h

theorem peel_opening {first : Nat} (ends : EndsOnce tokens)
    (h : statements source (.opening first) tokens = .ok sts) :
    ∃ t i rest, tokens = (t, i) :: rest ∧ t.kind = .lparen ∧ EndsOnce rest ∧
      statements source (.argument first) rest = .ok sts := by
  cases ends with
  | @last e eof =>
    rw [statements, eof, if_neg (by decide)] at h
    cases h
  | @cons x rest ne tail =>
    rw [statements] at h
    split at h
    · next kind => exact ⟨x.1, x.2, rest, rfl, kind, tail, h⟩
    · cases h

theorem peel_argument {first : Nat} (ends : EndsOnce tokens)
    (forms : ∀ x ∈ tokens, Lexer.LiteralText x.1.kind (x.1.text source))
    (h : statements source (.argument first) tokens = .ok sts) :
    ∃ t i rest l, tokens = (t, i) :: rest ∧ Literal.Reads t.kind (t.text source) l ∧
      EndsOnce rest ∧ statements source (.closing first i l) rest = .ok sts := by
  cases ends with
  | @last e eof =>
    rw [statements, eof] at h
    cases h
  | @cons x rest ne tail =>
    rw [statements] at h
    split at h
    · next l read =>
      exact ⟨x.1, x.2, rest, l, rfl, Literal.reads_of_ofToken (forms x List.mem_cons_self) read,
        tail, h⟩
    · cases h

theorem peel_closing {first token : Nat} {l : Literal} (ends : EndsOnce tokens)
    (h : statements source (.closing first token l) tokens = .ok sts) :
    ∃ t i rest more, tokens = (t, i) :: rest ∧ t.kind = .rparen ∧ EndsOnce rest ∧
      sts = ⟨first, token, l, i⟩ :: more ∧ statements source (.keyword true) rest = .ok more := by
  cases ends with
  | @last e eof =>
    rw [statements, eof, if_neg (by decide)] at h
    cases h
  | @cons x rest ne tail =>
    rw [statements] at h
    split at h
    · next kind =>
      split at h
      · next more read =>
        cases h
        exact ⟨x.1, x.2, rest, more, rfl, kind, tail, rfl, read⟩
      · cases h
    · cases h

end Peel

theorem statements_sound {started : Bool} (ends : EndsOnce tokens)
    (forms : ∀ x ∈ tokens, Lexer.LiteralText x.1.kind (x.1.text source))
    (h : statements source (.keyword started) tokens = .ok sts) :
    ∃ phrases e, e.1.kind = .eof ∧ tokens = phrases.flatMap Phrase.tokens ++ [e] ∧
      (∀ p ∈ phrases, p.Shaped source) ∧ List.Forall₂ (Phrase.Means source) phrases sts ∧
      (started = false → phrases ≠ []) := by
  induction hn : tokens.length using Nat.strongRecOn generalizing tokens started sts with
  | ind n ih =>
    -- A phrase takes one token in each phase, and what follows it is shorter by four.
    obtain ⟨k, ki, rest₁, rfl, kind, ends₁, h₁⟩ | ⟨e, rfl, eof, rfl, rfl⟩ := peel_keyword ends h
    · obtain ⟨o, oi, rest₂, rfl, opening, ends₂, h₂⟩ := peel_opening ends₁ h₁
      have forms₂ := (List.forall_mem_cons.mp (List.forall_mem_cons.mp forms).2).2
      obtain ⟨a, ai, rest₃, l, rfl, reads, ends₃, h₃⟩ := peel_argument ends₂ forms₂ h₂
      obtain ⟨c, ci, rest₄, more, rfl, closing, ends₄, rfl, h₄⟩ := peel_closing ends₃ h₃
      have forms₄ := (List.forall_mem_cons.mp (List.forall_mem_cons.mp forms₂).2).2
      have shorter : rest₄.length < n := by
        simp only [List.length_cons] at hn
        omega
      obtain ⟨phrases, e, eof, split, shaped, means, -⟩ := ih _ shorter ends₄ forms₄ h₄ rfl
      refine ⟨⟨(k, ki), (o, oi), (a, ai), (c, ci)⟩ :: phrases, e, eof, ?_, ?_, ?_, ?_⟩
      · rw [List.flatMap_cons, split]
        rfl
      · exact List.forall_mem_cons.mpr 
          ⟨⟨kind, opening, reads.kind_mem, reads.integerFits, closing⟩, shaped⟩
      · exact .cons ⟨rfl, rfl, reads, rfl⟩ means
      · exact fun _ => List.cons_ne_nil _ _
    · exact ⟨[], e, eof, rfl, List.forall_mem_nil _, .nil, nofun⟩

theorem statements_complete {phrases : List Phrase} {e : Token × Nat} (eof : e.1.kind = .eof)
    (shaped : ∀ p ∈ phrases, p.Shaped source) (means : List.Forall₂ (Phrase.Means source) phrases sts)
    {started : Bool} (ne : started = false → phrases ≠ []) :
    statements source (.keyword started) (phrases.flatMap Phrase.tokens ++ [e]) = .ok sts := by
  induction means generalizing started with
  | nil =>
    have on : started = true := by
      cases started with
      | false => exact absurd rfl (ne rfl)
      | true => rfl
    rw [List.flatMap_nil, List.nil_append, statements, eof, if_neg (by decide), if_pos ⟨rfl, on⟩]
  | @cons p st phrases sts m means ih =>
    obtain ⟨first, rest⟩ := List.forall_mem_cons.mp shaped
    have tail : statements source (.keyword true) (phrases.flatMap Phrase.tokens ++ [e]) = .ok sts :=
      ih rest nofun
    rw [List.flatMap_cons, Phrase.tokens]
    simp only [List.cons_append, List.nil_append]
    rw [statements, if_pos first.keyword, statements, if_pos first.opening, statements,
      Literal.ofToken_of_reads m.literal]
    dsimp only
    rw [statements, if_pos first.closing, tail]
    obtain ⟨_, _, _, _⟩ := st
    obtain ⟨rfl, rfl, -, rfl⟩ := m
    rfl

end Parser

namespace TokenStream
variable {ts : TokenStream} {i : Nat} {t : Token}

theorem mem_significant : (t, i) ∈ ts.significant ↔ ts.tokens[i]? = some t ∧ t.kind ≠ .comment := by
  rw [significant, List.mem_filter, List.mk_mem_zipIdx_iff_getElem?, Array.getElem?_toList,
    bne_iff_ne]

/-- The diagnostic of a kind at the token `t`, which is number `i` of the stream. -/
theorem parseError_eq (found : ts.tokens[i]? = some t) (file : Bytes) (kind : ParseErrorKind)
    (expected : List TokenKind) (detail : Bytes) : ts.parseError file kind i expected detail =
      { kind, file, loc := t.loc, mark := t.mark, got := t.kind, expected, detail
        context := (ts.context i t).1, caret := (ts.context i t).2 } := by
  rw [parseError, Array.getD_eq_getD_getElem?, found]
  rfl

theorem text_eq (found : ts.tokens[i]? = some t) : ts.text i = t.text ts.source := by
  rw [text, found]

end TokenStream
section Lexed

variable (source : Bytes)

theorem lex_significant_endsOnce : Parser.EndsOnce (lex source).stream.significant := by
  obtain ⟨front, split, rest⟩ := lex_ends source
  rw [TokenStream.significant, split, List.zipIdx_append, List.filter_append]
  refine .of_append rfl ?_
  intro x hx
  exact rest x.1 (List.fst_mem_of_mem_zipIdx (List.mem_filter.mp hx).1)

theorem lex_significant_literalText :
    ∀ x ∈ (lex source).stream.significant, Lexer.LiteralText x.1.kind (x.1.text source) := by
  intro x hx
  have mem := List.fst_mem_of_mem_zipIdx (List.mem_filter.mp hx).1
  exact lex_literalText source x.1 (Array.mem_toList_iff.mp mem)

end Lexed

section Parse

variable {file source : Bytes} {phrases : List Phrase}

theorem Grammatical.exists_statements
    (h : Grammatical source (lex source).stream.significant phrases) :
    ∃ sts, List.Forall₂ (Phrase.Means source) phrases sts := by
  obtain ⟨e, -, split⟩ := h.split
  have each : ∀ p ∈ phrases, ∃ st, Phrase.Means source p st := by
    intro p hp
    have mem : p.argument ∈ (lex source).stream.significant := by
      rw [split]
      refine List.mem_append_left _ (List.mem_flatMap.mpr ⟨p, hp, ?_⟩)
      simp [Phrase.tokens]
    obtain ⟨l, reads⟩ := Literal.exists_reads (lex_significant_literalText source _ mem)
      (h.shaped p hp).argument (h.shaped p hp).fits
    exact ⟨⟨p.keyword.2, p.argument.2, l, p.closing.2⟩, rfl, rfl, reads, rfl⟩
  clear split h
  induction phrases with
  | nil => exact ⟨[], .nil⟩
  | cons p phrases ih =>
    obtain ⟨first, rest⟩ := List.forall_mem_cons.mp each
    obtain ⟨st, means⟩ := first
    obtain ⟨sts, all⟩ := ih rest
    exact ⟨st :: sts, .cons means all⟩

theorem Grammatical.parse_eq {sts : List Statement}
    (h : Grammatical source (lex source).stream.significant phrases)
    (means : List.Forall₂ (Phrase.Means source) phrases sts) :
    parse file (lex source).stream = .ok ⟨file, (lex source).stream, .ofStatements sts⟩ := by
  obtain ⟨e, eof, split⟩ := h.split
  have read : Parser.statements (lex source).stream.source (.keyword false)
      (lex source).stream.significant = .ok sts := by
    rw [split]
    exact Parser.statements_complete eof h.shaped means fun _ => h.ne
  rw [parse, read]

theorem grammatical_of_parse {p : Program} (h : parse file (lex source).stream = .ok p) :
    ∃ phrases sts, Grammatical source (lex source).stream.significant phrases ∧
      List.Forall₂ (Phrase.Means source) phrases sts := by
  rw [parse] at h
  split at h
  · next sts read =>
    obtain ⟨phrases, e, eof, split, shaped, means, ne⟩ := Parser.statements_sound
      (lex_significant_endsOnce source) (lex_significant_literalText source) read
    exact ⟨phrases, sts, ⟨ne rfl, ⟨e, eof, split⟩, shaped⟩, means⟩
  · cases h

end Parse

def StringObject.Of (source : Bytes) (o : StringObject) (p : Phrase) : Prop :=
  o.token = (p.argument.2 : Int) ∧ Lexer.Quoted (p.argument.1.text source) o.value

/-- The store of a sequence of phrases. -/
structure Store.Represents (s : Store) (source : Bytes) (phrases : List Phrase) : Prop where
  nodes_size : s.nodes.size = 2 * phrases.length
  types_size : s.types.size = 2 * phrases.length
  stmts : s.stmts.toList = (List.range phrases.length).map fun k => ((2 * k + 1 : Nat) : Int)
  literal : ∀ {k : Nat} {p : Phrase}, phrases[k]? = some p → ∃ (l : Literal) (object : Nat),
    Literal.Reads p.argument.1.kind (p.argument.1.text source) l ∧
    s.nodes[2 * k]? =
      some ⟨p.argument.2, p.argument.2, some (2 * k : Nat), l.shape object⟩ ∧
    s.types[2 * k]? = some (.primitive l.type) ∧
    ∀ v, l = .string v → s.objects[object]? = some ⟨p.argument.2, v⟩
  println : ∀ {k : Nat} {p : Phrase}, phrases[k]? = some p →
    s.nodes[2 * k + 1]? =
      some ⟨p.keyword.2, p.closing.2, some (2 * k + 1 : Nat), .println (2 * k : Nat)⟩ ∧
    s.types[2 * k + 1]? = some (.primitive .unit)
  /-- The strings in order, each with its token and without its quotes. -/
  objects : List.Forall₂ (StringObject.Of source) s.objects.toList
    (phrases.filter fun p => p.argument.1.kind == .string)
  valid : s.fault? = none

theorem exists_getElem?_of_forall₂ {α β : Type} {R : α → β → Prop} {as : List α} {bs : List β}
    (h : List.Forall₂ R as bs) {k : Nat} {a : α} (found : as[k]? = some a) :
    ∃ b, bs[k]? = some b ∧ R a b := by
  induction h generalizing k with
  | nil => cases found
  | cons first _ ih =>
    cases k with
    | zero =>
      cases found
      exact ⟨_, rfl, first⟩
    | succ k => exact ih found

theorem Phrase.Means.objects {source : Bytes} {phrases : List Phrase} {sts : List Statement}
    (means : List.Forall₂ (Phrase.Means source) phrases sts) : List.Forall₂ (StringObject.Of source)
      (sts.flatMap fun st => (st.literal.objects st.token).toList)
      (phrases.filter fun p => p.argument.1.kind == .string) := by
  induction means with
  | nil => exact .nil
  | @cons p st _ _ m _ ih =>
    obtain ⟨first, token, literal, last⟩ := st
    obtain ⟨-, rfl, reads, -⟩ := m
    dsimp only at reads
    rw [List.flatMap_cons, List.filter_cons]
    generalize p.argument.1.kind = kind at reads
    generalize text : p.argument.1.text source = t at reads
    cases reads with
    | string quoted => exact .cons ⟨rfl, text ▸ quoted⟩ ih
    | _ => exact ih

theorem Store.Records.represents {source : Bytes} {phrases : List Phrase} {sts : List Statement}
    {s : Store} (h : s.Records sts) (means : List.Forall₂ (Phrase.Means source) phrases sts) :
    s.Represents source phrases := by
  have same := means.length_eq
  constructor
  case nodes_size => rw [h.nodes_size, same]
  case types_size => rw [h.types_size, same]
  case stmts => rw [h.stmts, same]
  case literal =>
    intro k p found
    obtain ⟨st, hst, first, token, reads, last⟩ := exists_getElem?_of_forall₂ means found
    obtain ⟨object, node, type, text⟩ := h.literal hst
    rw [token] at node text
    exact ⟨st.literal, object, reads, node, type, text⟩
  case println =>
    intro k p found
    obtain ⟨st, hst, first, token, reads, last⟩ := exists_getElem?_of_forall₂ means found
    obtain ⟨node, type⟩ := h.println hst
    rw [first, last] at node
    exact ⟨node, type⟩
  case objects =>
    rw [h.objects]
    exact Phrase.Means.objects means
  case valid => exact h.fault?_eq_none

theorem represents_of_parse {file source : Bytes} {p : Program}
    (h : parse file (lex source).stream = .ok p) : ∃ phrases,
      Grammatical source (lex source).stream.significant phrases ∧ p.file = file ∧
      p.stream = (lex source).stream ∧ p.store.Represents source phrases := by
  obtain ⟨phrases, sts, grammatical, means⟩ := grammatical_of_parse h
  rw [grammatical.parse_eq means] at h
  cases h
  exact ⟨phrases, grammatical, rfl, rfl, (Store.records_ofStatements sts).represents means⟩

/-- A parsed store comes from its own operations, so what is proved of all such stores holds of it. -/
theorem parse_built {file : Bytes} {ts : TokenStream} {p : Program} (h : parse file ts = .ok p) :
    p.store.Built := by
  rw [parse] at h
  split at h
  · cases h
    exact Store.built_ofStatements _
  · cases h

end PrintLang
