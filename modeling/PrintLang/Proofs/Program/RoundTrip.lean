import PrintLang.Proofs.Bytes.Integer
import PrintLang.Proofs.Program.Grammar
import PrintLang.Proofs.Token.Lines

set_option autoImplicit false

namespace PrintLang

theorem digitsValue_append_digit (ds : Bytes) {d : Nat} (h : d < 10) :
    digitsValue (ds ++ [digitByte d]) = digitsValue ds * 10 + d := by
  rw [digitsValue, List.foldl_append, List.foldl_cons, List.foldl_nil, withDigit, toNat_digitByte h,
    Nat.add_sub_cancel_left, digitsValue]

theorem digitsValue_decimalNat (n : Nat) : digitsValue (decimalNat n) = n := by
  induction n using Nat.strongRecOn with
  | ind n ih =>
    by_cases small : n < 10
    · rw [decimalNat_of_lt small, ← List.nil_append [digitByte n],
        digitsValue_append_digit [] small]
      simp [digitsValue]
    · rw [decimalNat_of_le (by omega), digitsValue_append_digit _ (Nat.mod_lt n (by decide)),
        ih _ (by omega)]
      omega

def paddedDecimal (zeros n : Nat) : Bytes := List.replicate zeros 48 ++ decimalNat n

theorem digitsValue_paddedDecimal (zeros n : Nat) : digitsValue (paddedDecimal zeros n) = n := by
  induction zeros with
  | zero => exact digitsValue_decimalNat n
  | succ zeros ih => exact ih

theorem paddedDecimal_ne_nil (zeros n : Nat) : paddedDecimal zeros n ≠ [] :=
  List.append_ne_nil_of_right_ne_nil _ (decimalNat_ne_nil n)

theorem paddedDecimal_digits (zeros n : Nat) :
    (paddedDecimal zeros n).all Lexer.isDigit = true := by
  rw [paddedDecimal, List.all_append, Bool.and_eq_true]
  refine ⟨?_, decimalNat_all_digits n⟩
  rw [List.all_replicate]
  simp [Lexer.isDigit]

namespace Lexer

theorem Position.offset_after (p : Position) (text : Bytes) :
    (p.after text).offset = p.offset + text.length := by
  induction text generalizing p with
  | nil => rfl
  | cons b text ih =>
    change ((p.advance b).after text).offset = _
    rw [ih, advance, List.length_cons]
    split <;> simp only <;> omega

theorem lexemes_munch_append {text after : Bytes} {kind : TokenKind} {defect : Option Defect}
    (h : Munch text after.head? kind defect) (p : Position) :
    lexemes p (text ++ after) = ⟨⟨kind, p.offset, (p.after text).offset, p.loc⟩, defect⟩ ::
      lexemes (p.after text) after := by
  obtain ⟨b, w, rfl⟩ := h.exists_cons
  obtain ⟨blank, scanned⟩ := scan_of_munch h
  rw [List.cons_append, lexemes_token blank, scanned, List.take_left, List.drop_left]

theorem munch_digits {ds : Bytes} {next : Option UInt8} (ne : ds ≠ [])
    (digits : ds.all isDigit = true) (stop : ∀ c ∈ next, isDigit c = false ∧ c ≠ 76) :
    Munch ds next .integer none := by
  obtain ⟨b, ds, rfl⟩ := List.exists_cons_of_ne_nil ne
  obtain ⟨first, tail⟩ := List.forall_mem_cons.mp (List.all_eq_true.mp digits)
  exact .integer first tail stop

theorem munch_long {ds : Bytes} (next : Option UInt8) (ne : ds ≠ [])
    (digits : ds.all isDigit = true) : Munch (ds ++ [76]) next .integer none := by
  obtain ⟨b, ds, rfl⟩ := List.exists_cons_of_ne_nil ne
  obtain ⟨first, tail⟩ := List.forall_mem_cons.mp (List.all_eq_true.mp digits)
  exact .long first tail

theorem closesFirst_of_absent {v : Bytes} (absent : ¬ [34, 34, 34] <:+: v)
    (last : v.getLast? ≠ some 34) : ClosesFirst v := by
  intro xs ys split
  rw [List.append_assoc] at split
  obtain ⟨zs, -, same⟩ | ⟨zs, rfl, same⟩ := List.append_eq_append_iff.mp split
  · have := congrArg List.length same
    simp only [List.length_append, List.length_cons, List.length_nil] at this
    exact List.length_eq_zero_iff.mp (by omega)
  · -- Earlier quotes would end inside `v` or behind its last byte.
    match zs with
    | [] => exact List.append_right_eq_self.mp same
    | [c] =>
      obtain ⟨rfl, -⟩ := List.cons.inj same
      exact absurd (List.getLast?_concat ..) last
    | [c, d] =>
      obtain ⟨-, same⟩ := List.cons.inj same
      obtain ⟨rfl, -⟩ := List.cons.inj same
      exact absurd (by simp) last
    | c :: d :: e :: zs =>
      simp only [List.cons_append, List.nil_append, List.cons.injEq] at same
      obtain ⟨rfl, rfl, rfl, -⟩ := same
      exact absurd ⟨xs, zs, by simp⟩ absent

end Lexer

open Lexer

def printing (text : Bytes) : Bytes := bytes "println" ++ (bytes "(" ++ (text ++ bytes ")"))

section Printing
variable {text : Bytes} {kind : TokenKind}

theorem tokens_printing (h : Munch text (some 41) kind none) : ∃ closing ending : Location,
    (lex (printing text)).stream.tokens.toList =
      [⟨.kwPrintln, 0, 7, ⟨1, 1⟩⟩, ⟨.lparen, 7, 8, ⟨1, 8⟩⟩, ⟨kind, 8, 8 + text.length, ⟨1, 9⟩⟩,
        ⟨.rparen, 8 + text.length, 8 + text.length + 1, closing⟩,
        ⟨.eof, 8 + text.length + 1, 8 + text.length + 1, ending⟩] := by
  have keyword : Munch (bytes "println") (bytes "(" ++ (text ++ bytes ")")).head?
      .kwPrintln none := by
    have word : TokenKind.kwPrintln = .ofWord (bytes "println") := by decide
    rw [word]
    exact .word (by decide) (List.all_eq_true.mp (by decide)) (by rintro c ⟨⟩; decide)
  have opening : Munch (bytes "(") (text ++ bytes ")").head? .lparen none :=
    .symbol (by decide) nofun
  have argument : Munch text (bytes ")").head? kind none := h
  have closing : Munch (bytes ")") ([] : Bytes).head? .rparen none := .symbol (by decide) nofun
  have behind := lexemes_munch_append closing
    (((Position.start.after (bytes "println")).after (bytes "(")).after text)
  rw [List.append_nil] at behind
  rw [lex_tokens, printing, lexemes_munch_append keyword, lexemes_munch_append opening,
    lexemes_munch_append argument, behind, lexemes_nil]
  have first : Position.start.after (bytes "println") = ⟨7, 1, 8⟩ := by decide
  have second : (⟨7, 1, 8⟩ : Position).after (bytes "(") = ⟨8, 1, 9⟩ := by decide
  simp only [first, second, List.map_cons, List.map_nil, Position.offset_after]
  exact ⟨_, _, rfl⟩

theorem lex_printing_valid (h : Munch text (some 41) kind none) (valid : kind ≠ .invalid) :
    (lex (printing text)).invalid = [] := by
  obtain ⟨closing, ending, tokens⟩ := tokens_printing h
  rw [lex_invalid_eq_nil]
  intro t ht
  rw [← Array.mem_toList_iff, tokens] at ht
  simp only [List.mem_cons, List.not_mem_nil, or_false] at ht
  rcases ht with rfl | rfl | rfl | rfl | rfl
  · exact TokenKind.noConfusion
  · exact TokenKind.noConfusion
  · exact valid
  · exact TokenKind.noConfusion
  · exact TokenKind.noConfusion

def Store.printing (l : Literal) : Store where
  nodes := #[⟨2, 2, some 0, l.shape 0⟩, ⟨0, 3, some 1, .println 0⟩]
  types := #[.primitive l.type, .primitive .unit]
  objects := l.objects 2
  stmts := #[1]

theorem Store.ofStatements_single (l : Literal) :
    Store.ofStatements [⟨0, 2, l, 3⟩] = .printing l := by
  cases l <;> rfl

theorem significant_printing (h : Munch text (some 41) kind none) (seen : kind ≠ .comment) :
    ∃ closing ending : Location, (lex (printing text)).stream.significant =
      [(⟨.kwPrintln, 0, 7, ⟨1, 1⟩⟩, 0), (⟨.lparen, 7, 8, ⟨1, 8⟩⟩, 1),
        (⟨kind, 8, 8 + text.length, ⟨1, 9⟩⟩, 2),
        (⟨.rparen, 8 + text.length, 8 + text.length + 1, closing⟩, 3),
        (⟨.eof, 8 + text.length + 1, 8 + text.length + 1, ending⟩, 4)] := by
  obtain ⟨closing, ending, tokens⟩ := tokens_printing h
  refine ⟨closing, ending, ?_⟩
  rw [TokenStream.significant, tokens, List.filter_eq_self.mpr]
  · rfl
  · intro x hx
    simp only [List.zipIdx_cons, List.zipIdx_nil, List.mem_cons, List.not_mem_nil, or_false] at hx
    rcases hx with rfl | rfl | rfl | rfl | rfl
    · rfl
    · rfl
    · exact bne_iff_ne.mpr seen
    · rfl
    · rfl

theorem text_argument :
    (⟨kind, 8, 8 + text.length, ⟨1, 9⟩⟩ : Token).text (printing text) = text := by
  change ((text ++ bytes ")").take (8 + text.length - 8)) = text
  rw [Nat.add_sub_cancel_left, List.take_left]

theorem parse_printing (h : Munch text (some 41) kind none) (literal : kind ∈ Literal.kinds)
    (file : Bytes) : parse file (lex (printing text)).stream =
      match Literal.ofToken 2 kind text with
      | .ok l => .ok ⟨file, (lex (printing text)).stream, .printing l⟩
      | .error e => .error ((lex (printing text)).stream.rejected file e) := by
  have seen : kind ≠ .comment := by
    rintro rfl
    exact absurd literal (by decide)
  obtain ⟨closing, ending, tokens⟩ := significant_printing h seen
  have source : (lex (printing text)).stream.source = printing text := rfl
  rw [parse, tokens, source, Parser.statements, if_pos rfl, Parser.statements, if_pos rfl,
    Parser.statements, text_argument]
  cases Literal.ofToken 2 kind text with
  | error e => rfl
  | ok l =>
    dsimp only
    rw [← Store.ofStatements_single]
    rfl

end Printing

/-- The source has no invalid token and is read to the program that prints the literal. -/
def ReadsAs (file source : Bytes) (l : Literal) : Prop :=
  (lex source).invalid = [] ∧
    parse file (lex source).stream = .ok ⟨file, (lex source).stream, .printing l⟩

/-- The source has no invalid token and is refused at its argument, an integer beyond the type. -/
def Overflows (file text : Bytes) (type : TypeKind) : Prop :=
  (lex (printing text)).invalid = [] ∧ ∃ e, parse file (lex (printing text)).stream = .error e ∧
    e.kind = .invalidLiteral ∧ e.loc = ⟨1, 9⟩ ∧ e.mark = ⟨.integer, 8, (8 + text.length : Nat)⟩ ∧
    e.detail = bytes "integer literal " ++ text ++ bytes " does not fit in " ++ type.name

section Values
variable {text : Bytes} {kind : TokenKind} {l : Literal}

theorem readsAs_printing (h : Munch text (some 41) kind none) (reads : Literal.Reads kind text l)
    (file : Bytes) : ReadsAs file (printing text) l := by
  have valid : kind ≠ .invalid := by
    rintro rfl
    cases reads
  refine ⟨lex_printing_valid h valid, ?_⟩
  rw [parse_printing h reads.kind_mem, Literal.ofToken_of_reads reads]

theorem overflows_printing {type : TypeKind} (h : Munch text (some 41) .integer none)
    (large : Literal.ofInteger text = .error type) (file : Bytes) : Overflows file text type := by
  obtain ⟨closing, ending, tokens⟩ := significant_printing h (by decide)
  have found : (lex (printing text)).stream.tokens[2]? =
      some ⟨.integer, 8, 8 + text.length, ⟨1, 9⟩⟩ := by
    refine (TokenStream.mem_significant.mp ?_).1
    rw [tokens]
    exact .tail _ (.tail _ (.head _))
  refine ⟨lex_printing_valid h (by decide),
    (lex (printing text)).stream.rejected file (.tooLarge 2 type), ?_, ?_⟩
  · rw [parse_printing h (by decide), Literal.ofToken, large]
  · rw [TokenStream.rejected, TokenStream.parseError_eq found, TokenStream.text_eq found]
    exact ⟨rfl, rfl, rfl, by rw [show (lex (printing text)).stream.source = printing text from rfl,
      text_argument]⟩

theorem reads_integer {n limit : Nat} {type : TypeKind} {literal : Int64 → Literal}
    (h : Munch text (some 41) .integer none) (machine : limit ≤ 2 ^ 63)
    (read : Literal.ofInteger text =
      if n < limit then .ok (literal (Int64.ofInt n)) else .error type) (file : Bytes) :
    if n < limit then ∃ v : Int64, v.toInt = n ∧ ReadsAs file (printing text) (literal v)
    else Overflows file text type := by
  split
  · next fits =>
    rw [if_pos fits] at read
    refine ⟨.ofInt n, Literal.toInt_ofInt_natCast (by omega), lex_printing_valid h (by decide), ?_⟩
    rw [parse_printing h (by decide), Literal.ofToken, read]
  · next large =>
    rw [if_neg large] at read
    exact overflows_printing h read file

end Values

def delimiter (text : Bytes) : Bytes :=
  if Bytes.startsWith text [34, 34, 34] then [34, 34, 34] else [34]

theorem Lexer.Quoted.delimited {text value : Bytes} (h : Quoted text value) :
    delimiter text ++ value ++ delimiter text = text := by
  obtain rfl | ⟨plain, rfl⟩ := h
  · rw [delimiter, if_pos (Literal.startsWith_triple value)]
  · rw [delimiter, if_neg (Literal.not_startsWith_triple plain)]
    rfl

theorem object_token {file source : Bytes} {p : Program}
    (h : parse file (lex source).stream = .ok p) {o : StringObject} (mem : o ∈ p.store.objects) :
    ∃ (i : Nat) (t : Token), o.token = i ∧ (lex source).stream.tokens[i]? = some t ∧
      t.kind = .string ∧
      delimiter (t.text source) ++ o.value ++ delimiter (t.text source) = t.text source := by
  obtain ⟨phrases, grammatical, -, -, represents⟩ := represents_of_parse h
  obtain ⟨k, found⟩ := List.mem_iff_getElem?.mp (Array.mem_toList_iff.mpr mem)
  obtain ⟨phrase, at_k, token, quoted⟩ := exists_getElem?_of_forall₂ represents.objects found
  obtain ⟨inside, kind⟩ := List.mem_filter.mp (List.mem_of_getElem? at_k)
  obtain ⟨e, -, split⟩ := grammatical.split
  have seen : phrase.argument ∈ (lex source).stream.significant := by
    rw [split]
    refine List.mem_append_left _ (List.mem_flatMap.mpr ⟨phrase, inside, ?_⟩)
    simp [Phrase.tokens]
  exact ⟨_, _, token, (TokenStream.mem_significant.mp seen).1, beq_iff_eq.mp kind, quoted.delimited⟩

/-- What is written between the delimiters of a literal is what the program keeps, up to the exact
limits of the integers; and what a program keeps of a string is what stands between its quotes. -/
theorem literals_survive (file : Bytes) :
    (∀ v, 34 ∉ v → 10 ∉ v → ReadsAs file (printing ([34] ++ v ++ [34])) (.string v)) ∧
    (∀ v, ¬ [34, 34, 34] <:+: v → v.getLast? ≠ some 34 →
      ReadsAs file (printing ([34, 34, 34] ++ v ++ [34, 34, 34])) (.string v)) ∧
    (∀ b, b ≠ 39 → b ≠ 10 → ReadsAs file (printing [39, b, 39]) (.char b)) ∧
    (∀ zeros n : Nat, if n < 2 ^ 31 then
        ∃ v : Int64, v.toInt = n ∧ ReadsAs file (printing (paddedDecimal zeros n)) (.int v)
      else Overflows file (paddedDecimal zeros n) .int) ∧
    (∀ zeros n : Nat, if n < 2 ^ 63 then
        ∃ v : Int64, v.toInt = n ∧ ReadsAs file (printing (paddedDecimal zeros n ++ [76])) (.long v)
      else Overflows file (paddedDecimal zeros n ++ [76]) .long) ∧
    ∀ source p, parse file (lex source).stream = .ok p → ∀ o ∈ p.store.objects,
      ∃ (i : Nat) (t : Token), o.token = i ∧ (lex source).stream.tokens[i]? = some t ∧
        t.kind = .string ∧
        delimiter (t.text source) ++ o.value ++ delimiter (t.text source) = t.text source := by
  refine ⟨?_, ?_, ?_, ?_, ?_, ?_⟩
  · intro v quote line
    have munch : Munch ([34] ++ v ++ [34]) (some 41) .string none :=
      .string ⟨quote, line⟩ (fun _ => by decide)
    exact readsAs_printing munch (.string (.inr ⟨quote, rfl⟩)) file
  · intro v absent last
    have munch : Munch ([34, 34, 34] ++ v ++ [34, 34, 34]) (some 41) .string none :=
      .multiLine (closesFirst_of_absent absent last)
    exact readsAs_printing munch (.string (.inl rfl)) file
  · intro b mark line
    exact readsAs_printing (.char ⟨mark, line⟩) (.char b) file
  · intro zeros n
    have ne := paddedDecimal_ne_nil zeros n
    have digits := paddedDecimal_digits zeros n
    have munch : Munch (paddedDecimal zeros n) (some 41) .integer none :=
      munch_digits ne digits (by rintro c ⟨⟩; decide)
    refine reads_integer munch (by decide) ?_ file
    rw [Literal.ofInteger_digits ne digits, digitsValue_paddedDecimal]
  · intro zeros n
    have ne := paddedDecimal_ne_nil zeros n
    have digits := paddedDecimal_digits zeros n
    refine reads_integer (munch_long _ ne digits) (by decide) ?_ file
    rw [Literal.ofInteger_long ne digits, digitsValue_paddedDecimal]
  · intro source p read o mem
    exact object_token read mem

/-- An empty string, quotes in front of a text, a byte that is no text, and both limits with the
number behind each. -/
theorem hard_literals_survive :
    let file := bytes "a.kt"
    let text := bytes "\"\"\"\"\"x\n\"\"\""
    let source := printing text
    (34 ∉ ([] : Bytes) ∧ 10 ∉ ([] : Bytes) ∧ ReadsAs file (printing (bytes "\"\"")) (.string [])) ∧
    (¬ [34, 34, 34] <:+: bytes "\"\"x\n" ∧ (bytes "\"\"x\n").getLast? ≠ some 34 ∧
      ReadsAs file source (.string (bytes "\"\"x\n"))) ∧
    ReadsAs file (printing [39, 255, 39]) (.char 255) ∧
    (∃ v : Int64, v.toInt = 2147483647 ∧ ReadsAs file (printing (bytes "002147483647")) (.int v)) ∧
    Overflows file (bytes "2147483648") .int ∧
    (∃ v : Int64, v.toInt = 9223372036854775807 ∧
      ReadsAs file (printing (bytes "9223372036854775807L")) (.long v)) ∧
    Overflows file (bytes "09223372036854775808L") .long ∧
    ∃ p, parse file (lex source).stream = .ok p ∧ ∃ o ∈ p.store.objects, ∃ (i : Nat) (t : Token),
      o.token = i ∧ (lex source).stream.tokens[i]? = some t ∧ t.kind = .string ∧
      delimiter (t.text source) ++ o.value ++ delimiter (t.text source) = t.text source := by
  intro file text source
  obtain ⟨single, triple, char, int, long, back⟩ := literals_survive file
  have absent : ¬ [34, 34, 34] <:+: bytes "\"\"x\n" := by decide +kernel
  have last : (bytes "\"\"x\n").getLast? ≠ some 34 := by decide +kernel
  have quotes : source = printing ([34, 34, 34] ++ bytes "\"\"x\n" ++ [34, 34, 34]) := by
    decide +kernel
  have read := triple _ absent last
  rw [← quotes] at read
  refine ⟨⟨nofun, nofun, ?_⟩, ⟨absent, last, read⟩, char 255 (by decide) (by decide), ?_, ?_, ?_,
    ?_, _, read.2, ⟨2, bytes "\"\"x\n"⟩, .mk (.head _), back source _ read.2 _ (.mk (.head _))⟩
  · exact single [] nofun nofun
  · have := int 2 2147483647
    rwa [if_pos (by decide),
      show paddedDecimal 2 2147483647 = bytes "002147483647" by decide +kernel]
      at this
  · have := int 0 2147483648
    rwa [if_neg (by decide), show paddedDecimal 0 2147483648 = bytes "2147483648" by decide +kernel]
      at this
  · have := long 0 9223372036854775807
    rwa [if_pos (by decide), show paddedDecimal 0 9223372036854775807 ++ [76] =
      bytes "9223372036854775807L" by decide +kernel] at this
  · have := long 1 9223372036854775808
    rwa [if_neg (by decide), show paddedDecimal 1 9223372036854775808 ++ [76] =
      bytes "09223372036854775808L" by decide +kernel] at this

end PrintLang
