import PrintLang.Proofs.Program.Grammar

/-!
# The first token that no program has there

The tokens still to come in a phase of the reader form a language of their own, `Phase.Rest`, and a
token that is read takes it to the language of the next phase. So the tokens that were read are the
beginning of a sentence, the token that stops the reader is the first that makes them none, and what
the reader waits for is what may stand in its place.
-/

set_option autoImplicit false

namespace PrintLang

/-- The kinds of the tokens of a program: one statement or more, and the end of input. -/
inductive Sentence : List TokenKind → Prop where
  | last {k : TokenKind} (literal : k ∈ Literal.kinds) :
      Sentence [.kwPrintln, .lparen, k, .rparen, .eof]
  | more {k : TokenKind} {ks : List TokenKind} (literal : k ∈ Literal.kinds) (rest : Sentence ks) :
      Sentence (.kwPrintln :: .lparen :: k :: .rparen :: ks)

def Viable (ks : List TokenKind) : Prop := ∃ s, Sentence s ∧ ks <+: s

/-- An integer that does not fit its type is no terminal of the grammar. -/
def Token.IsTerminal (source : Bytes) (t : Token) : Prop :=
  t.kind = .integer → Literal.IntegerFits (t.text source)

def tokenKinds (tokens : List (Token × Nat)) : List TokenKind := tokens.map fun x => x.1.kind

/-- The tokens begin a sentence. -/
def ViableTokens (source : Bytes) (tokens : List (Token × Nat)) : Prop :=
  (∀ x ∈ tokens, x.1.IsTerminal source) ∧ Viable (tokenKinds tokens)

def InArgument (before : List TokenKind) : Prop := [.kwPrintln, .lparen] <:+ before

theorem viable_iff {ks : List TokenKind} : Viable ks ↔ ∃ s, Sentence (ks ++ s) := by
  constructor
  · rintro ⟨_, sentence, s, rfl⟩
    exact ⟨s, sentence⟩
  · rintro ⟨s, sentence⟩
    exact ⟨_, sentence, List.prefix_append ks s⟩

theorem ViableTokens.of_prefix {source : Bytes} {front tokens : List (Token × Nat)}
    (h : ViableTokens source tokens) (part : front <+: tokens) : ViableTokens source front := by
  obtain ⟨terminals, s, sentence, start⟩ := h
  exact ⟨fun x hx => terminals x (part.subset hx), s, sentence, (part.map _).trans start⟩

theorem Literal.ofToken_of_not_mem {i : Nat} {kind : TokenKind} {text : Bytes} (h : kind ∉ kinds) :
    ofToken i kind text = .error (.unexpected i kinds) := by
  unfold ofToken
  split <;> first
    | rfl
    | exact absurd (by decide) h

namespace Phase

/-- What may follow in a phase: what makes a sentence of the part of a statement read so far. -/
def Rest : Phase → List TokenKind → Prop
  | .keyword started, s => Sentence s ∨ started = true ∧ s = [.eof]
  | .opening _, s => Sentence (.kwPrintln :: s)
  | .argument _, s => Sentence (.kwPrintln :: .lparen :: s)
  | .closing _ _ _, s => ∃ k ∈ Literal.kinds, Sentence (.kwPrintln :: .lparen :: k :: s)

def expected : Phase → List TokenKind
  | .keyword _ => [.kwPrintln]
  | .opening _ => [.lparen]
  | .argument _ => Literal.kinds
  | .closing _ _ _ => [.rparen]

inductive Step (source : Bytes) : Phase → Token × Nat → Phase → Prop where
  | keyword {started : Bool} {t : Token} {i : Nat} (h : t.kind = .kwPrintln) :
      Step source (.keyword started) (t, i) (.opening i)
  | opening {first : Nat} {t : Token} {i : Nat} (h : t.kind = .lparen) :
      Step source (.opening first) (t, i) (.argument first)
  | argument {first : Nat} {t : Token} {i : Nat} {l : Literal}
      (h : Literal.Reads t.kind (t.text source) l) :
      Step source (.argument first) (t, i) (.closing first i l)
  | closing {first token : Nat} {l : Literal} {t : Token} {i : Nat} (h : t.kind = .rparen) :
      Step source (.closing first token l) (t, i) (.keyword true)

inductive Run (source : Bytes) : Phase → List (Token × Nat) → Phase → Prop where
  | nil (p : Phase) : Run source p [] p
  | cons {p q r : Phase} {x : Token × Nat} {xs : List (Token × Nat)} (step : Step source p x q)
      (run : Run source q xs r) : Run source p (x :: xs) r

/-- A token that stops the reader, and what it says. -/
inductive Refuses (source : Bytes) : Phase → Token × Nat → Rejection → Prop where
  | unexpected {p : Phase} {t : Token} {i : Nat} (other : t.kind ∉ p.expected)
      (unfinished : ¬(t.kind = .eof ∧ p = .keyword true)) :
      Refuses source p (t, i) (.unexpected i p.expected)
  | tooLarge {first : Nat} {t : Token} {i : Nat} {type : TypeKind} (integer : t.kind = .integer)
      (large : ¬Literal.IntegerFits (t.text source)) :
      Refuses source (.argument first) (t, i) (.tooLarge i type)

variable {source : Bytes} {p q r : Phase} {x : Token × Nat} {xs : List (Token × Nat)}
  {k : TokenKind} {s : List TokenKind}

theorem Step.rest (h : Step source p x q) (s : List TokenKind) :
    p.Rest (x.1.kind :: s) ↔ q.Rest s := by
  cases h with
  | keyword kind =>
    rw [kind]
    simp [Rest]
  | opening kind =>
    rw [kind]
    exact Iff.rfl
  | argument reads =>
    constructor
    · exact fun h => ⟨_, reads.kind_mem, h⟩
    · rintro ⟨k, -, h⟩
      cases h with
      | last => exact .last reads.kind_mem
      | more _ rest => exact .more reads.kind_mem rest
  | closing kind =>
    rw [kind]
    constructor
    · rintro ⟨k, -, h⟩
      cases h with
      | last => exact .inr ⟨rfl, rfl⟩
      | more _ rest => exact .inl rest
    · rintro (rest | ⟨-, rfl⟩)
      · exact ⟨.kwTrue, by decide, .more (by decide) rest⟩
      · exact ⟨.kwTrue, by decide, .last (by decide)⟩

theorem Step.isTerminal (h : Step source p x q) : x.1.IsTerminal source := by
  cases h with
  | keyword kind => exact fun integer => nomatch kind.symm.trans integer
  | opening kind => exact fun integer => nomatch kind.symm.trans integer
  | argument reads => exact reads.integerFits
  | closing kind => exact fun integer => nomatch kind.symm.trans integer

theorem Run.rest (h : Run source p xs q) (s : List TokenKind) :
    p.Rest (tokenKinds xs ++ s) ↔ q.Rest s := by
  induction h with
  | nil => exact Iff.rfl
  | cons step _ ih => exact (step.rest _).trans ih

theorem Run.isTerminal (h : Run source p xs q) : ∀ x ∈ xs, x.1.IsTerminal source := by
  induction h with
  | nil => exact List.forall_mem_nil _
  | cons step _ ih => exact List.forall_mem_cons.mpr ⟨step.isTerminal, ih⟩

theorem Run.concat (h : Run source p (xs ++ [x]) r) :
    ∃ q, Run source p xs q ∧ Step source q x r := by
  induction xs generalizing p with
  | nil =>
    obtain _ | ⟨step, _ | _⟩ := h
    exact ⟨p, .nil p, step⟩
  | cons y ys ih =>
    obtain _ | ⟨step, run⟩ := h
    obtain ⟨q, front, last⟩ := ih run
    exact ⟨q, .cons step front, last⟩

theorem Run.sentence_iff (h : Run source (.keyword false) xs q) (s : List TokenKind) :
    Sentence (tokenKinds xs ++ s) ↔ q.Rest s := by
  rw [← h.rest s, Rest, or_iff_left (fun started => Bool.false_ne_true started.1)]

theorem Run.viable_iff (h : Run source (.keyword false) xs q) (ks : List TokenKind) :
    Viable (tokenKinds xs ++ ks) ↔ ∃ s, q.Rest (ks ++ s) := by
  rw [PrintLang.viable_iff]
  exact exists_congr fun s => by rw [List.append_assoc, h.sentence_iff]

/-- What the reader waits for is what may come next, but for the end of input. -/
theorem exists_rest_iff (p : Phase) (k : TokenKind) :
    (∃ s, p.Rest (k :: s)) ↔ k ∈ p.expected ∨ k = .eof ∧ p = .keyword true := by
  have mem : TokenKind.kwTrue ∈ Literal.kinds := by decide
  cases p with
  | keyword started =>
    constructor
    · rintro ⟨s, sentence | ⟨rfl, same⟩⟩
      · cases sentence <;> exact .inl (.head _)
      · cases same
        exact .inr ⟨rfl, rfl⟩
    · rintro (member | ⟨rfl, same⟩)
      · obtain rfl := List.mem_singleton.mp member
        exact ⟨_, .inl (.last mem)⟩
      · cases same
        exact ⟨[], .inr ⟨rfl, rfl⟩⟩
  | opening first =>
    constructor
    · rintro ⟨s, sentence⟩
      cases sentence <;> exact .inl (.head _)
    · rintro (member | ⟨-, same⟩)
      · obtain rfl := List.mem_singleton.mp member
        exact ⟨_, .last mem⟩
      · cases same
  | argument first =>
    constructor
    · rintro ⟨s, sentence⟩
      cases sentence with
      | last literal => exact .inl literal
      | more literal => exact .inl literal
    · rintro (member | ⟨-, same⟩)
      · exact ⟨_, .last member⟩
      · cases same
  | closing first token l =>
    constructor
    · rintro ⟨s, _, -, sentence⟩
      cases sentence <;> exact .inl (.head _)
    · rintro (member | ⟨-, same⟩)
      · obtain rfl := List.mem_singleton.mp member
        exact ⟨_, .kwTrue, mem, .last mem⟩
      · cases same

theorem exists_rest (p : Phase) : ∃ s, p.Rest s := by
  have next : ∃ k, k ∈ p.expected := by
    cases p <;> exact ⟨_, .head _⟩
  obtain ⟨k, member⟩ := next
  obtain ⟨s, rest⟩ := (p.exists_rest_iff k).mpr (.inl member)
  exact ⟨_, rest⟩

/-- Only the opening parenthesis of a statement leads to its argument. -/
theorem Run.inArgument_iff (h : Run source (.keyword false) xs q) :
    InArgument (tokenKinds xs) ↔ ∃ first, q = .argument first := by
  obtain rfl | ⟨front, x, rfl⟩ := xs.eq_nil_or_concat
  · obtain _ | _ := h
    constructor
    · intro suffix
      cases List.suffix_nil.mp suffix
    · rintro ⟨first, same⟩
      cases same
  · rw [List.concat_eq_append] at h ⊢
    obtain ⟨q', run, step⟩ := h.concat
    constructor
    · rintro ⟨before, same⟩
      have kind : x.1.kind = .lparen := by
        have := congrArg List.getLast? same
        simpa [tokenKinds] using this.symm
      cases step with
      | keyword other => cases other.symm.trans kind
      | opening => exact ⟨_, rfl⟩
      | argument reads => exact absurd (kind ▸ reads.kind_mem) (by decide)
      | closing other => cases other.symm.trans kind
    · rintro ⟨first, rfl⟩
      obtain _ | opening := step
      obtain rfl | ⟨front, y, rfl⟩ := front.eq_nil_or_concat
      · cases run
      · rw [List.concat_eq_append] at run ⊢
        obtain ⟨_, -, step⟩ := run.concat
        cases step with
        | keyword keyword => exact ⟨tokenKinds front, by simp [tokenKinds, opening, keyword]⟩

/-- The reader meets a token that its phase refuses behind tokens that it reads. -/
def Stops (source : Bytes) (p : Phase) (tokens : List (Token × Nat)) (e : Rejection) : Prop :=
  ∃ front x rest q, tokens = front ++ x :: rest ∧ Run source p front q ∧ Refuses source q x e

theorem Stops.here {e : Rejection} (h : Refuses source p x e) : Stops source p (x :: xs) e :=
  ⟨[], x, xs, p, rfl, .nil p, h⟩

theorem Stops.later {e : Rejection} (step : Step source p x q) (h : Stops source q xs e) :
    Stops source p (x :: xs) e := by
  obtain ⟨front, y, rest, r, rfl, run, refuses⟩ := h
  exact ⟨x :: front, y, rest, r, rfl, .cons step run, refuses⟩

theorem refuses_argument {first i : Nat} {t : Token} {e : Rejection}
    (form : Lexer.LiteralText t.kind (t.text source))
    (h : Literal.ofToken i t.kind (t.text source) = .error e) :
    Refuses source (.argument first) (t, i) e := by
  by_cases literal : t.kind ∈ Literal.kinds
  · -- Only an integer can be a literal without a value.
    by_cases fits : t.IsTerminal source
    · obtain ⟨l, reads⟩ := Literal.exists_reads form literal fits
      rw [Literal.ofToken_of_reads reads] at h
      cases h
    · obtain ⟨integer, large⟩ := Classical.not_imp.mp fits
      rw [integer, Literal.ofToken] at h
      split at h
      · cases h
      · cases h
        exact .tooLarge integer large
  · rw [Literal.ofToken_of_not_mem literal] at h
    cases h
    exact .unexpected (p := .argument _) literal (by rintro ⟨-, ⟨⟩⟩)

end Phase

namespace Parser

/-- The reader stops at a token that its phase refuses, and the tokens before it were read. -/
theorem stops_of_error {source : Bytes} {p : Phase} {tokens : List (Token × Nat)} {e : Rejection}
    (forms : ∀ x ∈ tokens, Lexer.LiteralText x.1.kind (x.1.text source))
    (h : statements source p tokens = .error e) : p.Stops source tokens e := by
  fun_induction statements source p tokens generalizing e with
  | case1 => cases h
  | case2 _ t i rest kind ih =>
    exact .later (.keyword kind) (ih (List.forall_mem_cons.mp forms).2 h)
  | case3 => cases h
  | case4 _ t i rest other unfinished =>
    cases h
    refine .here (.unexpected (p := .keyword _) (mt List.mem_singleton.mp other) ?_)
    rintro ⟨eof, same⟩
    cases same
    exact unfinished ⟨eof, rfl⟩
  | case5 _ t i rest kind ih =>
    exact .later (.opening kind) (ih (List.forall_mem_cons.mp forms).2 h)
  | case6 _ t i rest other =>
    cases h
    exact .here (.unexpected (p := .opening _) (mt List.mem_singleton.mp other)
      fun h => nomatch h.2)
  | case7 _ t i rest l read ih =>
    obtain ⟨form, forms⟩ := List.forall_mem_cons.mp forms
    exact .later (.argument (Literal.reads_of_ofToken form read)) (ih forms h)
  | case8 _ t i rest _ read =>
    cases h
    exact .here (Phase.refuses_argument (List.forall_mem_cons.mp forms).1 read)
  | case9 => cases h
  | case10 _ _ _ t i rest kind _ _ ih =>
    cases h
    exact .later (.closing kind) (ih (List.forall_mem_cons.mp forms).2 ‹_›)
  | case11 _ _ _ t i rest other =>
    cases h
    exact .here (.unexpected (p := .closing _ _ _) (mt List.mem_singleton.mp other)
      fun h => nomatch h.2)

end Parser

section Stopped
variable {source : Bytes} {front rest : List (Token × Nat)} {x : Token × Nat} {q : Phase}
  {e : Rejection}

theorem Phase.Run.viable (h : Run source (.keyword false) front q) : ViableTokens source front := by
  refine ⟨h.isTerminal, ?_⟩
  rw [← List.append_nil (tokenKinds front), h.viable_iff]
  exact q.exists_rest

theorem Phase.Refuses.not_viable (h : Refuses source q x e)
    (run : Run source (.keyword false) front q) : ¬ViableTokens source (front ++ [x]) := by
  rintro ⟨terminals, viable⟩
  rw [tokenKinds, List.map_append, ← tokenKinds, run.viable_iff] at viable
  cases h with
  | unexpected other unfinished =>
    exact ((q.exists_rest_iff _).mp viable).elim other unfinished
  | tooLarge integer large =>
    exact large (terminals _ (List.mem_append_right _ List.mem_cons_self) integer)

/-- Beginnings are viable up to the token that is refused. -/
theorem Phase.Refuses.viable_take_iff (h : Refuses source q x e)
    (run : Run source (.keyword false) front q) (n : Nat) :
    ViableTokens source ((front ++ x :: rest).take n) ↔ n ≤ front.length := by
  constructor
  · intro viable
    by_contra past
    refine h.not_viable run (viable.of_prefix ?_)
    refine List.prefix_take_iff.mpr ⟨⟨rest, by simp⟩, ?_⟩
    rw [List.length_append, List.length_singleton]
    omega
  · intro before
    rw [List.take_append_of_le_length before]
    exact run.viable.of_prefix (List.take_prefix n front)

/-- The refusal names an integer exactly when one that is too large stands for the argument. -/
theorem Phase.Refuses.tooLarge_iff {t : Token} {i : Nat} (h : Refuses source q (t, i) e)
    (run : Run source (.keyword false) front q) : (∃ type, e = .tooLarge i type) ↔
      t.kind = .integer ∧ ¬Literal.IntegerFits (t.text source) ∧ InArgument (tokenKinds front) := by
  rw [run.inArgument_iff]
  cases h with
  | unexpected other _ =>
    constructor
    · rintro ⟨type, same⟩
      cases same
    · rintro ⟨integer, -, first, rfl⟩
      rw [integer] at other
      exact absurd (show TokenKind.integer ∈ Literal.kinds by decide) other
  | tooLarge integer large => exact ⟨fun _ => ⟨integer, large, _, rfl⟩, fun _ => ⟨_, rfl⟩⟩

theorem Phase.Run.expected_iff (run : Run source (.keyword false) front q) (k : TokenKind) :
    Viable (tokenKinds front ++ [k]) ↔
      k ∈ q.expected ∨ k = .eof ∧ Sentence (tokenKinds front ++ [.eof]) := by
  rw [run.viable_iff, run.sentence_iff]
  refine (q.exists_rest_iff k).trans (or_congr_right (and_congr_right fun _ => ?_))
  constructor
  · rintro rfl
    exact .inr ⟨rfl, rfl⟩
  · intro last
    refine ((q.exists_rest_iff .eof).mp ⟨[], last⟩).elim (fun member => ?_) And.right
    cases q <;> exact absurd member (by simp [Phase.expected, Literal.kinds])

end Stopped

/-- A syntax error is at the first token that takes the tokens before it out of every program. -/
theorem syntax_error_at_first_nonviable {file source : Bytes} {e : ParseError}
    (h : parse file (lex source).stream = .error e) :
    ∃ (m : Nat) (t : Token) (i : Nat), (lex source).stream.significant[m]? = some (t, i) ∧
      (∀ n, ViableTokens source ((lex source).stream.significant.take n) ↔ n ≤ m) ∧
      e.file = file ∧ e.loc = t.loc ∧ e.got = t.kind ∧ e.mark = t.mark ∧
      let before := tokenKinds ((lex source).stream.significant.take m)
      (e.kind = .invalidLiteral ↔
        t.kind = .integer ∧ ¬Literal.IntegerFits (t.text source) ∧ InArgument before) ∧
      (e.kind = .unexpectedToken → (∀ k ∈ e.expected, Viable (before ++ [k])) ∧
        ∀ k, Viable (before ++ [k]) →
          k ∈ e.expected ∨ k = .eof ∧ Sentence (before ++ [.eof])) := by
  rw [parse] at h
  split at h
  · cases h
  · next rejection read =>
    cases h
    obtain ⟨front, ⟨t, i⟩, rest, q, split, run, refuses⟩ :=
      Parser.stops_of_error (lex_significant_literalText source) read
    have found : (lex source).stream.tokens[i]? = some t := by
      refine (TokenStream.mem_significant.mp ?_).1
      rw [split]
      exact List.mem_append_right front List.mem_cons_self
    have before : (front ++ (t, i) :: rest).take front.length = front := List.take_left
    refine ⟨front.length, t, i, ?_, ?_, ?_⟩
    · rw [split, List.getElem?_append_right (Nat.le_refl _), Nat.sub_self]
      rfl
    · rw [split]
      exact refuses.viable_take_iff run
    · rw [split, before]
      have named := refuses.tooLarge_iff run
      cases refuses with
      | unexpected other unfinished =>
        rw [TokenStream.rejected, TokenStream.parseError_eq found]
        refine ⟨rfl, rfl, rfl, rfl, ⟨?_, fun large => ?_⟩, fun _ =>
          ⟨fun k wanted => ?_, fun k => ?_⟩⟩
        · rintro ⟨⟩
        · obtain ⟨type, same⟩ := named.mpr large
          cases same
        · exact (run.expected_iff k).mpr (.inl wanted)
        · exact (run.expected_iff k).mp
      | tooLarge =>
        rw [TokenStream.rejected, TokenStream.parseError_eq found]
        refine ⟨rfl, rfl, rfl, rfl, ⟨fun _ => named.mp ⟨_, rfl⟩, fun _ => rfl⟩, ?_⟩
        rintro ⟨⟩

/-- The same integer, too large for its type, as the argument of the second statement and in front
of its parenthesis. -/
theorem misplaced_integer_refused :
    let file := bytes "a.kt"
    let inside := bytes "println(1) // a\nprintln // b\n(99999999999)"
    let outside := bytes "println(1) // a\nprintln // b\n99999999999"
    let refused : ParseError :=
      { kind := .invalidLiteral, file, loc := ⟨3, 2⟩, mark := ⟨.integer, 30, 41⟩, got := .integer
        expected := [], detail := bytes "integer literal 99999999999 does not fit in Int"
        context := bytes "(99999999999)", caret := 1 }
    let unexpected : ParseError :=
      { kind := .unexpectedToken, file, loc := ⟨3, 1⟩, mark := ⟨.integer, 29, 40⟩, got := .integer
        expected := [.lparen], detail := [], context := bytes "99999999999", caret := 0 }
    (parse file (lex inside).stream = .error refused ∧ ∃ m,
      (∀ n, ViableTokens inside ((lex inside).stream.significant.take n) ↔ n ≤ m) ∧
      InArgument (tokenKinds ((lex inside).stream.significant.take m))) ∧
    (parse file (lex outside).stream = .error unexpected ∧ ∃ m,
      (∀ n, ViableTokens outside ((lex outside).stream.significant.take n) ↔ n ≤ m) ∧
      ∀ k, Viable (tokenKinds ((lex outside).stream.significant.take m) ++ [k]) →
        k = .lparen ∨ k = .eof) := by
  intro file inside outside refused unexpected
  have stopped : parse file (lex inside).stream = .error refused := by decide +kernel
  have missing : parse file (lex outside).stream = .error unexpected := by decide +kernel
  obtain ⟨m, _, _, -, first, -, -, -, -, large, -⟩ := syntax_error_at_first_nonviable stopped
  obtain ⟨m', _, _, -, first', -, -, -, -, -, wanted⟩ := syntax_error_at_first_nonviable missing
  refine ⟨⟨stopped, m, first, (large.mp rfl).2.2⟩, missing, m', first', fun k viable => ?_⟩
  exact ((wanted rfl).2 k viable).imp List.mem_singleton.mp And.left

end PrintLang
