import Mathlib.Data.List.TakeWhile
import PrintLang.Proofs.Token.Partition

/-!
# The token grammar

`Munch text next kind defect` is the grammar of tokens with one byte of lookahead: `text` is a token
of that kind when `next` is the byte behind it. Every input that starts with no blank starts with
exactly one such text, and it is the one that `scan` takes; so the rules of the grammar may be read
off every token of a source, and a token is invalid exactly when no valid one starts at its place.
-/

set_option autoImplicit false

namespace PrintLang

namespace Lexer

def symbols : List (UInt8 × TokenKind) :=
  [(0x7b, .lbrace), (0x7d, .rbrace), (40, .lparen), (41, .rparen), (44, .comma), (58, .colon),
   (43, .plus), (45, .minus), (42, .star), (47, .slash), (37, .percent)]

def comparisons : List (UInt8 × TokenKind × TokenKind) :=
  [(61, .assign, .equals), (33, .bang, .bangEq), (60, .less, .lessEq), (62, .greater, .greaterEq)]

def isStray (b : UInt8) : Bool :=
  !(isBlank b || isLetter b || isDigit b || b == 34 || b == 39 ||
    (symbols.map Prod.fst).contains b || (comparisons.map Prod.fst).contains b)

/-- The three quotes behind `s` are the first in the text that they end. -/
def ClosesFirst (s : Bytes) : Prop :=
  ∀ xs ys, s ++ [34, 34, 34] = xs ++ [34, 34, 34] ++ ys → ys = []

inductive Munch : Bytes → Option UInt8 → TokenKind → Option Defect → Prop where
  | comment {s : Bytes} {next : Option UInt8} (line : 10 ∉ s) (stop : ∀ c ∈ next, c = 10) :
      Munch (47 :: 47 :: s) next .comment none
  | word {b : UInt8} {s : Bytes} {next : Option UInt8} (first : isLetter b = true)
      (tail : ∀ c ∈ s, isWord c = true) (stop : ∀ c ∈ next, isWord c = false) :
      Munch (b :: s) next (.ofWord (b :: s)) none
  | integer {b : UInt8} {ds : Bytes} {next : Option UInt8} (first : isDigit b = true)
      (tail : ∀ c ∈ ds, isDigit c = true) (stop : ∀ c ∈ next, isDigit c = false ∧ c ≠ 76) :
      Munch (b :: ds) next .integer none
  | long {b : UInt8} {ds : Bytes} {next : Option UInt8} (first : isDigit b = true)
      (tail : ∀ c ∈ ds, isDigit c = true) : Munch (b :: (ds ++ [76])) next .integer none
  | string {s : Bytes} {next : Option UInt8} (body : 34 ∉ s ∧ 10 ∉ s)
      (single : s = [] → next ≠ some 34) : Munch (34 :: (s ++ [34])) next .string none
  | multiLine {s : Bytes} {next : Option UInt8} (closes : ClosesFirst s) :
      Munch (34 :: 34 :: 34 :: (s ++ [34, 34, 34])) next .string none
  | char {c : UInt8} {next : Option UInt8} (body : c ≠ 39 ∧ c ≠ 10) :
      Munch [39, c, 39] next .char none
  | symbol {b : UInt8} {kind : TokenKind} {next : Option UInt8} (known : (b, kind) ∈ symbols)
      (stop : b = 47 → next ≠ some 47) : Munch [b] next kind none
  | short {b : UInt8} {short long : TokenKind} {next : Option UInt8}
      (known : (b, short, long) ∈ comparisons) (stop : next ≠ some 61) : Munch [b] next short none
  | extended {b : UInt8} {short long : TokenKind} {next : Option UInt8}
      (known : (b, short, long) ∈ comparisons) : Munch [b, 61] next long none
  | openMultiLineString {s : Bytes} (unclosed : ¬ [34, 34, 34] <:+: s) :
      Munch (34 :: 34 :: 34 :: s) none .invalid (some .openMultiLineString)
  | openString {s : Bytes} {next : Option UInt8} (body : 34 ∉ s ∧ 10 ∉ s)
      (stop : ∀ c ∈ next, c = 10) : Munch (34 :: s) next .invalid (some .openString)
  | openChar {s : Bytes} {next : Option UInt8} (body : 39 ∉ s ∧ 10 ∉ s)
      (stop : ∀ c ∈ next, c = 10) : Munch (39 :: s) next .invalid (some .openChar)
  | charLength {s : Bytes} {next : Option UInt8} (body : 39 ∉ s ∧ 10 ∉ s) (length : s.length ≠ 1) :
      Munch (39 :: (s ++ [39])) next .invalid (some .charLength)
  | strayByte {b : UInt8} {next : Option UInt8} (stray : isStray b = true) :
      Munch [b] next .invalid (some .strayByte)

theorem Munch.exists_cons {text : Bytes} {next : Option UInt8} {kind : TokenKind}
    {defect : Option Defect} (h : Munch text next kind defect) : ∃ b w, text = b :: w := by
  cases h <;> exact ⟨_, _, rfl⟩

section Cuts
variable {p : UInt8 → Bool} {body after : Bytes}

theorem exists_cut (p : UInt8 → Bool) (s : Bytes) : ∃ body after, s = body ++ after ∧
    (∀ b ∈ body, p b = true) ∧ ∀ c ∈ after.head?, p c = false := by
  refine ⟨s.takeWhile p, s.dropWhile p, List.takeWhile_append_dropWhile.symm,
    fun b hb => List.mem_takeWhile_imp hb, fun c hc => ?_⟩
  have stop := List.head?_dropWhile_not p s
  rw [Option.mem_def.mp hc] at stop
  exact stop

theorem takeWhile_cut (all : ∀ b ∈ body, p b = true) (stop : ∀ c ∈ after.head?, p c = false) :
    (body ++ after).takeWhile p = body := by
  rw [List.takeWhile_append_of_pos all]
  cases after with
  | nil => simp
  | cons c after => simp [stop c rfl]

theorem exists_quoted (q : UInt8) (s : Bytes) : ∃ body after, s = body ++ after ∧
    (q ∉ body ∧ 10 ∉ body) ∧ ∀ c ∈ after.head?, c = q ∨ c = 10 := by
  obtain ⟨body, after, split, all, stop⟩ := exists_cut (fun b => b != q && b != 10) s
  refine ⟨body, after, split, ⟨fun h => ?_, fun h => ?_⟩, fun c hc => ?_⟩
  · simpa using all q h
  · simpa using all 10 h
  · have := stop c hc
    simp only [Bool.and_eq_false_iff, bne_eq_false_iff_eq] at this
    exact this

theorem takeWhile_quoted {q : UInt8} (all : q ∉ body ∧ 10 ∉ body)
    (stop : ∀ c ∈ after.head?, c = q ∨ c = 10) :
    (body ++ after).takeWhile (fun b => b != q && b != 10) = body := by
  apply takeWhile_cut
  · intro b hb
    have hq : b ≠ q := fun h => all.1 (h ▸ hb)
    have hn : b ≠ 10 := fun h => all.2 (h ▸ hb)
    simp [hq, hn]
  · intro c hc
    rcases stop c hc with rfl | rfl <;> simp

end Cuts

section Closing

theorem closesFirst_of_cons {b : UInt8} {s : Bytes} (h : ClosesFirst (b :: s)) : ClosesFirst s := by
  intro xs ys split
  apply h (b :: xs) ys
  simp [split]

theorem closing?_append {s : Bytes} (h : ClosesFirst s) (after : Bytes) :
    closing? (s ++ 34 :: 34 :: 34 :: after) = some (s.length + 3) := by
  induction s with
  | nil => rfl
  | cons b s ih =>
    rw [List.cons_append, closing?, ih (closesFirst_of_cons h)]
    · simp
    · -- three quotes at the front would be closing ones before the last
      intro tail hb hs
      have same := congrArg (List.take 3) (congrArg₂ List.cons hb hs)
      rw [show b :: (s ++ 34 :: 34 :: 34 :: after) = (b :: s ++ [34, 34, 34]) ++ after by simp,
        List.take_append_of_le_length (by simp)] at same
      have early := h [] ((b :: s ++ [34, 34, 34]).drop 3) (by
        rw [List.nil_append]
        nth_rewrite 1 [← List.take_append_drop 3 (b :: s ++ [34, 34, 34])]
        rw [same]
        rfl)
      have := congrArg List.length early
      simp at this

theorem closing?_eq_some {input : Bytes} {n : Nat} (h : closing? input = some n) :
    ∃ s after, input = s ++ 34 :: 34 :: 34 :: after ∧ ClosesFirst s := by
  induction input using closing?.induct generalizing n with
  | case1 tail =>
    refine ⟨[], tail, rfl, fun xs ys split => ?_⟩
    have := congrArg List.length split
    simp at this
    exact List.length_eq_zero_iff.mp (by omega)
  | case2 b rest hb ih =>
    rw [closing?.eq_2 b rest hb] at h
    obtain ⟨k, hk, -⟩ := Option.map_eq_some_iff.mp h
    obtain ⟨s, after, rfl, closes⟩ := ih hk
    refine ⟨b :: s, after, rfl, fun xs ys split => ?_⟩
    cases xs with
    | nil =>
      have whole := congrArg (· ++ after) split
      simp only [List.cons_append, List.nil_append, List.append_assoc, List.cons.injEq] at whole
      exact absurd whole.2 (hb _ whole.1)
    | cons x xs =>
      apply closes xs ys
      exact (List.cons.inj split).2
  | case3 => cases h

theorem closing?_eq_none {s : Bytes} : closing? s = none ↔ ¬ [34, 34, 34] <:+: s := by
  constructor
  · rintro none ⟨xs, ys, rfl⟩
    induction xs with
    | nil => simp [closing?] at none
    | cons x xs ih =>
      by_cases front : ∃ tail, x :: (xs ++ [34, 34, 34] ++ ys) = 34 :: 34 :: 34 :: tail
      · obtain ⟨tail, front⟩ := front
        simp only [List.cons_append] at none
        rw [front] at none
        cases none
      · apply ih
        simp only [List.cons_append] at none
        rw [closing?.eq_2] at none
        · exact Option.map_eq_none_iff.mp none
        · rintro tail rfl tail_eq
          exact front ⟨tail, by rw [tail_eq]⟩
  · intro absent
    cases found : closing? s with
    | none => rfl
    | some n =>
      obtain ⟨xs, ys, rfl, -⟩ := closing?_eq_some found
      exact absurd ⟨xs, ys, by simp⟩ absent

end Closing

section Scanners
variable {b : UInt8} {rest : Bytes}

theorem isBlank_of_isWord (h : isWord b = true) : isBlank b = false := by
  rw [Bool.eq_false_iff]
  intro blank
  simp only [isBlank, Bool.or_eq_true, beq_iff_eq] at blank
  rcases blank with ((rfl | rfl) | rfl) | rfl <;> exact absurd h (by decide)

theorem scan_comment (rest : Bytes) : scan 47 (47 :: rest) = scanComment (47 :: rest) := by
  simp [scan]

theorem scan_letter (h : isLetter b = true) : scan b rest = scanWord b rest := by
  have slash : b ≠ 47 := by
    rintro rfl
    exact absurd h (by decide)
  simp [scan, slash, h]

theorem scan_digit (h : isDigit b = true) : scan b rest = scanInteger rest := by
  have slash : b ≠ 47 := by
    rintro rfl
    exact absurd h (by decide)
  have letter : isLetter b = false := by
    rw [Bool.eq_false_iff]
    intro letter
    simp only [isDigit, isLetter, Bool.and_eq_true, Bool.or_eq_true, decide_eq_true_eq, beq_iff_eq,
      UInt8.le_iff_toNat_le, UInt8.reduceToNat] at h letter
    rcases letter with (low | high) | rfl
    · omega
    · omega
    · exact absurd h (by decide)
  simp [scan, slash, letter, h]

theorem scan_quote (rest : Bytes) : scan 34 rest = scanString rest := by
  simp [scan, isLetter, isDigit]

theorem scan_mark (rest : Bytes) : scan 39 rest = scanChar rest := by
  simp [scan, isLetter, isDigit]

theorem scan_operator {s : Scan} (comment : b = 47 → rest.head? ≠ some 47)
    (other : isLetter b = false ∧ isDigit b = false ∧ b ≠ 34 ∧ b ≠ 39)
    (h : scanOperator b rest = s) : scan b rest = s := by
  obtain ⟨letter, digit, quote, mark⟩ := other
  have slash : ¬(b = 47 ∧ rest.head? = some 47) := fun h => comment h.1 h.2
  simp [scan, slash, letter, digit, quote, mark, h]

theorem scanOperator_symbol {kind : TokenKind} (known : (b, kind) ∈ symbols) :
    scanOperator b rest = .valid kind 0 := by
  simp only [symbols, List.mem_cons, Prod.mk.injEq, List.not_mem_nil, or_false] at known
  rcases known with ⟨rfl, rfl⟩ | ⟨rfl, rfl⟩ | ⟨rfl, rfl⟩ | ⟨rfl, rfl⟩ | ⟨rfl, rfl⟩ | ⟨rfl, rfl⟩ |
    ⟨rfl, rfl⟩ | ⟨rfl, rfl⟩ | ⟨rfl, rfl⟩ | ⟨rfl, rfl⟩ | ⟨rfl, rfl⟩ <;> rfl

theorem scanOperator_comparison {short long : TokenKind}
    (known : (b, short, long) ∈ comparisons) : scanOperator b rest = withEquals short long rest := by
  simp only [comparisons, List.mem_cons, Prod.mk.injEq, List.not_mem_nil, or_false] at known
  rcases known with ⟨rfl, rfl, rfl⟩ | ⟨rfl, rfl, rfl⟩ | ⟨rfl, rfl, rfl⟩ | ⟨rfl, rfl, rfl⟩ <;> rfl

theorem scanOperator_stray (symbol : b ∉ symbols.map Prod.fst)
    (comparison : b ∉ comparisons.map Prod.fst) : scanOperator b rest = .invalid .strayByte 0 := by
  unfold scanOperator
  split <;> first
    | rfl
    | exact absurd (by decide) symbol
    | exact absurd (by decide) comparison

end Scanners

section Texts
variable {s after : Bytes}

theorem scanComment_text (line : 10 ∉ s) (stop : ∀ c ∈ after.head?, c = 10) :
    scanComment (s ++ after) = .valid .comment s.length := by
  rw [scanComment, takeWhile_cut]
  · intro c hc
    simpa using fun h : c = 10 => line (h ▸ hc)
  · intro c hc
    simp [stop c hc]

theorem scanInteger_short (tail : ∀ c ∈ s, isDigit c = true)
    (stop : ∀ c ∈ after.head?, isDigit c = false ∧ c ≠ 76) :
    scanInteger (s ++ after) = .valid .integer s.length := by
  rw [scanInteger, takeWhile_cut tail fun c hc => (stop c hc).1, List.drop_left]
  cases after with
  | nil => rfl
  | cons c after =>
    split
    · next h => exact absurd (List.cons.inj h).1 (stop c rfl).2
    · rfl

theorem scanInteger_long (tail : ∀ c ∈ s, isDigit c = true) :
    scanInteger (s ++ [76] ++ after) = .valid .integer (s.length + 1) := by
  rw [List.append_assoc, scanInteger, takeWhile_cut tail (by simp [isDigit])]
  simp

theorem scanString_closed (body : 34 ∉ s ∧ 10 ∉ s) (single : s = [] → after.head? ≠ some 34) :
    scanString (s ++ [34] ++ after) = .valid .string (s.length + 1) := by
  have oneQuote : ∀ tail, s ++ ([34] ++ after) = 34 :: 34 :: tail → False := by
    intro tail h
    cases s with
    | nil =>
      have behind : after = 34 :: tail := (List.cons.inj h).2
      exact single rfl (by rw [behind]; rfl)
    | cons c s =>
      obtain rfl : c = 34 := (List.cons.inj h).1
      exact body.1 List.mem_cons_self
  rw [List.append_assoc, scanString.eq_2 _ oneQuote, takeWhile_quoted body (by simp)]
  simp

theorem scanString_open (body : 34 ∉ s ∧ 10 ∉ s) (stop : ∀ c ∈ after.head?, c = 10) :
    scanString (s ++ after) = .invalid .openString s.length := by
  have noQuote : ∀ tail, s ++ after ≠ 34 :: tail := by
    intro tail h
    cases s with
    | nil =>
      rw [List.nil_append] at h
      exact absurd (stop 34 (by rw [h]; rfl)) (by decide)
    | cons c s =>
      obtain rfl : c = 34 := (List.cons.inj h).1
      exact body.1 List.mem_cons_self
  rw [scanString.eq_2 _ fun tail => noQuote _, takeWhile_quoted body fun c hc => .inr (stop c hc),
    List.drop_left]
  split
  · exact absurd (stop 34 rfl) (by decide)
  · rfl

theorem scanString_multiLine (closes : ClosesFirst s) :
    scanString (34 :: 34 :: (s ++ [34, 34, 34] ++ after)) = .valid .string (s.length + 5) := by
  have closed := closing?_append closes after
  rw [List.append_assoc]
  simp [scanString, closed]

theorem scanString_openMultiLine (unclosed : ¬ [34, 34, 34] <:+: s) :
    scanString (34 :: 34 :: s) = .invalid .openMultiLineString (s.length + 2) := by
  simp [scanString, closing?_eq_none.mpr unclosed]

theorem scanChar_closed (body : 39 ∉ s ∧ 10 ∉ s) : scanChar (s ++ [39] ++ after) =
    if s.length = 1 then .valid .char 2 else .invalid .charLength (s.length + 1) := by
  rw [List.append_assoc, scanChar, takeWhile_quoted body (by simp)]
  simp

theorem scanChar_open (body : 39 ∉ s ∧ 10 ∉ s) (stop : ∀ c ∈ after.head?, c = 10) :
    scanChar (s ++ after) = .invalid .openChar s.length := by
  rw [scanChar, takeWhile_quoted body fun c hc => .inr (stop c hc), List.drop_left]
  split
  · exact absurd (stop 39 rfl) (by decide)
  · rfl

end Texts

theorem isStray_iff {b : UInt8} : isStray b = true ↔ isBlank b = false ∧
    (isLetter b = false ∧ isDigit b = false ∧ b ≠ 34 ∧ b ≠ 39) ∧ b ∉ symbols.map Prod.fst ∧
    b ∉ comparisons.map Prod.fst := by
  simp only [isStray, Bool.not_eq_true', Bool.or_eq_false_iff, beq_eq_false_iff_ne, ne_eq,
    List.contains_eq_mem, decide_eq_false_iff_not]
  tauto

/-- A text of the grammar is what the scanner takes. -/
theorem scan_of_munch {b : UInt8} {w after : Bytes} {kind : TokenKind} {defect : Option Defect}
    (h : Munch (b :: w) after.head? kind defect) :
    isBlank b = false ∧ scan b (w ++ after) = ⟨kind, w.length, defect⟩ := by
  generalize text : b :: w = t at h
  generalize behind : after.head? = next at h
  have symbolsOther : ∀ x ∈ symbols, isBlank x.1 = false ∧ isLetter x.1 = false ∧
      isDigit x.1 = false ∧ x.1 ≠ 34 ∧ x.1 ≠ 39 := by decide
  have comparisonsOther : ∀ x ∈ comparisons, isBlank x.1 = false ∧ x.1 ≠ 47 ∧
      isLetter x.1 = false ∧ isDigit x.1 = false ∧ x.1 ≠ 34 ∧ x.1 ≠ 39 := by decide
  cases h with
  | comment line stop =>
    obtain ⟨rfl, rfl⟩ := List.cons.inj text
    subst behind
    refine ⟨by decide, ?_⟩
    rw [List.cons_append, scan_comment, ← List.cons_append, scanComment_text (by simpa using line) stop]
    rfl
  | word first tail stop =>
    obtain ⟨rfl, rfl⟩ := List.cons.inj text
    subst behind
    refine ⟨isBlank_of_isWord (by simp [isWord, first]), ?_⟩
    rw [scan_letter first, scanWord, takeWhile_cut tail stop]
    rfl
  | integer first tail stop =>
    obtain ⟨rfl, rfl⟩ := List.cons.inj text
    subst behind
    exact ⟨isBlank_of_isWord (by simp [isWord, first]), by rw [scan_digit first, scanInteger_short tail stop]; rfl⟩
  | long first tail =>
    obtain ⟨rfl, rfl⟩ := List.cons.inj text
    refine ⟨isBlank_of_isWord (by simp [isWord, first]), ?_⟩
    rw [scan_digit first, scanInteger_long tail, List.length_append]
    rfl
  | string body single =>
    obtain ⟨rfl, rfl⟩ := List.cons.inj text
    subst behind
    refine ⟨by decide, ?_⟩
    rw [scan_quote, scanString_closed body single, List.length_append]
    rfl
  | multiLine closes =>
    obtain ⟨rfl, rfl⟩ := List.cons.inj text
    refine ⟨by decide, ?_⟩
    rw [scan_quote, List.cons_append, List.cons_append, scanString_multiLine closes]
    simp [Scan.valid]
  | char body =>
    obtain ⟨rfl, rfl⟩ := List.cons.inj text
    rename_i c
    refine ⟨by decide, ?_⟩
    have inside : 39 ∉ [c] ∧ 10 ∉ [c] := by simp [body.1.symm, body.2.symm]
    exact (scan_mark _).trans (scanChar_closed inside)
  | symbol known stop =>
    obtain ⟨rfl, rfl⟩ := List.cons.inj text
    subst behind
    have other := symbolsOther _ known
    exact ⟨other.1, scan_operator stop other.2 (scanOperator_symbol known)⟩
  | short known stop =>
    obtain ⟨rfl, rfl⟩ := List.cons.inj text
    subst behind
    have other := comparisonsOther _ known
    refine ⟨other.1, scan_operator (absurd · other.2.1) other.2.2 ?_⟩
    rw [scanOperator_comparison known]
    cases after with
    | nil => rfl
    | cons c after =>
      unfold withEquals
      split
      · next h => exact absurd (congrArg some (List.cons.inj h).1) stop
      · rfl
  | extended known =>
    obtain ⟨rfl, rfl⟩ := List.cons.inj text
    have other := comparisonsOther _ known
    exact ⟨other.1, scan_operator (absurd · other.2.1) other.2.2 (scanOperator_comparison known)⟩
  | openMultiLineString unclosed =>
    obtain ⟨rfl, rfl⟩ := List.cons.inj text
    obtain rfl := List.head?_eq_none_iff.mp behind
    refine ⟨by decide, ?_⟩
    rw [List.append_nil, scan_quote, scanString_openMultiLine unclosed]
    rfl
  | openString body stop =>
    obtain ⟨rfl, rfl⟩ := List.cons.inj text
    subst behind
    exact ⟨by decide, by rw [scan_quote, scanString_open body stop]; rfl⟩
  | openChar body stop =>
    obtain ⟨rfl, rfl⟩ := List.cons.inj text
    subst behind
    exact ⟨by decide, by rw [scan_mark, scanChar_open body stop]; rfl⟩
  | charLength body length =>
    obtain ⟨rfl, rfl⟩ := List.cons.inj text
    refine ⟨by decide, ?_⟩
    rw [scan_mark, scanChar_closed body, if_neg length, List.length_append]
    rfl
  | strayByte stray =>
    obtain ⟨rfl, rfl⟩ := List.cons.inj text
    obtain ⟨blank, other, symbol, comparison⟩ := isStray_iff.mp stray
    refine ⟨blank, scan_operator ?_ other (scanOperator_stray symbol comparison)⟩
    rintro rfl
    exact absurd (by decide) symbol

theorem exists_munch_quote (rest : Bytes) : ∃ w after kind defect, rest = w ++ after ∧
    Munch (34 :: w) after.head? kind defect := by
  by_cases triple : [34, 34] <+: rest
  · obtain ⟨body, rfl⟩ := triple
    cases closed : closing? body with
    | none =>
      exact ⟨[34, 34] ++ body, [], _, _, by simp, .openMultiLineString (closing?_eq_none.mp closed)⟩
    | some n =>
      obtain ⟨s, after, rfl, closes⟩ := closing?_eq_some closed
      exact ⟨[34, 34] ++ (s ++ [34, 34, 34]), after, _, _, by simp, .multiLine closes⟩
  · obtain ⟨s, after, rfl, body, stop⟩ := exists_quoted 34 rest
    by_cases closed : after.head? = some 34
    · obtain ⟨after, rfl⟩ := List.head?_eq_some_iff.mp closed
      refine ⟨s ++ [34], after, _, _, by simp, .string body ?_⟩
      rintro rfl behind
      obtain ⟨after, rfl⟩ := List.head?_eq_some_iff.mp behind
      exact triple ⟨after, rfl⟩
    · exact ⟨s, after, _, _, rfl, .openString body fun c hc =>
        (stop c hc).resolve_left fun h => closed (h ▸ hc)⟩

theorem exists_munch_mark (rest : Bytes) : ∃ w after kind defect, rest = w ++ after ∧
    Munch (39 :: w) after.head? kind defect := by
  obtain ⟨s, after, rfl, body, stop⟩ := exists_quoted 39 rest
  by_cases closed : after.head? = some 39
  · obtain ⟨after, rfl⟩ := List.head?_eq_some_iff.mp closed
    refine ⟨s ++ [39], after, ?_⟩
    by_cases one : s.length = 1
    · obtain ⟨c, rfl⟩ := List.length_eq_one_iff.mp one
      simp only [List.mem_singleton] at body
      exact ⟨_, _, by simp, .char ⟨Ne.symm body.1, Ne.symm body.2⟩⟩
    · exact ⟨_, _, by simp, .charLength body one⟩
  · exact ⟨s, after, _, _, rfl, .openChar body fun c hc =>
      (stop c hc).resolve_left fun h => closed (h ▸ hc)⟩

/-- Every input that starts with no blank starts with a text of the grammar. -/
theorem exists_munch {b : UInt8} (hb : isBlank b = false) (rest : Bytes) :
    ∃ w after kind defect, rest = w ++ after ∧ Munch (b :: w) after.head? kind defect := by
  by_cases letter : isLetter b = true
  · obtain ⟨w, after, rfl, tail, stop⟩ := exists_cut isWord rest
    exact ⟨w, after, _, _, rfl, .word letter tail stop⟩
  by_cases digit : isDigit b = true
  · obtain ⟨ds, after, rfl, tail, stop⟩ := exists_cut isDigit rest
    by_cases suffix : after.head? = some 76
    · obtain ⟨after, rfl⟩ := List.head?_eq_some_iff.mp suffix
      exact ⟨ds ++ [76], after, _, _, by simp, .long digit tail⟩
    · refine ⟨ds, after, _, _, rfl, .integer digit tail fun c hc => ⟨stop c hc, ?_⟩⟩
      rintro rfl
      exact suffix hc
  by_cases quote : b = 34
  · subst quote
    exact exists_munch_quote rest
  by_cases mark : b = 39
  · subst mark
    exact exists_munch_mark rest
  by_cases comment : b = 47 ∧ rest.head? = some 47
  · obtain ⟨rfl, slash⟩ := comment
    obtain ⟨rest, rfl⟩ := List.head?_eq_some_iff.mp slash
    obtain ⟨s, after, rfl, line, stop⟩ := exists_cut (· != 10) rest
    refine ⟨47 :: s, after, _, _, rfl, .comment (fun h => ?_) fun c hc => ?_⟩
    · simpa using line 10 h
    · simpa using stop c hc
  by_cases symbol : b ∈ symbols.map Prod.fst
  · obtain ⟨⟨_, kind⟩, known, rfl⟩ := List.mem_map.mp symbol
    exact ⟨[], rest, _, _, rfl, .symbol known fun slash h => comment ⟨slash, h⟩⟩
  by_cases comparison : b ∈ comparisons.map Prod.fst
  · obtain ⟨⟨_, short, long⟩, known, rfl⟩ := List.mem_map.mp comparison
    by_cases equals : rest.head? = some 61
    · obtain ⟨rest, rfl⟩ := List.head?_eq_some_iff.mp equals
      exact ⟨[61], rest, _, _, rfl, .extended known⟩
    · exact ⟨[], rest, _, _, rfl, .short known equals⟩
  refine ⟨[], rest, _, _, rfl, .strayByte (isStray_iff.mpr ⟨hb, ⟨?_, ?_, quote, mark⟩, symbol, comparison⟩)⟩
  · simpa using letter
  · simpa using digit

theorem scan_munch {b : UInt8} (hb : isBlank b = false) (rest : Bytes) :
    Munch (b :: rest.take (scan b rest).extra) (rest.drop (scan b rest).extra).head?
      (scan b rest).kind (scan b rest).defect := by
  obtain ⟨w, after, kind, defect, rfl, munch⟩ := exists_munch hb rest
  rw [(scan_of_munch munch).2, List.take_left, List.drop_left]
  exact munch

end Lexer

end PrintLang
