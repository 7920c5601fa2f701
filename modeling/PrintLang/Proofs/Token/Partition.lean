import Mathlib.Data.List.Induction
import PrintLang.Proofs.Token.Scan

set_option autoImplicit false

namespace PrintLang

/-- The place of the byte at an offset: newlines before it give the line, the bytes since the last
one the column. -/
def Location.ofOffset (source : Bytes) (offset : Nat) : Location :=
  { line := 1 + (source.take offset).count 10
    column := 1 + ((source.take offset).reverse.takeWhile (· != 10)).length }

namespace Lexer

theorem Position.after_append (p : Position) (text more : Bytes) :
    p.after (text ++ more) = (p.after text).after more := List.foldl_append

theorem Position.after_start (text : Bytes) : Position.start.after text =
    ⟨text.length, 1 + text.count 10, 1 + (text.reverse.takeWhile (· != 10)).length⟩ := by
  induction text using List.reverseRecOn with
  | nil => rfl
  | append_singleton text b ih =>
    rw [after_append, ih]
    change advance _ b = _
    by_cases hb : b = 10
    · subst hb
      simp [advance, Nat.add_assoc]
    · simp [advance, hb, Nat.add_assoc]

theorem Position.loc_after_start (source : Bytes) (i : Nat) :
    (Position.start.after (source.take i)).loc = Location.ofOffset source i := by
  rw [after_start]
  simp [loc, Location.ofOffset]

inductive Passes (source : Bytes) : Nat → List Lexeme → Prop where
  | done : Passes source source.length
      [⟨⟨.eof, source.length, source.length, .ofOffset source source.length⟩, none⟩]
  | blank {i : Nat} {b : UInt8} {rest : Bytes} {ls : List Lexeme} (here : source.drop i = b :: rest)
      (hb : isBlank b = true) (tail : Passes source (i + 1) ls) : Passes source i ls
  | token {i : Nat} {b : UInt8} {rest : Bytes} {ls : List Lexeme} (here : source.drop i = b :: rest)
      (hb : isBlank b = false) (tail : Passes source (i + 1 + (scan b rest).extra) ls) :
      Passes source i (⟨⟨(scan b rest).kind, i, i + 1 + (scan b rest).extra, .ofOffset source i⟩,
        (scan b rest).defect⟩ :: ls)

theorem take_of_drop {source rest : Bytes} {i : Nat} {b : UInt8} (here : source.drop i = b :: rest)
    (k : Nat) : source.take (i + 1 + k) = source.take i ++ b :: rest.take k := by
  rw [Nat.add_assoc, List.take_add, here, Nat.add_comm 1 k, List.take_succ_cons]

theorem drop_of_drop {source rest : Bytes} {i : Nat} {b : UInt8} (here : source.drop i = b :: rest)
    (k : Nat) : source.drop (i + 1 + k) = rest.drop k := by
  rw [Nat.add_assoc, ← List.drop_drop, here, Nat.add_comm 1 k, List.drop_succ_cons]

theorem slice_of_drop {source rest : Bytes} {i : Nat} {b : UInt8} (here : source.drop i = b :: rest)
    (k : Nat) : Bytes.slice source i (i + 1 + k) = b :: rest.take k := by
  rw [Bytes.slice, here, Nat.add_assoc, Nat.add_sub_cancel_left, Nat.add_comm 1, List.take_succ_cons]

theorem length_of_drop {source rest : Bytes} {i : Nat} {b : UInt8}
    (here : source.drop i = b :: rest) : source.length = i + 1 + rest.length := by
  have := congrArg List.length here
  rw [List.length_drop, List.length_cons] at this
  omega

theorem lexemes_passes (source : Bytes) (p : Position) (input : Bytes) {i : Nat}
    (here : source.drop i = input) (hi : i ≤ source.length)
    (hp : p = Position.start.after (source.take i)) : Passes source i (lexemes p input) := by
  -- The counters of the pass are functions of the text before `i`, so they can be dropped.
  have offset : p.offset = i := by
    rw [hp, Position.after_start, List.length_take_of_le hi]
  have loc : p.loc = .ofOffset source i := by
    rw [hp, Position.loc_after_start]
  fun_induction lexemes p input generalizing i with
  | case1 p =>
    obtain rfl : i = source.length := by
      have := List.drop_eq_nil_iff.mp here
      omega
    rw [offset, loc]
    exact .done
  | case2 p b rest hb ih =>
    have next : p.advance b = Position.start.after (source.take (i + 1)) := by
      rw [show i + 1 = i + 1 + 0 from rfl, take_of_drop here, Position.after_append, ← hp]
      rfl
    have room : i + 1 ≤ source.length := by
      have := length_of_drop here
      omega
    refine .blank here hb (ih (drop_of_drop here 0) room next ?_ ?_)
    · rw [next, Position.after_start, List.length_take_of_le room]
    · rw [next, Position.loc_after_start]
  | case3 p b rest hb s q =>
    rename_i ih
    have sound : s.extra ≤ rest.length := (scan_sound b rest).extra_le
    have next : q = Position.start.after (source.take (i + 1 + s.extra)) := by
      rw [take_of_drop here, Position.after_append, ← hp]
    have room : i + 1 + s.extra ≤ source.length := by
      have := length_of_drop here
      omega
    have stop : q.offset = i + 1 + s.extra := by
      rw [next, Position.after_start, List.length_take_of_le room]
    rw [offset, loc, stop]
    refine .token here (Bool.eq_false_iff.mpr hb) (ih (drop_of_drop here _) room next stop ?_)
    rw [next, Position.loc_after_start]

namespace Passes

variable {source : Bytes} {i : Nat} {ls : List Lexeme}

/-- What holds of every scanned token and of the end of input holds of all tokens. -/
theorem forall_mem {P : Lexeme → Prop}
    (one : ∀ {i : Nat} {b : UInt8} {rest : Bytes}, source.drop i = b :: rest → isBlank b = false →
      P ⟨⟨(scan b rest).kind, i, i + 1 + (scan b rest).extra, .ofOffset source i⟩,
        (scan b rest).defect⟩)
    (last : P ⟨⟨.eof, source.length, source.length, .ofOffset source source.length⟩, none⟩)
    (h : Passes source i ls) : ∀ l ∈ ls, P l := by
  induction h with
  | done => exact List.forall_mem_singleton.mpr last
  | blank _ _ _ ih => exact ih
  | token here hb _ ih => exact List.forall_mem_cons.mpr ⟨one here hb, ih⟩

theorem ends (h : Passes source i ls) : ∃ front, ls = front ++
      [⟨⟨.eof, source.length, source.length, .ofOffset source source.length⟩, none⟩] ∧
    ∀ l ∈ front, l.token.kind ≠ .eof := by
  induction h with
  | done => exact ⟨[], rfl, List.forall_mem_nil _⟩
  | blank _ _ _ ih => exact ih
  | @token i b rest _ _ _ _ ih =>
    obtain ⟨front, split, all⟩ := ih
    exact ⟨_ :: front, congrArg (_ :: ·) split,
      List.forall_mem_cons.mpr ⟨(scan_sound b rest).kind_ne, all⟩⟩

theorem start_ge (h : Passes source i ls) : ∀ l ∈ ls, i ≤ l.token.start := by
  induction h with
  | done => simp
  | blank _ _ _ ih =>
    intro l hl
    have := ih l hl
    omega
  | token _ _ _ ih =>
    intro l hl
    obtain rfl | hl := List.mem_cons.mp hl
    · exact Nat.le_refl _
    · have := ih l hl
      omega

theorem ordered (h : Passes source i ls) : ls.Pairwise fun l m =>
    l.token.start < m.token.start ∧ l.token.stop ≤ m.token.start := by
  induction h with
  | done => exact List.pairwise_singleton _ _
  | blank _ _ _ ih => exact ih
  | token _ _ tail ih =>
    refine List.pairwise_cons.mpr ⟨?_, ih⟩
    intro m hm
    have := tail.start_ge m hm
    dsimp only
    omega

end Passes

theorem invalid_entries (source : Bytes) {ls : List Lexeme}
    (h : ∀ l ∈ ls, l.defect.isSome = (l.token.kind == .invalid)) (k : Nat) :
    ((ls.zipIdx k).filterMap fun (l, i) => l.defect.map fun d =>
        (⟨i, l.token.loc, l.token.text source, d.reason⟩ : InvalidToken)).map
          (fun e => (e.index, e.loc, e.text)) =
      (((ls.map (·.token)).zipIdx k).filter fun (t, _) => t.kind == .invalid).map
        fun (t, i) => ((i : Int), t.loc, t.text source) := by
  induction ls generalizing k with
  | nil => rfl
  | cons l ls ih =>
    have rest := ih (fun m hm => h m (List.mem_cons_of_mem l hm)) (k + 1)
    have first := h l List.mem_cons_self
    cases hd : l.defect with
    | none =>
      rw [hd] at first
      simp [List.zipIdx_cons, hd, ← first, rest]
    | some d =>
      rw [hd] at first
      simp [List.zipIdx_cons, hd, ← first, rest]

end Lexer

section Lex

variable (source : Bytes)

theorem lex_passes : Lexer.Passes source 0 (Lexer.lexemes .start source) :=
  Lexer.lexemes_passes source .start source rfl (Nat.zero_le _) rfl

theorem lex_tokens :
    (lex source).stream.tokens.toList = (Lexer.lexemes .start source).map (·.token) :=
  List.toList_toArray

theorem lex_forall_mem {P : Token → Prop} : (∀ t ∈ (lex source).stream.tokens, P t) ↔
    ∀ l ∈ Lexer.lexemes .start source, P l.token := by
  simp only [← Array.mem_toList_iff, lex_tokens, List.forall_mem_map]

theorem lex_bounds :
    ∀ t ∈ (lex source).stream.tokens, t.start ≤ t.stop ∧ t.stop ≤ source.length := by
  refine (lex_forall_mem source).mpr ((lex_passes source).forall_mem ?_ ⟨Nat.le_refl _, Nat.le_refl _⟩)
  intro i b rest here _
  have size := Lexer.length_of_drop here
  have fits := (Lexer.scan_sound b rest).extra_le
  dsimp only
  omega

theorem lex_located :
    ∀ t ∈ (lex source).stream.tokens, t.loc = .ofOffset source t.start :=
  (lex_forall_mem source).mpr ((lex_passes source).forall_mem (fun _ _ => rfl) rfl)

theorem lex_ordered : (lex source).stream.tokens.toList.Pairwise fun t u =>
    t.start < u.start ∧ t.stop ≤ u.start := by
  rw [lex_tokens]
  exact List.pairwise_map.mpr (lex_passes source).ordered

theorem lex_ends : ∃ front, (lex source).stream.tokens.toList =
      front ++ [⟨.eof, source.length, source.length, .ofOffset source source.length⟩] ∧
    ∀ t ∈ front, t.kind ≠ .eof := by
  obtain ⟨front, split, all⟩ := (lex_passes source).ends
  refine ⟨front.map (·.token), ?_, List.forall_mem_map.mpr all⟩
  rw [lex_tokens, split, List.map_append]
  rfl

theorem lex_literalText :
    ∀ t ∈ (lex source).stream.tokens, Lexer.LiteralText t.kind (t.text source) := by
  refine (lex_forall_mem source).mpr ((lex_passes source).forall_mem ?_ trivial)
  intro i b rest here _
  rw [Token.text, Lexer.slice_of_drop here]
  exact Lexer.scan_literalText b rest

theorem lex_invalid_eq : (lex source).invalid.map (fun e => (e.index, e.loc, e.text)) =
    ((lex source).stream.tokens.toList.zipIdx.filter fun (t, _) => t.kind == .invalid).map
      fun (t, i) => ((i : Int), t.loc, t.text source) := by
  rw [lex_tokens]
  exact Lexer.invalid_entries source ((lex_passes source).forall_mem
    (fun {_ b rest} _ _ => (Lexer.scan_sound b rest).defect) rfl) 0

theorem lex_invalid_eq_nil :
    (lex source).invalid = [] ↔ ∀ t ∈ (lex source).stream.tokens, t.kind ≠ .invalid := by
  rw [← List.map_eq_nil_iff, lex_invalid_eq, List.map_eq_nil_iff, List.filter_eq_nil_iff]
  simp only [beq_iff_eq]
  constructor
  · intro none t ht
    obtain ⟨k, found⟩ := List.mem_iff_getElem?.mp (Array.mem_toList_iff.mpr ht)
    exact none (t, k) (List.mk_mem_zipIdx_iff_getElem?.mpr found)
  · intro none entry mem
    exact none _ (Array.mem_toList_iff.mp (List.fst_mem_of_mem_zipIdx mem))

end Lex

theorem lex_before {source : Bytes} {i j : Nat} {t u : Token} (ht : (lex source).stream.tokens[i]? = some t)
    (hu : (lex source).stream.tokens[j]? = some u) (less : i < j) :
    t.start < u.start ∧ t.stop ≤ u.start := by
  rw [← Array.getElem?_toList] at ht hu
  obtain ⟨hi, rfl⟩ := List.getElem?_eq_some_iff.mp ht
  obtain ⟨hj, rfl⟩ := List.getElem?_eq_some_iff.mp hu
  exact List.pairwise_iff_getElem.mp (lex_ordered source) i j hi hj less

end PrintLang
