import Mathlib.Tactic.SplitIfs
import PrintLang.Token.Lexer

set_option autoImplicit false

namespace PrintLang

theorem TokenKind.ofWord_mem (word : Bytes) :
    ofWord word ∈ TokenKind.identifier :: keywords.map Prod.snd := by
  unfold ofWord
  cases h : keywords.lookup word with
  | none => exact List.mem_cons_self
  | some kind =>
    obtain ⟨first, last, split, -⟩ := List.lookup_eq_some_iff.mp h
    refine List.mem_cons_of_mem _ (List.mem_map.mpr ⟨(word, kind), ?_, rfl⟩)
    rw [split]
    exact List.mem_append_right first List.mem_cons_self

namespace Lexer

structure Scan.Sound (s : Scan) (rest : Bytes) : Prop where
  extra_le : s.extra ≤ rest.length
  kind_ne : s.kind ≠ .eof
  defect : s.defect.isSome = (s.kind == .invalid)

theorem Scan.sound_valid {kind : TokenKind} {extra : Nat} {rest : Bytes} (h : extra ≤ rest.length)
    (eof : kind ≠ .eof) (invalid : kind ≠ .invalid) : (Scan.valid kind extra).Sound rest :=
  ⟨h, eof, (beq_eq_false_iff_ne.mpr invalid).symm⟩

theorem Scan.sound_invalid {d : Defect} {extra : Nat} {rest : Bytes} (h : extra ≤ rest.length) :
    (Scan.invalid d extra).Sound rest :=
  ⟨h, TokenKind.noConfusion, rfl⟩

theorem length_takeWhile_le (p : UInt8 → Bool) (s : Bytes) : (s.takeWhile p).length ≤ s.length :=
  (List.takeWhile_sublist p).length_le

theorem length_takeWhile_lt {p : UInt8 → Bool} {s tail : Bytes} {b : UInt8}
    (h : s.drop (s.takeWhile p).length = b :: tail) : (s.takeWhile p).length + 1 ≤ s.length := by
  have := congrArg List.length h
  rw [List.length_drop, List.length_cons] at this
  omega

theorem scanComment_sound (rest : Bytes) : (scanComment rest).Sound rest :=
  Scan.sound_valid (length_takeWhile_le _ rest) (by decide) (by decide)

theorem scanWord_sound (b : UInt8) (rest : Bytes) : (scanWord b rest).Sound rest :=
  Scan.sound_valid (length_takeWhile_le _ rest)
    (fun h => absurd (h ▸ TokenKind.ofWord_mem (b :: rest.takeWhile isWord)) (by decide))
    (fun h => absurd (h ▸ TokenKind.ofWord_mem (b :: rest.takeWhile isWord)) (by decide))

theorem scanInteger_sound (rest : Bytes) : (scanInteger rest).Sound rest := by
  unfold scanInteger
  dsimp only
  split
  · next h => exact Scan.sound_valid (length_takeWhile_lt h) (by decide) (by decide)
  · exact Scan.sound_valid (length_takeWhile_le _ rest) (by decide) (by decide)

theorem closing?_le {s : Bytes} {n : Nat} (h : closing? s = some n) : n ≤ s.length := by
  induction s using closing?.induct generalizing n with
  | case1 tail =>
    rw [closing?] at h
    obtain rfl := Option.some.inj h
    simp only [List.length_cons]
    omega
  | case2 b rest hb ih =>
    rw [closing?] at h
    · obtain ⟨k, hk, rfl⟩ := Option.map_eq_some_iff.mp h
      have := ih hk
      rw [List.length_cons]
      omega
    · exact hb
  | case3 => cases h

theorem scanString_sound (rest : Bytes) : (scanString rest).Sound rest := by
  unfold scanString
  dsimp only
  split
  · next body =>
    split
    · next n h =>
      have := closing?_le h
      exact Scan.sound_valid (by simp only [List.length_cons]; omega) (by decide) (by decide)
    · exact Scan.sound_invalid (Nat.le_refl _)
  · split
    · next h => exact Scan.sound_valid (length_takeWhile_lt h) (by decide) (by decide)
    · exact Scan.sound_invalid (length_takeWhile_le _ rest)

theorem scanChar_sound (rest : Bytes) : (scanChar rest).Sound rest := by
  unfold scanChar
  dsimp only
  split
  · next h =>
    have := length_takeWhile_lt h
    split
    · next one => exact Scan.sound_valid (by omega) (by decide) (by decide)
    · exact Scan.sound_invalid this
  · exact Scan.sound_invalid (length_takeWhile_le _ rest)

theorem withEquals_sound {short long : TokenKind} (rest : Bytes) (hs : short ≠ .eof)
    (hs' : short ≠ .invalid) (hl : long ≠ .eof) (hl' : long ≠ .invalid) :
    (withEquals short long rest).Sound rest := by
  unfold withEquals
  split
  · exact Scan.sound_valid (by rw [List.length_cons]; omega) hl hl'
  · exact Scan.sound_valid (Nat.zero_le _) hs hs'

theorem scanOperator_sound (b : UInt8) (rest : Bytes) : (scanOperator b rest).Sound rest := by
  unfold scanOperator
  split <;> first
    | exact Scan.sound_valid (Nat.zero_le _) (by decide) (by decide)
    | exact withEquals_sound rest (by decide) (by decide) (by decide) (by decide)
    | exact Scan.sound_invalid (Nat.zero_le _)

theorem scan_sound (b : UInt8) (rest : Bytes) : (scan b rest).Sound rest := by
  unfold scan
  split_ifs
  · exact scanComment_sound rest
  · exact scanWord_sound b rest
  · exact scanInteger_sound rest
  · exact scanString_sound rest
  · exact scanChar_sound rest
  · exact scanOperator_sound b rest

theorem take_length_takeWhile (p : UInt8 → Bool) (s : Bytes) :
    s.take (s.takeWhile p).length = s.takeWhile p :=
  (List.prefix_iff_eq_take.mp (List.takeWhile_prefix p)).symm

theorem take_length_takeWhile_succ {p : UInt8 → Bool} {s tail : Bytes} {b : UInt8}
    (h : s.drop (s.takeWhile p).length = b :: tail) :
    s.take ((s.takeWhile p).length + 1) = s.takeWhile p ++ [b] := by
  have found : s[(s.takeWhile p).length]? = some b := by
    rw [← List.head?_drop, h]
    rfl
  rw [List.take_add_one, found, take_length_takeWhile]
  rfl

/-- A text in triple quotes, or a text without quotes in single ones. -/
def Quoted (text value : Bytes) : Prop :=
  text = [34, 34, 34] ++ value ++ [34, 34, 34] ∨ 34 ∉ value ∧ text = 34 :: value ++ [34]

def LiteralText : TokenKind → Bytes → Prop
  | .integer, text => ∃ ds, ds ≠ [] ∧ ds.all isDigit = true ∧ (text = ds ∨ text = ds ++ [76])
  | .string, text => ∃ value, Quoted text value
  | .char, text => ∃ c, text = [39, c, 39]
  | _, _ => True

theorem literalText_of_not_mem {kind : TokenKind} (h : kind ∉ [.integer, .string, .char])
    (text : Bytes) : LiteralText kind text := by
  cases kind with
  | integer | string | char => exact absurd h (by decide)
  | _ => trivial

theorem scanWord_text (b : UInt8) (rest text : Bytes) : LiteralText (scanWord b rest).kind text := by
  apply literalText_of_not_mem
  have words : ∀ kind ∈ TokenKind.identifier :: TokenKind.keywords.map Prod.snd,
      kind ∉ [.integer, .string, .char] := by decide
  exact words _ (TokenKind.ofWord_mem (b :: rest.takeWhile isWord))

theorem scanInteger_text {b : UInt8} (hb : isDigit b = true) (rest : Bytes) :
    LiteralText (scanInteger rest).kind (b :: rest.take (scanInteger rest).extra) := by
  have digits : (b :: rest.takeWhile isDigit).all isDigit = true := by
    rw [List.all_cons, hb, List.all_takeWhile]
    rfl
  unfold scanInteger
  dsimp only
  split
  · next h =>
    exact ⟨_, List.cons_ne_nil _ _, digits, .inr (congrArg (b :: ·) (take_length_takeWhile_succ h))⟩
  · exact ⟨_, List.cons_ne_nil _ _, digits, .inl (congrArg (b :: ·) (take_length_takeWhile _ rest))⟩

theorem take_closing? {s : Bytes} {n : Nat} (h : closing? s = some n) :
    ∃ value, s.take n = value ++ [34, 34, 34] := by
  induction s using closing?.induct generalizing n with
  | case1 tail =>
    rw [closing?] at h
    obtain rfl := Option.some.inj h
    exact ⟨[], rfl⟩
  | case2 b rest hb ih =>
    rw [closing?] at h
    · obtain ⟨k, hk, rfl⟩ := Option.map_eq_some_iff.mp h
      obtain ⟨value, taken⟩ := ih hk
      exact ⟨b :: value, congrArg (b :: ·) taken⟩
    · exact hb
  | case3 => cases h

theorem scanString_text (rest : Bytes) :
    LiteralText (scanString rest).kind (34 :: rest.take (scanString rest).extra) := by
  unfold scanString
  dsimp only
  split
  · next body =>
    split
    · next n closed =>
      obtain ⟨value, taken⟩ := take_closing? closed
      exact ⟨value, .inl (congrArg ([34, 34, 34] ++ ·) taken)⟩
    · trivial
  · split
    · next closed =>
      refine ⟨rest.takeWhile fun b => b != 34 && b != 10, .inr ⟨?_, ?_⟩⟩
      · intro quote
        exact absurd (List.all_eq_true.mp List.all_takeWhile 34 quote) (by decide)
      · exact congrArg (34 :: ·) (take_length_takeWhile_succ closed)
    · trivial

theorem scanChar_text (rest : Bytes) :
    LiteralText (scanChar rest).kind (39 :: rest.take (scanChar rest).extra) := by
  unfold scanChar
  dsimp only
  split
  · next closed =>
    split
    · next one =>
      obtain ⟨c, body⟩ := List.length_eq_one_iff.mp one
      have taken := take_length_takeWhile_succ closed
      rw [body] at taken
      exact ⟨c, congrArg (39 :: ·) taken⟩
    · trivial
  · trivial

theorem withEquals_text {short long : TokenKind} (hs : short ∉ [.integer, .string, .char])
    (hl : long ∉ [.integer, .string, .char]) (rest text : Bytes) :
    LiteralText (withEquals short long rest).kind text := by
  unfold withEquals
  split
  · exact literalText_of_not_mem hl text
  · exact literalText_of_not_mem hs text

theorem scanOperator_text (b : UInt8) (rest text : Bytes) :
    LiteralText (scanOperator b rest).kind text := by
  unfold scanOperator
  split <;> first
    | exact withEquals_text (by decide) (by decide) rest text
    | exact trivial

theorem scan_literalText (b : UInt8) (rest : Bytes) :
    LiteralText (scan b rest).kind (b :: rest.take (scan b rest).extra) := by
  unfold scan
  split_ifs with _ _ digit quote mark
  · trivial
  · exact scanWord_text b rest _
  · exact scanInteger_text digit rest
  · rw [quote]
    exact scanString_text rest
  · rw [mark]
    exact scanChar_text rest
  · exact scanOperator_text b rest _

end Lexer

end PrintLang
