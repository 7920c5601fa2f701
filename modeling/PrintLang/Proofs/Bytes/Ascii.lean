import PrintLang.Bytes.Blank
import PrintLang.Bytes.Lower

set_option autoImplicit false

namespace PrintLang

def isAscii (b : UInt8) : Bool := b < 0x80

def isVisible (b : UInt8) : Bool := 33 ≤ b && b ≤ 126

/-- A property of bytes can be checked one byte after the other. -/
instance decidableForallByte {P : UInt8 → Prop} [DecidablePred P] : Decidable (∀ b, P b) :=
  decidable_of_iff (∀ n : Fin 256, P (UInt8.ofNat n)) <| by
    constructor
    · intro h b
      have hb := h ⟨b.toNat, b.toNat_lt⟩
      rwa [UInt8.ofNat_toNat] at hb
    · exact fun h n => h _

theorem isAscii_iff {b : UInt8} : isAscii b = true ↔ b.toNat < 128 := by
  rw [isAscii, decide_eq_true_eq, UInt8.lt_iff_toNat_lt]
  rfl

theorem isVisible_iff {b : UInt8} : isVisible b = true ↔ 33 ≤ b.toNat ∧ b.toNat ≤ 126 := by
  rw [isVisible, Bool.and_eq_true, decide_eq_true_eq, decide_eq_true_eq, UInt8.le_iff_toNat_le,
    UInt8.le_iff_toNat_le]
  rfl

theorem isAscii_of_isVisible (b : UInt8) (h : isVisible b = true) : isAscii b = true := by
  rw [isVisible_iff] at h
  rw [isAscii_iff]
  omega

theorem not_isBlankCode (b : UInt8) (h : isVisible b = true) : isBlankCode b.toNat = false := by
  rw [isVisible_iff] at h
  simp only [isBlankCode, Bool.or_eq_false_iff, Bool.and_eq_false_iff, beq_eq_false_iff_ne,
    decide_eq_false_iff_not]
  omega

theorem Utf8.first_ascii {b : UInt8} (h : isAscii b = true) (rest : Bytes) :
    Utf8.first b rest = .code b.toNat [b] := if_pos (by simpa [isAscii] using h)

theorem Utf8.not_isTail (b : UInt8) (h : isAscii b = true) : Utf8.isTail b = false := by
  rw [isAscii_iff] at h
  simp only [isTail, Bool.and_eq_false_iff, decide_eq_false_iff_not, UInt8.le_iff_toNat_le,
    UInt8.reduceToNat]
  omega

theorem Utf8.mem_raw_first {b c : UInt8} {rest : Bytes} (mem : b ∈ (first c rest).raw) :
    b = c ∨ isTail b = true := by
  unfold first at mem
  repeat' split at mem
  all_goals grind [Piece.raw, isSecond]

/-- A byte below 128 is a unit of text of its own wherever it stands. -/
theorem Utf8.eq_of_mem_raw_first {b c : UInt8} {rest : Bytes} (h : isAscii b = true)
    (mem : b ∈ (first c rest).raw) : first c rest = .code b.toNat [b] := by
  obtain rfl | tail := mem_raw_first mem
  · exact first_ascii h rest
  · rw [not_isTail b h] at tail
    cases tail

namespace Bytes

theorem pieces_of_ascii {s : Bytes} (h : s.all isAscii = true) :
    pieces s = s.map fun b => .code b.toNat [b] := by
  induction s with
  | nil => rw [pieces, List.map_nil]
  | cons b rest ih =>
    rw [List.all_cons, Bool.and_eq_true] at h
    rw [pieces, Utf8.first_ascii h.1]
    simp only [Piece.raw, List.length_singleton, Nat.sub_self, List.drop_zero, List.map_cons]
    rw [ih h.2]

theorem mem_pieces {b : UInt8} {s : Bytes} (h : isAscii b = true) (mem : b ∈ s) :
    .code b.toNat [b] ∈ pieces s := by
  fun_induction pieces s with
  | case1 => cases mem
  | case2 c rest p ih =>
    have split : c :: rest = p.raw ++ rest.drop (p.raw.length - 1) := by
      have raw : p.raw = c :: rest.take (p.raw.length - 1) := Utf8.raw_first c rest
      generalize p.raw.length - 1 = n at raw ⊢
      rw [raw, List.cons_append, List.take_append_drop]
    rw [split] at mem
    obtain here | later := List.mem_append.mp mem
    · exact List.mem_cons.mpr (.inl (Utf8.eq_of_mem_raw_first h here).symm)
    · exact List.mem_cons_of_mem _ (ih later)

theorem isBlank_of_visible {b : UInt8} {s : Bytes} (h : isVisible b = true) (mem : b ∈ s) :
    isBlank s = false := by
  rw [isBlank, List.all_eq_false]
  refine ⟨_, mem_pieces (isAscii_of_isVisible b h) mem, ?_⟩
  rw [Piece.isBlank, Piece.value, not_isBlankCode b h]
  exact Bool.false_ne_true

/-- A text that begins and ends with visible characters and is of one-byte characters throughout. -/
structure Tight (s : Bytes) : Prop where
  ascii : s.all isAscii = true
  first : ∀ b ∈ s.head?, isVisible b = true
  last : ∀ b ∈ s.getLast?, isVisible b = true

theorem Tight.of_visible {s : Bytes} (h : s.all isVisible = true) : Tight s := by
  have all := List.all_eq_true.mp h
  refine ⟨List.all_eq_true.mpr fun b hb => isAscii_of_isVisible b (all b hb), ?_, ?_⟩
  · exact fun b hb => all b (List.mem_of_mem_head? hb)
  · exact fun b hb => all b (List.mem_of_getLast? hb)

theorem Tight.glue {a b : Bytes} (ha : Tight a) (hb : Tight b) (ha' : a ≠ []) (hb' : b ≠ [])
    (mid : Bytes) (hm : mid.all isAscii = true) : Tight (a ++ (mid ++ b)) := by
  refine ⟨by rw [List.all_append, List.all_append, ha.ascii, hm, hb.ascii]; rfl, ?_, ?_⟩
  · obtain ⟨x, rest, rfl⟩ := List.exists_cons_of_ne_nil ha'
    exact ha.first
  · intro x hx
    rw [List.getLast?_append, List.getLast?_append, List.getLast?_eq_some_getLast hb',
      Option.some_or, Option.some_or] at hx
    exact hb.last x (by rw [List.getLast?_eq_some_getLast hb']; exact hx)

theorem dropWhile_all {α : Type} {p : α → Bool} {xs : List α} (h : ∀ x ∈ xs, p x = true) :
    xs.dropWhile p = [] := by
  induction xs with
  | nil => rfl
  | cons x xs ih =>
    rw [List.dropWhile_cons, if_pos (h x List.mem_cons_self)]
    exact ih fun y hy => h y (List.mem_cons_of_mem x hy)

theorem dropWhile_append_of {α : Type} {p : α → Bool} {xs ys : List α}
    (hx : ∀ x ∈ xs, p x = true) (hy : ∀ y ∈ ys.head?, p y = false) :
    (xs ++ ys).dropWhile p = ys := by
  rw [List.dropWhile_append, dropWhile_all hx]
  cases ys with
  | nil => rfl
  | cons y ys =>
    rw [List.isEmpty_nil, if_pos rfl, List.dropWhile_cons, if_neg]
    simp [hy y rfl]

theorem trim_blanks (n : Nat) : trim (List.replicate n 32) = [] := by
  have ascii : (List.replicate n (32 : UInt8)).all isAscii = true := by
    simp [List.all_replicate, isAscii]
  have blank : ∀ x ∈ (List.replicate n (32 : UInt8)).map fun b => Piece.code b.toNat [b],
      Piece.isBlank x = true := by
    intro x hx
    obtain ⟨b, hb, rfl⟩ := List.mem_map.mp hx
    obtain rfl := List.eq_of_mem_replicate hb
    rfl
  rw [trim, pieces_of_ascii ascii, dropWhile_all blank]
  rfl

theorem trim_nil : trim [] = [] := trim_blanks 0

theorem trim_around {s : Bytes} (h : Tight s) (n k : Nat) :
    trim (List.replicate n 32 ++ (s ++ List.replicate k 32)) = s := by
  by_cases hs : s = []
  · rw [hs, List.nil_append, List.replicate_append_replicate, trim_blanks]
  have ascii : (List.replicate n 32 ++ (s ++ List.replicate k 32)).all isAscii = true := by
    rw [List.all_append, List.all_append, h.ascii, List.all_replicate, List.all_replicate]
    simp [isAscii]
  have blank (j : Nat) : ∀ x ∈ (List.replicate j (32 : UInt8)).map fun b => Piece.code b.toNat [b],
      Piece.isBlank x = true := by
    intro x hx
    obtain ⟨b, hb, rfl⟩ := List.mem_map.mp hx
    obtain rfl := List.eq_of_mem_replicate hb
    rfl
  have visible {b : UInt8} (hb : isVisible b = true) :
      Piece.isBlank (.code b.toNat [b]) = false := not_isBlankCode b hb
  rw [trim, pieces_of_ascii ascii, List.map_append, List.map_append]
  generalize hm : (fun b : UInt8 => Piece.code b.toNat [b]) = f at blank
  rw [dropWhile_append_of (blank n), List.reverse_append, dropWhile_append_of,
    List.reverse_reverse, ← hm]
  · simp [List.flatMap_map, Piece.raw]
  · exact fun x hx => blank k x (List.mem_reverse.mp hx)
  · intro y hy
    rw [List.head?_reverse, List.getLast?_map] at hy
    obtain ⟨b, hb, rfl⟩ := Option.map_eq_some_iff.mp hy
    rw [← hm]
    exact visible (h.last b hb)
  · intro y hy
    obtain ⟨b, rest, rfl⟩ := List.exists_cons_of_ne_nil hs
    obtain rfl : f b = y := by simpa using hy
    rw [← hm]
    exact visible (h.first b rfl)

theorem trim_tight {s : Bytes} (h : Tight s) : trim s = s := by
  have around := trim_around h 0 0
  rwa [List.replicate_zero, List.nil_append, List.append_nil] at around

theorem encode_lowerCode (b : UInt8) (h : (isAscii b && !(65 ≤ b && b ≤ 90)) = true) :
    Utf8.encode (lowerCode b.toNat) = [b] := by
  simp only [Bool.and_eq_true, isAscii_iff, Bool.not_eq_true', Bool.and_eq_false_iff,
    decide_eq_false_iff_not, UInt8.le_iff_toNat_le, UInt8.reduceToNat] at h
  have small : ¬ (65 ≤ b.toNat && b.toNat ≤ 90) = true := by
    rw [Bool.and_eq_true, decide_eq_true_eq, decide_eq_true_eq]
    omega
  rw [lowerCode, if_pos h.1, if_neg small, Utf8.encode, if_pos h.1, Nat.toUInt8_eq, UInt8.ofNat_toNat]

theorem mapCodes_lowerCode {s : Bytes} (h : s.all fun b => isAscii b && !(65 ≤ b && b ≤ 90)) :
    mapCodes lowerCode s = s := by
  have all := List.all_eq_true.mp h
  have ascii : s.all isAscii = true := by
    apply List.all_eq_true.mpr
    intro b hb
    have := all b hb
    rw [Bool.and_eq_true] at this
    exact this.1
  have low (b : UInt8) (hb : b ∈ s) : Utf8.encode (lowerCode b.toNat) = [b] :=
    encode_lowerCode b (all b hb)
  rw [mapCodes, pieces_of_ascii ascii, List.flatMap_map]
  simp only [Piece.value]
  clear h ascii all
  induction s with
  | nil => rfl
  | cons b rest ih =>
    rw [List.flatMap_cons, low b List.mem_cons_self,
      ih fun c hc => low c (List.mem_cons_of_mem b hc)]
    rfl

theorem splitOn_of_not_mem {sep : UInt8} {s : Bytes} (h : sep ∉ s) : splitOn sep s = [s] := by
  induction s with
  | nil => rfl
  | cons b s ih =>
    rw [List.mem_cons, not_or] at h
    rw [splitOn, if_neg (Ne.symm h.1), ih h.2]

theorem splitOn_append (sep : UInt8) (s rest : Bytes) :
    splitOn sep (s ++ sep :: rest) = splitOn sep s ++ splitOn sep rest := by
  induction s with
  | nil => simp [splitOn]
  | cons b s ih =>
    rw [List.cons_append, splitOn, splitOn, ih]
    split
    · rfl
    · cases parts : splitOn sep s with
      | nil => exact absurd parts (splitOn_ne_nil sep s)
      | cons part more => rfl

theorem not_mem_of_mem_splitOn {sep : UInt8} {s part : Bytes} (h : part ∈ splitOn sep s) :
    sep ∉ part := by
  induction s generalizing part with
  | nil =>
    obtain rfl := List.mem_singleton.mp h
    exact List.not_mem_nil
  | cons b rest ih =>
    rw [splitOn] at h
    split at h
    · rcases List.mem_cons.mp h with rfl | h
      · exact List.not_mem_nil
      · exact ih h
    · next ne =>
      split at h
      · next empty => exact absurd empty (splitOn_ne_nil sep rest)
      · next first more split =>
        rw [split] at ih
        rcases List.mem_cons.mp h with rfl | h
        · rw [List.mem_cons, not_or]
          exact ⟨Ne.symm ne, ih List.mem_cons_self⟩
        · exact ih (List.mem_cons_of_mem first h)

theorem splitOn_join {sep : UInt8} {parts : List Bytes} (ne : parts ≠ [])
    (h : ∀ part ∈ parts, sep ∉ part) : splitOn sep (join [sep] parts) = parts := by
  induction parts with
  | nil => exact absurd rfl ne
  | cons part parts ih =>
    cases parts with
    | nil =>
      rw [join, List.intercalate_singleton]
      exact splitOn_of_not_mem (h part List.mem_cons_self)
    | cons next parts =>
      have rest := ih (List.cons_ne_nil next parts) fun p hp => h p (List.mem_cons_of_mem part hp)
      rw [join, List.intercalate_cons_cons, List.append_assoc, List.singleton_append, splitOn_append,
        splitOn_of_not_mem (h part List.mem_cons_self)]
      exact congrArg (part :: ·) rest

theorem splitOn_lines {parts : List Bytes} (h : ∀ part ∈ parts, 10 ∉ part) :
    splitOn 10 (lines parts) = parts ++ [[]] := by
  induction parts with
  | nil => rfl
  | cons part parts ih =>
    have rest := ih fun p hp => h p (List.mem_cons_of_mem part hp)
    rw [lines, List.flatMap_cons, List.append_assoc, List.singleton_append, splitOn_append,
      splitOn_of_not_mem (h part List.mem_cons_self), List.singleton_append,
        List.cons_append, ← rest]
    rfl

end Bytes

end PrintLang
