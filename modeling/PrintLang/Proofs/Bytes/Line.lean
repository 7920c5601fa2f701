import Mathlib.Data.List.Induction
import PrintLang.Proofs.Bytes.Ascii
import PrintLang.Proofs.Bytes.Integer
import PrintLang.Token

set_option autoImplicit false

namespace PrintLang

theorem not_mem_of_all {p : UInt8 → Bool} {s : Bytes} (h : s.all p = true) {b : UInt8}
    (hb : p b = false) : b ∉ s := by
  intro hm
  rw [List.all_eq_true.mp h b hm] at hb
  cases hb

theorem newline_not_mem_decimal (v : Int) : 10 ∉ decimal v := by
  have number (n : Nat) : 10 ∉ decimalNat n := not_mem_of_all (decimalNat_all_digits n) (by decide)
  cases v with
  | ofNat n => exact number n
  | negSucc n => exact List.not_mem_cons_of_ne_of_not_mem (by decide) (number (n + 1))

theorem Location.newline_not_mem_render (loc : Location) : 10 ∉ loc.render := by
  rw [render]
  simp only [List.mem_append, not_or]
  exact ⟨⟨newline_not_mem_decimal _, by decide⟩, newline_not_mem_decimal _⟩

namespace Bytes

theorem indexOf?_of_not_mem {b : UInt8} {s : Bytes} (h : b ∉ s) : indexOf? b s = none := by
  rw [indexOf?, List.findIdx?_eq_none_iff]
  intro c hc
  have hne : c ≠ b := fun he => h (he ▸ hc)
  simp [hne]

theorem indexOf?_append {b : UInt8} {s : Bytes} (h : b ∉ s) (rest : Bytes) :
    indexOf? b (s ++ b :: rest) = some s.length := by
  have none : s.findIdx? (· == b) = none := indexOf?_of_not_mem h
  rw [indexOf?, List.findIdx?_append, none, List.findIdx?_cons]
  simp

theorem lastIndexOf?_of_not_mem {b : UInt8} {s : Bytes} (h : b ∉ s) : lastIndexOf? b s = none := by
  rw [lastIndexOf?, ← indexOf?, indexOf?_of_not_mem (mt List.mem_reverse.mp h), Option.map_none]

theorem lastIndexOf?_append {b : UInt8} {t : Bytes} (h : b ∉ t) (s : Bytes) :
    lastIndexOf? b (s ++ b :: t) = some s.length := by
  have reversed : (s ++ b :: t).reverse = t.reverse ++ b :: s.reverse := by simp
  rw [lastIndexOf?, reversed, ← indexOf?, indexOf?_append (mt List.mem_reverse.mp h),
    Option.map_some]
  simp only [List.length_append, List.length_cons, List.length_reverse]
  congr 1
  omega

theorem lt_of_lastIndexOf? {b : UInt8} {s : Bytes} {n : Nat} (h : lastIndexOf? b s = some n) :
    n < s.length := by
  obtain ⟨k, found, rfl⟩ := Option.map_eq_some_iff.mp h
  have bound := (List.findIdx?_eq_some_iff_getElem.mp found).choose
  rw [List.length_reverse] at bound
  omega

theorem not_mem_join {b : UInt8} {sep : Bytes} {parts : List Bytes} (hs : b ∉ sep)
    (h : ∀ part ∈ parts, b ∉ part) : b ∉ join sep parts := by
  induction parts with
  | nil => exact List.not_mem_nil
  | cons part parts ih =>
    obtain ⟨first, rest⟩ := List.forall_mem_cons.mp h
    cases parts with
    | nil => rwa [join, List.intercalate_singleton]
    | cons next parts =>
      rw [join, List.intercalate_cons_cons]
      simp only [List.mem_append, not_or]
      exact ⟨⟨first, hs⟩, ih rest⟩

def EndsLine (s : Bytes) : Prop := ∀ b ∈ s.getLast?, b = 10

theorem EndsLine.eq_nil_or {s : Bytes} (h : EndsLine s) : s = [] ∨ ∃ front, s = front ++ [10] := by
  obtain rfl | ⟨front, b, rfl⟩ := s.eq_nil_or_concat
  · exact .inl rfl
  · obtain rfl : b = 10 := h b (by simp)
    exact .inr ⟨front, List.concat_eq_append⟩

theorem EndsLine.append {s t : Bytes} (hs : EndsLine s) (ht : EndsLine t) : EndsLine (s ++ t) := by
  obtain rfl | ⟨front, rfl⟩ := ht.eq_nil_or
  · rwa [List.append_nil]
  · intro b hb
    rw [← List.append_assoc, List.getLast?_concat] at hb
    exact (Option.some.inj hb).symm

theorem exists_last_line (s : Bytes) : ∃ front line, s = front ++ line ∧ EndsLine front ∧
    10 ∉ line := by
  induction s using List.reverseRecOn with
  | nil => exact ⟨[], [], rfl, nofun, List.not_mem_nil⟩
  | append_singleton s b ih =>
    by_cases newline : b = 10
    · refine ⟨s ++ [b], [], (List.append_nil _).symm, ?_, List.not_mem_nil⟩
      intro c hc
      rw [List.getLast?_concat] at hc
      exact (Option.some.inj hc).symm.trans newline
    · obtain ⟨front, line, rfl, ends, absent⟩ := ih
      refine ⟨front, line ++ [b], List.append_assoc .., ends, ?_⟩
      simp [absent, Ne.symm newline]

theorem exists_first_line (s : Bytes) : ∃ line back, s = line ++ back ∧ 10 ∉ line ∧
    ∀ b ∈ back.head?, b = 10 := by
  induction s with
  | nil => exact ⟨[], [], rfl, List.not_mem_nil, nofun⟩
  | cons b s ih =>
    by_cases newline : b = 10
    · exact ⟨[], b :: s, rfl, List.not_mem_nil, fun c hc => (Option.some.inj hc).symm.trans newline⟩
    · obtain ⟨line, back, rfl, absent, starts⟩ := ih
      exact ⟨b :: line, back, rfl, by simp [absent, Ne.symm newline], starts⟩

structure Cut (s : Bytes) (i : Nat) (front left right back : Bytes) : Prop where
  split : s = front ++ (left ++ (right ++ back))
  offset : front.length + left.length = i
  ends : EndsLine front
  left : 10 ∉ left
  right : 10 ∉ right
  starts : ∀ b ∈ back.head?, b = 10

theorem exists_cut {s : Bytes} {i : Nat} (h : i ≤ s.length) :
    ∃ front left right back, Cut s i front left right back := by
  obtain ⟨front, left, before, ends, noLeft⟩ := exists_last_line (s.take i)
  obtain ⟨right, back, behind, noRight, starts⟩ := exists_first_line (s.drop i)
  refine ⟨front, left, right, back, ?_, ?_, ends, noLeft, noRight, starts⟩
  · rw [← behind, ← List.append_assoc, ← before, List.take_append_drop]
  · rw [← List.length_append, ← before, List.length_take_of_le h]

section Cut
variable {s front left right back : Bytes} {i : Nat}

theorem Cut.take (h : Cut s i front left right back) : s.take i = front ++ left := by
  rw [h.split, ← List.append_assoc, List.take_left' (by rw [List.length_append, h.offset])]

theorem Cut.drop (h : Cut s i front left right back) : s.drop i = right ++ back := by
  rw [h.split, ← List.append_assoc, List.drop_left' (by rw [List.length_append, h.offset])]

theorem Cut.length (h : Cut s i front left right back) :
    s.length = i + right.length + back.length := by
  rw [h.split, ← h.offset]
  simp only [List.length_append]
  omega

/-- A slice of one line is a tail of its left part and a head of its right part. -/
theorem Cut.slice_eq (h : Cut s i front left right back) {start stop : Nat}
    (inside : front.length ≤ start ∧ start ≤ i) (behind : i ≤ stop ∧ stop ≤ i + right.length) :
    slice s start stop = left.drop (start - front.length) ++ right.take (stop - i) := by
  have offset := h.offset
  rw [slice, h.split, List.drop_append, List.drop_eq_nil_of_le inside.1, List.nil_append,
    List.drop_append_of_le_length (by omega), List.take_append, List.take_of_length_le,
    List.take_append_of_le_length, List.length_drop]
  · congr 2
    omega
  · rw [List.length_drop]
    omega
  · rw [List.length_drop]
    omega

theorem length_splitOn (sep : UInt8) (s : Bytes) : (splitOn sep s).length = s.count sep + 1 := by
  induction s with
  | nil => rfl
  | cons b s ih =>
    rw [splitOn]
    split
    · next same => rw [List.length_cons, ih, same, List.count_cons_self]
    · next other =>
      rw [List.count_cons_of_ne other, ← ih]
      cases parts : splitOn sep s with
      | nil => exact absurd parts (splitOn_ne_nil sep s)
      | cons part more => rfl

/-- The number of newlines before a line is its place among the lines. -/
theorem Cut.line (h : Cut s i front left right back) :
    (splitOn 10 s)[(s.take i).count 10]? = some (left ++ right) := by
  have absent : 10 ∉ left ++ right := by simp [h.left, h.right]
  have line : (splitOn 10 ((left ++ right) ++ back))[0]? = some (left ++ right) := by
    cases back with
    | nil => rw [List.append_nil, splitOn_of_not_mem absent]; rfl
    | cons b back =>
      obtain rfl : b = 10 := h.starts b rfl
      rw [splitOn_append, splitOn_of_not_mem absent]
      rfl
  have count : (s.take i).count 10 = front.count 10 := by
    rw [h.take, List.count_append, List.count_eq_zero.mpr h.left, Nat.add_zero]
  rw [count, h.split, ← List.append_assoc left]
  obtain rfl | ⟨front, rfl⟩ := h.ends.eq_nil_or
  · exact line
  · rw [List.append_assoc front, List.singleton_append, splitOn_append, List.count_append,
      List.count_singleton_self, ← length_splitOn, List.getElem?_append_right (Nat.le_refl _),
      Nat.sub_self]
    exact line

end Cut

theorem trimRightBy_line {p : UInt8 → Bool} (hp : p 10 = false) {front : Bytes}
    (ends : EndsLine front) (line : Bytes) :
    trimRightBy p (front ++ line) = front ++ trimRightBy p line := by
  have stops : front.reverse.dropWhile p = front.reverse := by
    obtain rfl | ⟨front, rfl⟩ := ends.eq_nil_or
    · rfl
    · rw [List.reverse_append, List.reverse_singleton, List.singleton_append, List.dropWhile_cons,
        hp, if_neg Bool.false_ne_true]
  rw [trimRightBy, trimRightBy, List.reverse_append, List.dropWhile_append]
  split
  · next empty =>
    rw [stops, List.isEmpty_iff.mp empty, List.reverse_nil, List.append_nil, List.reverse_reverse]
  · rw [List.reverse_append, List.reverse_reverse]

end Bytes

end PrintLang
