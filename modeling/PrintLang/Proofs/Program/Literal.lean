import Mathlib.Algebra.Ring.Nat
import PrintLang.Program.Parser
import PrintLang.Proofs.Token.Scan

set_option autoImplicit false

namespace PrintLang

def withDigit (n : Nat) (b : UInt8) : Nat := n * 10 + (b.toNat - 48)

def digitsValue (ds : Bytes) : Nat := ds.foldl withDigit 0

namespace Integer

theorem le_foldl_withDigit (ds : Bytes) (acc : Nat) : acc ≤ ds.foldl withDigit acc := by
  induction ds generalizing acc with
  | nil => exact Nat.le_refl acc
  | cons b ds ih =>
    have := ih (withDigit acc b)
    rw [List.foldl_cons]
    unfold withDigit at this ⊢
    omega

theorem readDigits_digits {limit : Nat} {ds : Bytes} (digits : ds.all Lexer.isDigit = true)
    {acc : Nat} (hacc : acc ≤ limit) : readDigits 10 limit false acc ds =
      if ds.foldl withDigit acc ≤ limit then .ok (ds.foldl withDigit acc)
      else .error .outOfRange := by
  induction ds generalizing acc with
  | nil => rw [readDigits, List.foldl_nil, if_pos hacc]
  | cons b ds ih =>
    rw [List.all_cons, Bool.and_eq_true] at digits
    obtain ⟨hb, digits⟩ := digits
    have digit : digit? b = some (b.toNat - 48) := if_pos hb
    have small : ¬10 ≤ b.toNat - 48 := by
      simp only [Lexer.isDigit, Bool.and_eq_true, decide_eq_true_eq, UInt8.le_iff_toNat_le] at hb
      have : b.toNat ≤ 57 := hb.2
      omega
    rw [readDigits, Bool.false_and, if_neg Bool.false_ne_true, digit, List.foldl_cons]
    simp only [if_neg small]
    -- A value beyond the limit stays beyond it, whatever digits follow.
    by_cases past : limit < withDigit acc b
    · have := le_foldl_withDigit ds (withDigit acc b)
      rw [if_neg (show ¬ds.foldl withDigit (withDigit acc b) ≤ limit by omega)]
      exact if_pos past
    · rw [← ih digits (Nat.not_lt.mp past)]
      exact if_neg past

theorem read_digits {bits : Nat} (hbits : 0 < bits) {ds : Bytes} (ne : ds ≠ [])
    (digits : ds.all Lexer.isDigit = true) : read .decimal bits ds =
      if digitsValue ds < 2 ^ (bits - 1) then .ok (digitsValue ds : Int)
      else .error .outOfRange := by
  have unsigned : readUnsigned .decimal bits ds =
      if digitsValue ds ≤ 2 ^ bits - 1 then .ok (digitsValue ds) else .error .outOfRange := by
    rw [readUnsigned, if_neg ne]
    exact readDigits_digits digits (Nat.zero_le _)
  have half : 2 ^ bits = 2 * 2 ^ (bits - 1) := by
    rw [← Nat.pow_succ', Nat.succ_eq_add_one, Nat.sub_add_cancel hbits]
  have head (b : UInt8) (hb : Lexer.isDigit b = false) (rest : Bytes) : ds ≠ b :: rest := by
    rintro rfl
    rw [List.all_cons, hb] at digits
    cases digits
  rw [read]
  · by_cases fits : digitsValue ds < 2 ^ (bits - 1)
    · rw [if_pos (by omega)] at unsigned
      simp only [unsigned, if_pos fits]
      exact if_neg (Nat.not_le.mpr fits)
    · by_cases wide : digitsValue ds ≤ 2 ^ bits - 1
      · rw [if_pos wide] at unsigned
        simp only [unsigned, if_neg fits]
        exact if_pos (Nat.not_lt.mp fits)
      · rw [if_neg wide] at unsigned
        simp only [unsigned, if_neg fits]
  · exact head 45 (by decide)
  · exact head 43 (by decide)

end Integer

namespace Literal

/-- The literal that a token of the kind with the text stands for. -/
inductive Reads : TokenKind → Bytes → Literal → Prop where
  | yes (text : Bytes) : Reads .kwTrue text (.bool true)
  | no (text : Bytes) : Reads .kwFalse text (.bool false)
  | string {text value : Bytes} (h : Lexer.Quoted text value) : Reads .string text (.string value)
  | char (c : UInt8) : Reads .char [39, c, 39] (.char c)
  | int {ds : Bytes} {v : Int64} (ne : ds ≠ []) (digits : ds.all Lexer.isDigit = true)
      (fits : digitsValue ds ≤ 2 ^ 31 - 1) (h : v.toInt = digitsValue ds) : Reads .integer ds (.int v)
  | long {ds : Bytes} {v : Int64} (ne : ds ≠ []) (digits : ds.all Lexer.isDigit = true)
      (fits : digitsValue ds ≤ 2 ^ 63 - 1) (h : v.toInt = digitsValue ds) :
      Reads .integer (ds ++ [76]) (.long v)

def integerValue (text : Bytes) : Nat :=
  digitsValue (if Bytes.endsWith text [76] then text.dropLast else text)

/-- The suffix marks the longer of the two integer types. -/
def IntegerFits (text : Bytes) : Prop :=
  integerValue text ≤ if Bytes.endsWith text [76] then 2 ^ 63 - 1 else 2 ^ 31 - 1

instance (text : Bytes) : Decidable (IntegerFits text) := inferInstanceAs (Decidable (_ ≤ _))

theorem startsWith_triple (value : Bytes) :
    Bytes.startsWith ([34, 34, 34] ++ value ++ [34, 34, 34]) [34, 34, 34] = true := by
  rw [List.append_assoc]
  exact List.isPrefixOf_iff_prefix.mpr (List.prefix_append _ _)

theorem not_startsWith_triple {value : Bytes} (plain : 34 ∉ value) :
    ¬Bytes.startsWith (34 :: value ++ [34]) [34, 34, 34] = true := by
  rw [List.cons_append, Bytes.startsWith, List.isPrefixOf_iff_prefix, List.prefix_cons_inj]
  intro starts
  cases value with
  | nil => exact absurd starts (by decide)
  | cons c value =>
    obtain ⟨rfl, -⟩ := List.cons_prefix_cons.mp starts
    exact plain List.mem_cons_self

theorem unquote_eq {text value : Bytes} (h : Lexer.Quoted text value) : unquote text = value := by
  obtain rfl | ⟨plain, rfl⟩ := h
  · have triple : 6 ≤ ([34, 34, 34] ++ value ++ [34, 34, 34]).length ∧
        Bytes.startsWith ([34, 34, 34] ++ value ++ [34, 34, 34]) [34, 34, 34] = true := by
      refine ⟨?_, startsWith_triple value⟩
      simp only [List.length_append, List.length_cons, List.length_nil]
      omega
    unfold unquote
    simp only [if_pos triple, Bytes.slice]
    simp
  · have single : ¬(6 ≤ (34 :: value ++ [34]).length ∧
        Bytes.startsWith (34 :: value ++ [34]) [34, 34, 34] = true) :=
      fun both => not_startsWith_triple plain both.2
    unfold unquote
    simp only [if_neg single, Bytes.slice]
    simp

section Digits

variable {ds : Bytes} (ne : ds ≠ []) (digits : ds.all Lexer.isDigit = true)
include digits

theorem endsWith_digits : Bytes.endsWith ds [76] = false := by
  rw [Bool.eq_false_iff]
  intro suffix
  have mem := (List.isSuffixOf_iff_suffix.mp suffix).subset (List.mem_singleton_self 76)
  exact absurd (List.all_eq_true.mp digits 76 mem) (by decide)

theorem integerValue_digits : integerValue ds = digitsValue ds := by
  rw [integerValue, endsWith_digits digits, if_neg Bool.false_ne_true]

theorem integerFits_digits : IntegerFits ds ↔ digitsValue ds ≤ 2 ^ 31 - 1 := by
  rw [IntegerFits, integerValue_digits digits, endsWith_digits digits, if_neg Bool.false_ne_true]

include ne

theorem ofInteger_digits : ofInteger ds =
    if digitsValue ds < 2 ^ 31 then .ok (.int (Int64.ofInt (digitsValue ds))) else .error .int := by
  rw [ofInteger, endsWith_digits digits, if_neg Bool.false_ne_true,
    Integer.read_digits (by decide) ne digits]
  by_cases fits : digitsValue ds < 2 ^ (32 - 1)
  · rw [if_pos fits]
    exact (if_pos fits).symm
  · rw [if_neg fits]
    exact (if_neg fits).symm

end Digits

theorem endsWith_long (ds : Bytes) : Bytes.endsWith (ds ++ [76]) [76] = true :=
  List.isSuffixOf_iff_suffix.mpr (List.suffix_append ds [76])

theorem integerValue_long (ds : Bytes) : integerValue (ds ++ [76]) = digitsValue ds := by
  rw [integerValue, endsWith_long, if_pos rfl, List.dropLast_concat]

theorem integerFits_long (ds : Bytes) : IntegerFits (ds ++ [76]) ↔ digitsValue ds ≤ 2 ^ 63 - 1 := by
  rw [IntegerFits, integerValue_long, endsWith_long, if_pos rfl]

theorem ofInteger_long {ds : Bytes} (ne : ds ≠ []) (digits : ds.all Lexer.isDigit = true) :
    ofInteger (ds ++ [76]) =
      if digitsValue ds < 2 ^ 63 then .ok (.long (Int64.ofInt (digitsValue ds)))
      else .error .long := by
  rw [ofInteger, endsWith_long, if_pos rfl, List.dropLast_concat,
    Integer.read_digits (by decide) ne digits]
  by_cases fits : digitsValue ds < 2 ^ (64 - 1)
  · rw [if_pos fits]
    exact (if_pos fits).symm
  · rw [if_neg fits]
    exact (if_neg fits).symm

theorem toInt_ofInt_natCast {n : Nat} (h : n < 2 ^ 63) : (Int64.ofInt (n : Int)).toInt = n :=
  Int64.toInt_ofInt_of_le (by omega) (by omega)

section Token

variable {i : Nat} {kind : TokenKind} {text : Bytes} {l : Literal}

theorem reads_of_ofToken (form : Lexer.LiteralText kind text) (h : ofToken i kind text = .ok l) :
    Reads kind text l := by
  cases kind with
  | kwTrue =>
    cases h
    exact .yes text
  | kwFalse =>
    cases h
    exact .no text
  | string =>
    obtain ⟨value, quoted⟩ := form
    rw [ofToken, unquote_eq quoted] at h
    cases h
    exact .string quoted
  | integer =>
    obtain ⟨ds, ne, digits, rfl | rfl⟩ := form
    · rw [ofToken, ofInteger_digits ne digits] at h
      by_cases fits : digitsValue text < 2 ^ 31
      · rw [if_pos fits] at h
        cases h
        exact .int ne digits (by omega) (toInt_ofInt_natCast (by omega))
      · rw [if_neg fits] at h
        cases h
    · rw [ofToken, ofInteger_long ne digits] at h
      by_cases fits : digitsValue ds < 2 ^ 63
      · rw [if_pos fits] at h
        cases h
        exact .long ne digits (by omega) (toInt_ofInt_natCast fits)
      · rw [if_neg fits] at h
        cases h
  | char =>
    obtain ⟨c, rfl⟩ := form
    cases h
    exact .char c
  | _ => cases h

theorem ofToken_of_reads (h : Reads kind text l) : ofToken i kind text = .ok l := by
  cases h with
  | yes | no | char => rfl
  | string quoted => rw [ofToken, unquote_eq quoted]
  | int ne digits fits same =>
    rw [ofToken, ofInteger_digits ne digits, if_pos (by omega), ← same, Int64.ofInt_toInt]
  | long ne digits fits same =>
    rw [ofToken, ofInteger_long ne digits, if_pos (by omega), ← same, Int64.ofInt_toInt]

theorem Reads.kind_mem (h : Reads kind text l) : kind ∈ kinds := by
  cases h <;> decide

theorem Reads.integerFits (h : Reads kind text l) (integer : kind = .integer) :
    IntegerFits text := by
  cases h with
  | int ne digits fits same => exact (integerFits_digits digits).mpr fits
  | long ne digits fits same => exact (integerFits_long _).mpr fits
  | _ => cases integer

theorem Reads.shape_integer (h : Reads kind text l) (integer : kind = .integer) (object : Int) :
    ∃ v, l.shape object = .intLit v ∧ v.toInt = integerValue text := by
  cases h with
  | int ne digits fits same => exact ⟨_, rfl, by rw [same, integerValue_digits digits]⟩
  | long ne digits fits same => exact ⟨_, rfl, by rw [same, integerValue_long]⟩
  | _ => cases integer

theorem exists_reads (form : Lexer.LiteralText kind text) (mem : kind ∈ kinds)
    (fits : kind = .integer → IntegerFits text) : ∃ l, Reads kind text l := by
  cases kind with
  | kwTrue => exact ⟨_, .yes text⟩
  | kwFalse => exact ⟨_, .no text⟩
  | string =>
    obtain ⟨value, quoted⟩ := form
    exact ⟨_, .string quoted⟩
  | integer =>
    obtain ⟨ds, ne, digits, rfl | rfl⟩ := form
    · have bound := (integerFits_digits digits).mp (fits rfl)
      exact ⟨_, .int ne digits bound (toInt_ofInt_natCast (by omega))⟩
    · have bound := (integerFits_long ds).mp (fits rfl)
      exact ⟨_, .long ne digits bound (toInt_ofInt_natCast (by omega))⟩
  | char =>
    obtain ⟨c, rfl⟩ := form
    exact ⟨_, .char c⟩
  | _ => exact absurd mem (by simp [kinds])

end Token

end Literal

end PrintLang
