import Mathlib.Algebra.Ring.Int.Defs
import PrintLang.Bytes.Integer
import PrintLang.Proofs.Bytes.Decimal

set_option autoImplicit false

namespace PrintLang

theorem toNat_digitByte {d : Nat} (h : d < 10) : (digitByte d).toNat = 48 + d := by
  rw [digitByte, if_pos h, Nat.toUInt8_eq, UInt8.toNat_ofNat']
  omega

def isDigitByte (b : UInt8) : Bool := 48 ≤ b && b ≤ 57

theorem isDigitByte_digitByte {d : Nat} (h : d < 10) : isDigitByte (digitByte d) = true := by
  have hd := toNat_digitByte h
  simp only [isDigitByte, Bool.and_eq_true, decide_eq_true_eq, UInt8.le_iff_toNat_le, hd]
  exact ⟨Nat.le_add_right 48 d, by show 48 + d ≤ 57; omega⟩

theorem decimalNat_all_digits (n : Nat) : (decimalNat n).all isDigitByte = true := by
  induction n using Nat.strongRecOn with
  | ind n ih =>
    by_cases h : n < 10
    · rw [decimalNat_of_lt h, List.all_cons, isDigitByte_digitByte h]
      rfl
    · rw [decimalNat_of_le (by omega), List.all_append, ih (n / 10) (by omega), List.all_cons,
        isDigitByte_digitByte (Nat.mod_lt n (by decide))]
      rfl

theorem head_decimalNat {n : Nat} (h : n ≠ 0) : ∀ b ∈ (decimalNat n).head?, b ≠ 48 := by
  induction n using Nat.strongRecOn with
  | ind n ih =>
    intro b hb
    by_cases hn : n < 10
    · rw [decimalNat_of_lt hn] at hb
      obtain rfl : digitByte n = b := by simpa using hb
      intro h48
      have := toNat_digitByte hn
      rw [h48] at this
      change 48 = 48 + n at this
      omega
    · rw [decimalNat_of_le (by omega)] at hb
      obtain ⟨c, rest, hc⟩ := List.exists_cons_of_ne_nil (decimalNat_ne_nil (n / 10))
      refine ih (n / 10) (by omega) (by omega) b ?_
      rw [hc] at hb ⊢
      exact hb

namespace Integer

theorem digit?_digitByte {d : Nat} (h : d < 10) : digit? (digitByte d) = some d := by
  have hd := isDigitByte_digitByte h
  rw [isDigitByte] at hd
  rw [digit?, if_pos hd, toNat_digitByte h, Nat.add_sub_cancel_left]

theorem digitByte_ne_underscore {d : Nat} (h : d < 10) : digitByte d ≠ 95 := by
  intro he
  have := toNat_digitByte h
  rw [he] at this
  change 95 = 48 + d at this
  omega

theorem readDigits_append (base limit : Nat) (us : Bool) (acc : Nat) (xs ys : Bytes) {n : Nat}
    (h : readDigits base limit us acc xs = .ok n) :
    readDigits base limit us acc (xs ++ ys) = readDigits base limit us n ys := by
  induction xs generalizing acc with
  | nil =>
    obtain rfl : acc = n := by simpa [readDigits] using h
    rfl
  | cons b xs ih =>
    rw [readDigits] at h
    rw [List.cons_append, readDigits]
    split at h
    · next hu => rw [if_pos hu, ih acc h]
    · next hu =>
      rw [if_neg hu]
      split at h
      · cases h
      · next d hd =>
        split at h
        · cases h
        · next hb =>
          rw [if_neg hb]
          split at h
          · cases h
          · next hl => rw [if_neg hl, ih _ h]

theorem readDigits_digit (limit : Nat) (us : Bool) (acc : Nat) {d : Nat} (h : d < 10)
    (hl : acc * 10 + d ≤ limit) :
    readDigits 10 limit us acc [digitByte d] = .ok (acc * 10 + d) := by
  have hu : ¬ (us && digitByte d == 95) = true := by
    simp [digitByte_ne_underscore h]
  rw [readDigits, if_neg hu, digit?_digitByte h]
  simp only [if_neg (Nat.not_le.mpr h), if_neg (Nat.not_lt.mpr hl), readDigits]

theorem readDigits_decimalNat (limit : Nat) (us : Bool) {n : Nat} (h : n ≤ limit) :
    readDigits 10 limit us 0 (decimalNat n) = .ok n := by
  induction n using Nat.strongRecOn with
  | ind n ih =>
    by_cases hn : n < 10
    · have single := readDigits_digit limit us 0 hn (by omega)
      rwa [Nat.zero_mul, Nat.zero_add, ← decimalNat_of_lt hn] at single
    · rw [decimalNat_of_le (by omega), readDigits_append _ _ _ _ _ _ (ih (n / 10) (by omega) (by omega)),
        readDigits_digit limit us (n / 10) (Nat.mod_lt n (by decide)) (by omega)]
      congr 1
      omega

theorem splitBase_decimalNat {n : Nat} (h : n ≠ 0) :
    splitBase (decimalNat n) = (10, decimalNat n) := by
  obtain ⟨b, rest, hb⟩ := List.exists_cons_of_ne_nil (decimalNat_ne_nil n)
  have hne : b ≠ 48 := head_decimalNat h b (by rw [hb]; rfl)
  rw [hb]
  unfold splitBase
  split
  · next heq =>
    cases heq
    exact absurd rfl hne
  · next heq =>
    cases heq
    exact absurd rfl hne
  · rfl

theorem underscore_not_mem_decimalNat (n : Nat) : (decimalNat n).contains 95 = false := by
  rw [Bool.eq_false_iff]
  intro h
  have hm : (95 : UInt8) ∈ decimalNat n := by simpa using h
  have := List.all_eq_true.mp (decimalNat_all_digits n) 95 hm
  exact absurd this (by decide)

theorem readUnsigned_decimalNat (bits : Nat) {n : Nat} (h : n < 2 ^ bits) :
    readUnsigned .marked bits (decimalNat n) = .ok n := by
  rw [readUnsigned, if_neg (decimalNat_ne_nil n)]
  have hle : n ≤ Nat.pow 2 bits - 1 := Nat.le_sub_one_of_lt h
  by_cases hn : n = 0
  · subst hn
    rw [decimalNat_of_lt (by decide)]
    rfl
  · simp only [splitBase_decimalNat hn, readDigits_decimalNat _ _ hle,
      underscore_not_mem_decimalNat, Bool.false_and, Bool.false_eq_true, if_false]

/-- Every number of the size is read back, the least one as well. -/
theorem read_decimal {bits : Nat} {v : Int} (hb : 0 < bits) (low : -2 ^ (bits - 1) ≤ v)
    (high : v < 2 ^ (bits - 1)) : read .marked bits (decimal v) = .ok v := by
  obtain ⟨k, rfl⟩ : ∃ k, bits = k + 1 := ⟨bits - 1, by omega⟩
  have cast : (2 : Int) ^ k = (2 ^ k : Nat) := by simp
  rw [Nat.add_sub_cancel, cast] at low high
  have twice : 2 ^ (k + 1) = 2 ^ k * 2 := Nat.pow_succ ..
  cases v with
  | ofNat n =>
    have hn : n < Nat.pow 2 k := Int.ofNat_lt.mp high
    have unsigned := readUnsigned_decimalNat (k + 1) (n := n) (by
      have : n < 2 ^ k := hn
      omega)
    -- a digit is no sign
    have unsignedHead (b : UInt8) (rest : Bytes) (hc : decimalNat n = b :: rest) :
        isDigitByte b = true :=
      List.all_eq_true.mp (decimalNat_all_digits n) b (by rw [hc]; exact List.mem_cons_self)
    rw [decimal, read]
    · simp only [unsigned, Bool.false_eq_true, if_false, Nat.add_sub_cancel]
      rw [if_neg (Nat.not_le.mpr hn)]
      rfl
    · exact fun rest hc => absurd (unsignedHead 45 rest hc) (by decide)
    · exact fun rest hc => absurd (unsignedHead 43 rest hc) (by decide)
  | negSucc n =>
    have hn : n + 1 ≤ Nat.pow 2 k := by
      have : n + 1 ≤ 2 ^ k := by omega
      exact this
    have unsigned := readUnsigned_decimalNat (k + 1) (n := n + 1) (by
      have : n + 1 ≤ 2 ^ k := hn
      omega)
    simp only [decimal, read, unsigned, if_true, Nat.add_sub_cancel]
    rw [if_neg (Nat.not_lt.mpr hn)]
    rfl

end Integer

theorem decimalNat_injective {n k : Nat} (h : decimalNat n = decimalNat k) : n = k := by
  have hn := Integer.readDigits_decimalNat (max n k) false (Nat.le_max_left n k)
  rw [h, Integer.readDigits_decimalNat (max n k) false (Nat.le_max_right n k)] at hn
  cases hn
  rfl

end PrintLang
