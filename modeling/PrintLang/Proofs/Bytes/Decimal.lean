import Mathlib.Algebra.Ring.Nat
import PrintLang.Bytes

set_option autoImplicit false

namespace PrintLang

theorem decimalNat_ne_nil (n : Nat) : decimalNat n ≠ [] := by
  by_cases h : n < 10
  · rw [decimalNat_of_lt h]
    simp
  · rw [decimalNat_of_le (by omega)]
    simp

theorem length_decimalNat_pos (n : Nat) : 0 < (decimalNat n).length :=
  List.length_pos_iff.mpr (decimalNat_ne_nil n)

theorem length_decimalNat_le {n k : Nat} (hk : 0 < k) (h : n < 10 ^ k) :
    (decimalNat n).length ≤ k := by
  induction k generalizing n with
  | zero => omega
  | succ k ih =>
    by_cases hn : n < 10
    · rw [decimalNat_of_lt hn]
      simp
    · rw [decimalNat_of_le (by omega), List.length_append, List.length_singleton]
      have hk' : 0 < k := by
        rcases k with _ | k
        · simp at h
          omega
        · omega
      have hdiv : n / 10 < 10 ^ k := by
        rw [Nat.div_lt_iff_lt_mul (by decide)]
        rwa [Nat.pow_succ] at h
      have := ih hk' hdiv
      omega

def minus (v : Int) : Bytes := if v < 0 then [45] else []

theorem minus_of_neg {v : Int} (h : v < 0) : minus v = [45] := if_pos h

theorem minus_of_nonneg {v : Int} (h : ¬ v < 0) : minus v = [] := if_neg h

theorem length_minus_le (v : Int) : (minus v).length ≤ 1 := by
  unfold minus
  split <;> simp

theorem decimal_eq (v : Int) : decimal v = minus v ++ decimalNat v.natAbs := by
  cases v with
  | ofNat n =>
    rw [minus_of_nonneg (by simp), decimal]
    rfl
  | negSucc n =>
    rw [minus_of_neg (Int.negSucc_lt_zero n), decimal]
    rfl

theorem bytes_append (s t : String) : bytes (s ++ t) = bytes s ++ bytes t := by
  simp [bytes]

theorem bytes_digitChar {d : Nat} (h : d < 10) :
    bytes (String.ofList [d.digitChar]) = [digitByte d] := by
  decide +revert

theorem bytes_repr (n : Nat) : bytes n.repr = decimalNat n := by
  induction n using Nat.strongRecOn with
  | ind n ih =>
    rw [Nat.repr_eq_ofList_toDigits, Nat.toDigits_eq_if (by decide)]
    by_cases small : n < 10
    · rw [if_pos small, decimalNat_of_lt small, bytes_digitChar small]
    · rw [if_neg small, decimalNat_of_le (by omega), String.ofList_append, bytes_append,
        bytes_digitChar (Nat.mod_lt _ (by decide)), ← Nat.repr_eq_ofList_toDigits, ih _ (by omega)]

theorem bytes_toString (v : Int) : bytes (toString v) = decimal v := by
  cases v with
  | ofNat n => exact bytes_repr n
  | negSucc n =>
    change bytes ("-" ++ (n + 1).repr) = _
    rw [bytes_append, bytes_repr]
    rfl

theorem length_toDigits (n : Nat) : (Nat.toDigits 10 n).length = (decimalNat n).length := by
  induction n using Nat.strongRecOn with
  | ind n ih =>
    rw [Nat.toDigits_eq_if (by decide)]
    by_cases small : n < 10
    · rw [if_pos small, decimalNat_of_lt small, List.length_singleton, List.length_singleton]
    · rw [if_neg small, decimalNat_of_le (by omega), List.length_append, List.length_append,
        ih _ (by omega), List.length_singleton, List.length_singleton]

end PrintLang
