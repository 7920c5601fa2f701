import PrintLang.Bytes.Quoted
import PrintLang.Proofs.Bytes.Ascii

set_option autoImplicit false

namespace PrintLang

theorem newline_not_mem_hexNat (n : Nat) : 10 ∉ hexNat n := by
  have digit : ∀ d < 16, digitByte d ≠ 10 := by decide
  unfold hexNat
  fun_induction digitsIn 16 n with
  | case1 n small => simpa using (digit n (by omega)).symm
  | case2 n _ ih =>
    rw [List.mem_append, not_or, List.mem_singleton]
    exact ⟨ih, (digit (n % 16) (Nat.mod_lt n (by decide))).symm⟩

theorem Printable.ranges_bounded : ∀ r ∈ ranges, 10 < r.1 ∧ r.2 < 0x110000 := by
  decide +kernel

theorem isPrintable_bounded {c : Nat} (h : isPrintable c = true) : c ≠ 10 ∧ c < 0x110000 := by
  unfold isPrintable at h
  split at h
  · simp only [Bool.and_eq_true, decide_eq_true_eq] at h
    omega
  · obtain ⟨r, mem, inside⟩ := List.any_eq_true.mp h
    have bounds := Printable.ranges_bounded r mem
    simp only [Bool.and_eq_true, decide_eq_true_eq] at inside
    omega

theorem Utf8.newline_not_mem_encode {c : Nat} (other : c ≠ 10) (bound : c < 0x110000) :
    10 ∉ encode c := by
  have differs {n : Nat} (ne : n ≠ 10) (small : n < 256) : (10 : UInt8) ≠ n.toUInt8 := by
    intro same
    have value := congrArg UInt8.toNat same
    simp only [Nat.toUInt8_eq, UInt8.toNat_ofNat', UInt8.reduceToNat] at value
    omega
  unfold encode
  split
  · rw [List.mem_singleton]
    exact differs other (by omega)
  -- all bytes of the longer forms are marked by their upper bits
  all_goals
    repeat' split
    all_goals
      simp only [List.mem_cons, List.not_mem_nil, or_false, not_or]
      repeat' apply And.intro
      all_goals exact differs (by omega) (by omega)

namespace Quoted

theorem newline_not_mem_numeric {mark : UInt8} (other : mark ≠ 10) (width code : Nat) :
    10 ∉ numeric mark width code := by
  have zeros : 10 ∉ List.replicate (width - (hexNat code).length) (48 : UInt8) :=
    fun mem => absurd (List.eq_of_mem_replicate mem) (by decide)
  simp only [numeric, padZeros, List.mem_cons, List.mem_append, not_or]
  exact ⟨by decide, other.symm, zeros, newline_not_mem_hexNat code⟩

theorem newline_not_mem_code {quote : UInt8} (other : quote ≠ 10) (c : Nat) :
    10 ∉ code quote c := by
  unfold code
  split
  · next escaped =>
    have mark : c ≠ 10 ∧ c < 0x110000 := by
      rcases escaped with rfl | rfl
      · have small := quote.toNat_lt
        exact ⟨fun same => other (UInt8.toNat_inj.mp same), by omega⟩
      · decide
    rw [List.mem_cons, not_or]
    exact ⟨by decide, Utf8.newline_not_mem_encode mark.1 mark.2⟩
  · split
    · next shown =>
      have bounded := isPrintable_bounded shown
      exact Utf8.newline_not_mem_encode bounded.1 bounded.2
    · repeat' split
      all_goals first | decide | exact newline_not_mem_numeric (by decide) _ _

end Quoted

theorem newline_not_mem_quoted (s : Bytes) : 10 ∉ quoted s := by
  have pieces : 10 ∉ (Bytes.pieces s).flatMap (Quoted.piece 34) := by
    intro mem
    obtain ⟨p, -, inside⟩ := List.mem_flatMap.mp mem
    cases p with
    | code v _ => exact Quoted.newline_not_mem_code (by decide) v inside
    | stray b => exact Quoted.newline_not_mem_numeric (by decide) 2 b.toNat inside
  simp only [quoted, List.mem_cons, List.mem_append, not_or]
  exact ⟨⟨by decide, pieces⟩, by decide⟩

end PrintLang
