import Mathlib.Algebra.Ring.Nat
import PrintLang.Machine.Memory

set_option autoImplicit false

namespace PrintLang

namespace LittleEndian

theorem decode_encode (w n : Nat) : decode (encode w n) = n % 256 ^ w := by
  induction w generalizing n with
  | zero => simp [encode, decode, Nat.mod_one]
  | succ w ih =>
    have hb : (n % 256).toUInt8.toNat = n % 256 := by
      simp [Nat.toUInt8, UInt8.toNat_ofNat']
    rw [encode, decode, ih, hb, Nat.pow_succ, Nat.mul_comm (256 ^ w), Nat.mod_mul]

end LittleEndian

namespace Memory

theorem fits_of_le {a n : Nat} (low : dataBase ≤ a) (high : a + n ≤ memSize) :
    fits a n = true := by
  simp only [fits, low, high, decide_true, Bool.and_self]

theorem set_comm (m : Memory) {a c : Nat} (h : a ≠ c) (b d : UInt8) :
    (m.set a b).set c d = (m.set c d).set a b := by
  rw [set, set, set, set, Vector.setIfInBound_comm b d h]

theorem set_write_comm (m : Memory) {a c : Nat} (h : a < c) (b : UInt8) (xs : Bytes) :
    (m.write c xs).set a b = (m.set a b).write c xs := by
  induction xs generalizing m c with
  | nil => rfl
  | cons d xs ih =>
    simp only [write]
    rw [ih _ (by omega), set_comm m (by omega)]

theorem write_write (m : Memory) (a : Nat) (xs ys : Bytes) :
    (m.write (a + xs.length) ys).write a xs = m.write a (xs ++ ys) := by
  induction xs generalizing m a with
  | nil => rfl
  | cons b xs ih =>
    simp only [List.cons_append, write, List.length_cons]
    rw [set_write_comm m (by omega), show a + (xs.length + 1) = a + 1 + xs.length by omega, ih]

theorem get_write_outside (m : Memory) (a : Nat) (xs : Bytes) {c : Nat}
    (h : c < a ∨ a + xs.length ≤ c) : (m.write a xs).get c = m.get c := by
  induction xs generalizing m a with
  | nil => rfl
  | cons b xs ih =>
    simp only [List.length_cons] at h
    rw [write, ih _ _ (by omega), get_set_of_ne m (by omega)]

theorem length_read (m : Memory) (a n : Nat) : (m.read a n).length = n := by
  induction n generalizing a with
  | zero => rfl
  | succ n ih => simp [read, ih]

theorem read_add (m : Memory) (a n k : Nat) : m.read a (n + k) = m.read a n ++ m.read (a + n) k := by
  induction n generalizing a with
  | zero => simp [read]
  | succ n ih =>
    rw [Nat.succ_add, read, read, ih, List.cons_append, show a + 1 + n = a + (n + 1) by omega]

theorem read_congr {m u : Memory} {a n : Nat} (h : ∀ c, a ≤ c → c < a + n → u.get c = m.get c) :
    u.read a n = m.read a n := by
  induction n generalizing a with
  | zero => rfl
  | succ n ih =>
    rw [read, read, h a (by omega) (by omega), ih fun c hc hc' => h c (by omega) (by omega)]

theorem read_write_same (m : Memory) (a : Nat) (xs : Bytes) (h : a + xs.length ≤ memSize) :
    (m.write a xs).read a xs.length = xs := by
  induction xs generalizing m a with
  | nil => rfl
  | cons b xs ih =>
    simp only [List.length_cons] at h
    rw [List.length_cons, read, write, ih _ _ (by omega),
      get_write_outside _ _ _ (by omega), get_set_same m (by omega)]

theorem read_write_append (m : Memory) (a : Nat) (xs ys : Bytes)
    (h : a + (xs.length + ys.length) ≤ memSize) :
    (m.write a (xs ++ ys)).read a xs.length = xs ∧
      (m.write a (xs ++ ys)).read (a + xs.length) ys.length = ys := by
  have all := read_write_same m a (xs ++ ys) (by rw [List.length_append]; omega)
  rw [List.length_append, read_add] at all
  exact List.append_inj all (length_read _ _ _)

end Memory

end PrintLang
