import PrintLang.Bytes

set_option autoImplicit false

namespace PrintLang

/-- The size of the address space. The stack starts at its end and grows down. -/
def memSize : Nat := 1048576

def dataBase : Nat := 0x1000

namespace LittleEndian

def encode : (w n : Nat) → Bytes
  | 0, _ => []
  | w + 1, n => (n % 256).toUInt8 :: encode w (n / 256)

def decode : Bytes → Nat
  | [] => 0
  | b :: rest => b.toNat + 256 * decode rest

theorem length_encode (w n : Nat) : (encode w n).length = w := by
  induction w generalizing n with
  | zero => rfl
  | succ w ih => simp [encode, ih]

end LittleEndian

structure Memory where
  cells : Vector UInt8 memSize

namespace Memory

def zero : Memory := ⟨Vector.replicate memSize 0⟩

def get (m : Memory) (a : Nat) : UInt8 := m.cells[a]?.getD 0

def set (m : Memory) (a : Nat) (b : UInt8) : Memory := ⟨m.cells.setIfInBounds a b⟩

def read (m : Memory) (a : Nat) : (n : Nat) → Bytes
  | 0 => []
  | n + 1 => m.get a :: m.read (a + 1) n

def write (m : Memory) (a : Nat) : Bytes → Memory
  | [] => m
  | b :: rest => (m.set a b).write (a + 1) rest

def fits (a n : Nat) : Bool := dataBase ≤ a && a + n ≤ memSize

theorem get_zero (a : Nat) : zero.get a = 0 := by
  unfold get zero
  by_cases h : a < memSize <;> simp [h]

theorem get_set_same (m : Memory) {a : Nat} (h : a < memSize) (b : UInt8) :
    (m.set a b).get a = b := by
  simp [get, set, h]

theorem get_set_of_ne (m : Memory) {a c : Nat} (h : a ≠ c) (b : UInt8) :
    (m.set a b).get c = m.get c := by
  simp [get, set, Vector.getElem?_setIfInBounds_ne h]

end Memory

end PrintLang
