import Mathlib.Data.Nat.Digits.Lemmas
import PrintLang.Proofs.Machine.Bounded
import PrintLang.Proofs.Machine.Limit

set_option autoImplicit false

namespace PrintLang

namespace LittleEndian

def number (byte : Nat → Nat) (a n : Nat) : Nat :=
  Nat.ofDigits 256 ((List.range n).map fun i => byte (a + i))

section Number
variable (byte : Nat → Nat) (a n : Nat)

theorem number_succ : number byte a (n + 1) = byte a + 256 * number byte (a + 1) n := by
  have later : (fun i => byte (a + (i + 1))) = fun i => byte (a + 1 + i) := by
    funext i
    rw [Nat.add_assoc, Nat.add_comm 1]
  rw [number, List.range_succ_eq_map, List.map_cons, List.map_map, Nat.ofDigits_cons, Nat.add_zero]
  simp only [Function.comp_def, Nat.succ_eq_add_one, later, number]

variable {byte a n} in
theorem number_congr {other : Nat → Nat} (h : ∀ c, a ≤ c → c < a + n → byte c = other c) :
    number byte a n = number other a n := by
  rw [number, number]
  congr 1
  refine List.map_congr_left fun i hi => ?_
  exact h (a + i) (Nat.le_add_right a i) (Nat.add_lt_add_left (List.mem_range.mp hi) a)

theorem number_lt (small : ∀ c, byte c < 256) : number byte a n < 256 ^ n := by
  have bound := Nat.ofDigits_lt_base_pow_length (b := 256)
    (l := (List.range n).map fun i => byte (a + i)) (by decide) (by simp [small])
  rwa [List.length_map, List.length_range] at bound

end Number

end LittleEndian

namespace Memory
open LittleEndian

def Mapped (a n : Nat) : Prop := dataBase ≤ a ∧ a + n ≤ memSize

instance (a n : Nat) : Decidable (Mapped a n) := inferInstanceAs (Decidable (_ ∧ _))

theorem fits_iff (a n : Nat) : fits a n = true ↔ Mapped a n := by
  simp only [fits, Mapped, Bool.and_eq_true, decide_eq_true_eq]

/-- The byte at `c`, once the lowest `w` bytes of `v` stand from `a` on: one of them within their
addresses, and the old one elsewhere. -/
def byteAfter (m : Memory) (a w v c : Nat) : Nat :=
  if a ≤ c ∧ c < a + w then v / 256 ^ (c - a) % 256 else (m.get c).toNat

theorem decode_read (m : Memory) (a n : Nat) :
    decode (m.read a n) = number (fun c => (m.get c).toNat) a n := by
  induction n generalizing a with
  | zero => rfl
  | succ n ih => rw [read, decode, ih, number_succ]

theorem get_write_encode (m : Memory) {a w : Nat} (room : a + w ≤ memSize) (v c : Nat) :
    ((m.write a (encode w v)).get c).toNat = m.byteAfter a w v c := by
  -- One byte is set at `a`; the others are those of the quotient, one address further.
  induction w generalizing m a v with
  | zero =>
    rw [byteAfter, if_neg (by omega)]
    rfl
  | succ w ih =>
    rw [encode, write, ih _ (by omega), byteAfter, byteAfter]
    rcases Nat.lt_trichotomy c a with before | rfl | behind
    · rw [if_neg (by omega), if_neg (by omega), get_set_of_ne m (by omega)]
    · rw [if_neg (by omega), if_pos (by omega), get_set_same m (by omega), Nat.sub_self,
        Nat.pow_zero, Nat.div_one]
      simp
    · by_cases within : c < a + (w + 1)
      · rw [if_pos (by omega), if_pos (by omega), Nat.div_div_eq_div_mul, ← Nat.pow_succ',
          show (c - (a + 1)).succ = c - a by omega]
      · rw [if_neg (by omega), if_neg (by omega), get_set_of_ne m (by omega)]

end Memory

namespace Machine
open LittleEndian

/-- `u` is `m` with the lowest bytes of `v` at `a`. -/
structure Stores (m u : Machine) (a v : UInt64) (w : Width) : Prop where
  frame : u = m.withMemory u.memory
  bytes : ∀ c, (u.memory.get c).toNat = m.memory.byteAfter a.toNat w.size v.toNat c

/-- `x` is what is loaded from `b`, when a store of `v` at `a` has led from `m` to `u`. -/
structure Loads (m u : Machine) (a v : UInt64) (w : Width) (b : UInt64) (k : Width) (x : UInt64) :
    Prop where
  value : x.toNat = number (fun c => (u.memory.get c).toNat) b.toNat k.size
  /-- Byte by byte, new where the two accesses meet and old elsewhere. -/
  mixed : x.toNat = number (m.memory.byteAfter a.toNat w.size v.toNat) b.toNat k.size
  same : b = a → k = w → x.toNat = v.toNat % 2 ^ (8 * w.size)
  apart : b.toNat + k.size ≤ a.toNat ∨ a.toNat + w.size ≤ b.toNat → m.loadWord b k.size = .ok x

section Words
variable (m : Machine) {a : UInt64} {w : Nat}

theorem storeWord_of_mapped (h : Memory.Mapped a.toNat w) (v : UInt64) :
    m.storeWord a w v = (m.withMemory (m.memory.write a.toNat (encode w v.toNat)), none) := by
  rw [storeWord, if_pos ((Memory.fits_iff _ _).mpr h), withMemory]

theorem storeWord_of_unmapped (h : ¬ Memory.Mapped a.toNat w) (v : UInt64) :
    m.storeWord a w v = (m, some (.segfault w a)) :=
  if_neg (mt (Memory.fits_iff _ _).mp h)

theorem loadWord_of_unmapped (h : ¬ Memory.Mapped a.toNat w) :
    m.loadWord a w = .error (.segfault w a) :=
  if_neg (mt (Memory.fits_iff _ _).mp h)

theorem loadWord_of_mapped (h : Memory.Mapped a.toNat w) (small : w ≤ 8) :
    ∃ x : UInt64, m.loadWord a w = .ok x ∧ x.toNat = decode (m.memory.read a.toNat w) := by
  refine ⟨_, if_pos ((Memory.fits_iff _ _).mpr h), ?_⟩
  have bound : decode (m.memory.read a.toNat w) < 256 ^ w := by
    rw [Memory.decode_read]
    exact number_lt _ _ _ fun c => (m.memory.get c).toNat_lt
  have room : 256 ^ w ≤ 256 ^ 8 := Nat.pow_le_pow_right (by decide) small
  rw [Nat.toUInt64_eq, UInt64.toNat_ofNat_of_lt' (Nat.lt_of_lt_of_le bound room)]

theorem storeWord_eq_none_iff (v : UInt64) :
    (m.storeWord a w v).2 = none ↔ Memory.Mapped a.toNat w := by
  by_cases h : Memory.Mapped a.toNat w
  · exact iff_of_true (by rw [storeWord_of_mapped m h]) h
  · exact iff_of_false (by rw [storeWord_of_unmapped m h]; exact nofun) h

end Words

section Stored
variable {m u : Machine} {a v : UInt64} {w : Width}

theorem stores_write (m : Machine) (v : UInt64) (h : Memory.Mapped a.toNat w.size) :
    Stores m (m.withMemory (m.memory.write a.toNat (encode w.size v.toNat))) a v w where
  frame := by rw [memory_withMemory]
  bytes c := by rw [memory_withMemory, Memory.get_write_encode m.memory h.2]

theorem eq_of_storeWord (h : m.storeWord a w.size v = (u, none)) :
    Memory.Mapped a.toNat w.size ∧
      u = m.withMemory (m.memory.write a.toNat (encode w.size v.toNat)) := by
  have mapped := (storeWord_eq_none_iff m v).mp (congrArg Prod.snd h)
  rw [storeWord_of_mapped m mapped] at h
  exact ⟨mapped, (Prod.mk.inj h).1.symm⟩

theorem loads_of_storeWord (h : m.storeWord a w.size v = (u, none)) {b : UInt64} {k : Width}
    (mapped : Memory.Mapped b.toNat k.size) :
    ∃ x, u.loadWord b k.size = .ok x ∧ Loads m u a v w b k x := by
  obtain ⟨room, rfl⟩ := eq_of_storeWord h
  obtain ⟨x, loaded, value⟩ := loadWord_of_mapped _ mapped (Bounded.size_le_eight k)
  rw [memory_withMemory] at value
  refine ⟨x, loaded, ?_⟩
  constructor
  case value => rw [value, Memory.decode_read, memory_withMemory]
  case mixed =>
    rw [value, Memory.decode_read]
    exact number_congr fun c _ _ => Memory.get_write_encode m.memory room.2 v.toNat c
  case same =>
    rintro rfl rfl
    have length := length_encode k.size v.toNat
    have back := Memory.read_write_same m.memory b.toNat (encode k.size v.toNat)
      (by rw [length]; exact room.2)
    rw [length] at back
    rw [value, back, decode_encode, Nat.pow_mul]
  case apart =>
    intro away
    have old : (m.memory.write a.toNat (encode w.size v.toNat)).read b.toNat k.size =
        m.memory.read b.toNat k.size := by
      refine Memory.read_congr fun c low high => Memory.get_write_outside _ _ _ ?_
      rw [length_encode]
      omega
    rw [← loaded, loadWord, loadWord, memory_withMemory, old]

end Stored

section Stack
variable (m : Machine)

theorem mapped_below_iff :
    Memory.Mapped (m.reg .rsp - 8).toNat 8 ↔
      dataBase + 8 ≤ (m.reg .rsp).toNat ∧ (m.reg .rsp).toNat ≤ memSize := by
  have below := (m.reg .rsp).toNat_lt
  have eight : (8 : UInt64).toNat = 8 := rfl
  -- With less than eight in `%rsp` the difference wraps, to an address far above memory.
  rw [Memory.Mapped, UInt64.toNat_sub, eight]
  unfold dataBase memSize
  omega

theorem push_of_unmapped (h : ¬ Memory.Mapped (m.reg .rsp - 8).toNat 8) (v : UInt64) :
    m.push v = (m, some (.segfault 8 (m.reg .rsp - 8))) :=
  if_neg (mt (Memory.fits_iff _ _).mp h)

theorem setReg_reg (r : Reg) : m.setReg r (m.reg r) = m := by
  have same : m.regs.set r.index (m.reg r) = m.regs := Vector.set_getElem_self r.index.isLt
  rw [setReg, same]

theorem setReg_setReg (r : Reg) (x y : UInt64) : (m.setReg r x).setReg r y = m.setReg r y := by
  rw [setReg, setReg, setReg, Vector.set_set]

theorem drop_of_pushed (x : Memory) :
    ((m.withMemory x).setReg .rsp (m.reg .rsp - 8)).drop = m.withMemory x := by
  rw [drop, reg_setReg_same, UInt64.sub_add_cancel, setReg_setReg, ← reg_withMemory m x, setReg_reg]

variable {m} {u : Machine} {v : UInt64}

theorem push_eq_none_iff : (m.push v).2 = none ↔
    dataBase + 8 ≤ (m.reg .rsp).toNat ∧ (m.reg .rsp).toNat ≤ memSize := by
  rw [← mapped_below_iff]
  by_cases h : Memory.Mapped (m.reg .rsp - 8).toNat 8
  · exact iff_of_true (by rw [push_of_fits m v ((Memory.fits_iff _ _).mpr h)]) h
  · exact iff_of_false (by rw [push_of_unmapped m h]; exact nofun) h

theorem pop_of_push (h : m.push v = (u, none)) :
    u.top = .ok v ∧ Stores m u.drop (m.reg .rsp - 8) v .qword := by
  have mapped : Memory.Mapped (m.reg .rsp - 8).toNat Width.qword.size :=
    (mapped_below_iff m).mpr (push_eq_none_iff.mp (congrArg Prod.snd h))
  have fits := (Memory.fits_iff _ _).mpr mapped
  have length := length_encode 8 v.toNat
  rw [push_of_fits m v fits] at h
  obtain rfl := (Prod.mk.inj h).1
  constructor
  · have written := Memory.read_write_same m.memory (m.reg .rsp - 8).toNat (encode 8 v.toNat)
      (by rw [length]; exact mapped.2)
    rw [length] at written
    refine top_of_read _ v (by rw [reg_setReg_same]; exact fits) ?_
    rw [reg_setReg_same, memory_setReg, memory_withMemory, written]
  · rw [drop_of_pushed]
    exact stores_write (w := .qword) m v mapped

theorem exec_pop_of_top (p : Image) (dst : Operand) (h : u.top = .ok v) :
    exec p ⟨.pop, [dst]⟩ u = u.drop.write p dst .qword v := by
  simp only [exec, Instr.operand, List.getElem?_cons_zero, h]

end Stack

/-- Stores and loads succeed exactly within the bounds, taken as integers; the machine that tests them
in words does the same. What was stored is what is loaded, byte by byte, and a number that was pushed
comes back with the machine as it was, but for the eight bytes below the stack. -/
theorem memory_exact (m : Machine) :
    (∀ (a v : UInt64) (w : Width),
      Bounded.storeWord m a w.size v = .ok (m.storeWord a w.size v) ∧
      ((m.storeWord a w.size v).2 = none ↔ Memory.Mapped a.toNat w.size) ∧
      (¬ Memory.Mapped a.toNat w.size → m.storeWord a w.size v = (m, some (.segfault w.size a))) ∧
      ∀ u, m.storeWord a w.size v = (u, none) → Stores m u a v w ∧
        ∀ (b : UInt64) (k : Width),
          Bounded.loadWord u b k.size = (u.loadWord b k.size).mapError .fault ∧
          (Memory.Mapped b.toNat k.size →
            ∃ x, u.loadWord b k.size = .ok x ∧ Loads m u a v w b k x) ∧
          (¬ Memory.Mapped b.toNat k.size →
            u.loadWord b k.size = .error (.segfault k.size b))) ∧
    ∀ v : UInt64,
      ((m.push v).2 = none ↔
        dataBase + 8 ≤ (m.reg .rsp).toNat ∧ (m.reg .rsp).toNat ≤ memSize) ∧
      ∀ u, m.push v = (u, none) →
        u.top = .ok v ∧ u.drop.reg .rsp = m.reg .rsp ∧ Stores m u.drop (m.reg .rsp - 8) v .qword ∧
        ∀ (p : Image) (dst : Operand), exec p ⟨.pop, [dst]⟩ u = u.drop.write p dst .qword v := by
  constructor
  · intro a v w
    refine ⟨Bounded.storeWord_eq m a (Bounded.size_le_eight w) v, storeWord_eq_none_iff m v,
      fun unmapped => storeWord_of_unmapped m unmapped v, fun u stored => ⟨?_, fun b k => ?_⟩⟩
    · obtain ⟨mapped, rfl⟩ := eq_of_storeWord stored
      exact stores_write m v mapped
    · exact ⟨Bounded.loadWord_eq u b (Bounded.size_le_eight k), loads_of_storeWord stored,
        loadWord_of_unmapped u⟩
  · intro v
    refine ⟨push_eq_none_iff, fun u pushed => ?_⟩
    obtain ⟨top, stores⟩ := pop_of_push pushed
    refine ⟨top, ?_, stores, fun p dst => exec_pop_of_top p dst top⟩
    rw [stores.frame, reg_withMemory]

/-- Two bytes of the second number stand behind six of the first. An address whose end wraps around is
refused, and at the very end of memory there is room for a push. -/
theorem overlapping_stores_mix :
    (∃ u v : Machine,
      idleMachine.storeWord 0x2000 Width.qword.size 0x1122334455667788 = (u, none) ∧
      u.storeWord 0x2006 Width.dword.size 0xaabbccdd = (v, none) ∧
      v.loadWord 0x2000 Width.qword.size = .ok 0xccdd334455667788) ∧
    idleMachine.storeWord 0xfffffffffffffffc Width.qword.size 7 =
      (idleMachine, some (.segfault Width.qword.size 0xfffffffffffffffc)) ∧
    ∃ u, (idleMachine.setReg .rsp 0x100000).push 7 = (u, none) ∧ u.top = .ok 7 := by
  refine ⟨?_, ?_, ?_⟩
  · obtain ⟨-, accepts, -, first⟩ := (memory_exact idleMachine).1 0x2000 0x1122334455667788 .qword
    obtain ⟨u, hu⟩ : ∃ u, idleMachine.storeWord 0x2000 Width.qword.size 0x1122334455667788 =
      (u, none) := ⟨_, Prod.ext rfl (accepts.mpr (by decide))⟩
    obtain ⟨-, accepts, -, second⟩ := (memory_exact u).1 0x2006 0xaabbccdd .dword
    obtain ⟨v, hv⟩ : ∃ v, u.storeWord 0x2006 Width.dword.size 0xaabbccdd = (v, none) :=
      ⟨_, Prod.ext rfl (accepts.mpr (by decide))⟩
    refine ⟨u, v, hu, hv, ?_⟩
    obtain ⟨x, loaded, loads⟩ := ((second v hv).2 0x2000 .qword).2.1 (by decide)
    have digits : number (u.memory.byteAfter 0x2006 4 0xaabbccdd) 0x2000 8 = number (fun c =>
        if 0x2006 ≤ c then 0xaabbccdd / 256 ^ (c - 0x2006) % 256
        else 0x1122334455667788 / 256 ^ (c - 0x2000) % 256) 0x2000 8 := by
      refine number_congr fun c low high => ?_
      have old : (u.memory.get c).toNat =
          idleMachine.memory.byteAfter 0x2000 8 0x1122334455667788 c := (first u hu).1.bytes c
      have within : 0x2000 ≤ c ∧ c < 0x2000 + 8 := ⟨low, high⟩
      rw [Memory.byteAfter, old, Memory.byteAfter, if_pos within]
      exact if_congr (by omega) rfl rfl
    have value : x = 0xccdd334455667788 :=
      UInt64.toNat_inj.mp (loads.mixed.trans (digits.trans (by decide)))
    rw [loaded, value]
  · exact ((memory_exact idleMachine).1 0xfffffffffffffffc 7 .qword).2.2.1 (by decide)
  · obtain ⟨accepts, returns⟩ := (memory_exact (idleMachine.setReg .rsp 0x100000)).2 7
    have pushed : (idleMachine.setReg .rsp 0x100000).push 7 = (_, none) :=
      Prod.ext rfl (accepts.mpr (by decide))
    exact ⟨_, pushed, (returns _ pushed).1⟩

end Machine

end PrintLang
