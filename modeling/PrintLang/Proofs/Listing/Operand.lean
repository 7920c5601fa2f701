import PrintLang.Listing.Reader
import PrintLang.Proofs.Bytes.Ascii
import PrintLang.Proofs.Bytes.Integer
import PrintLang.Proofs.Bytes.Line

set_option autoImplicit false

namespace PrintLang

/-- The characters of operands: visible, and none of those that start a comment, end a label or stand
between operands. -/
def isOperandByte (b : UInt8) : Bool := isVisible b && b != 35 && b != 58 && b != 44

theorem isVisible_of_operandByte {b : UInt8} (h : isOperandByte b = true) : isVisible b = true := by
  simp only [isOperandByte, Bool.and_eq_true] at h
  exact h.1.1.1

def isNumberByte (b : UInt8) : Bool := isDigitByte b || b == 45

theorem isOperandByte_iff {b : UInt8} : isOperandByte b = true ↔ 33 ≤ b.toNat ∧ b.toNat ≤ 126 ∧
    b.toNat ≠ 35 ∧ b.toNat ≠ 58 ∧ b.toNat ≠ 44 := by
  simp only [isOperandByte, Bool.and_eq_true, isVisible_iff, bne_iff_ne, ne_eq, ← UInt8.toNat_inj,
    UInt8.reduceToNat, and_assoc]

theorem Reader.isSymbolStart_iff {b : UInt8} : isSymbolStart b = true ↔
    97 ≤ b.toNat ∧ b.toNat ≤ 122 ∨ 65 ≤ b.toNat ∧ b.toNat ≤ 90 ∨ b.toNat = 95 ∨ b.toNat = 46 := by
  simp only [isSymbolStart, Bool.or_eq_true, Bool.and_eq_true, decide_eq_true_eq, beq_iff_eq,
    UInt8.le_iff_toNat_le, ← UInt8.toNat_inj, UInt8.reduceToNat, or_assoc]

theorem isOperandByte_of_numberByte (b : UInt8) (h : isNumberByte b = true) :
    isOperandByte b = true := by
  simp only [isNumberByte, isDigitByte, Bool.or_eq_true, Bool.and_eq_true, decide_eq_true_eq,
    beq_iff_eq, UInt8.le_iff_toNat_le, ← UInt8.toNat_inj, UInt8.reduceToNat] at h
  rw [isOperandByte_iff]
  omega

theorem isOperandByte_of_symbolByte (b : UInt8) (h : Reader.isSymbolByte b = true) :
    isOperandByte b = true := by
  simp only [Reader.isSymbolByte, Bool.or_eq_true, Reader.isSymbolStart_iff, Bool.and_eq_true,
    decide_eq_true_eq, UInt8.le_iff_toNat_le, UInt8.reduceToNat] at h
  rw [isOperandByte_iff]
  omega

theorem decimalNat_numberBytes (n : Nat) : (decimalNat n).all isNumberByte = true := by
  apply List.all_eq_true.mpr
  intro b hb
  rw [isNumberByte, List.all_eq_true.mp (decimalNat_all_digits n) b hb, Bool.true_or]

theorem decimal_numberBytes (v : Int) : (decimal v).all isNumberByte = true := by
  cases v with
  | ofNat n => exact decimalNat_numberBytes n
  | negSucc n =>
    rw [decimal, List.all_cons, decimalNat_numberBytes]
    rfl

theorem decimal_ne_nil (v : Int) : decimal v ≠ [] := by
  cases v with
  | ofNat n => exact decimalNat_ne_nil n
  | negSucc n => exact List.cons_ne_nil _ _

theorem all_mono {p q : UInt8 → Bool} {s : Bytes} (h : s.all p = true)
    (hpq : ∀ b, p b = true → q b = true) : s.all q = true :=
  List.all_eq_true.mpr fun b hb => hpq b (List.all_eq_true.mp h b hb)

theorem symbol_symbolBytes {s : Bytes} (h : Reader.isSymbol s = true) :
    s.all Reader.isSymbolByte = true := by
  cases s with
  | nil => rfl
  | cons b rest =>
    simp only [Reader.isSymbol, Bool.and_eq_true] at h
    rw [List.all_cons, Reader.isSymbolByte, h.1, h.2]
    rfl

theorem Reg.mem_all (r : Reg) : r ∈ all := by
  cases r <;> decide

theorem Width.mem_all (w : Width) : w ∈ [Width.qword, .dword, .byte] := by
  cases w <;> decide

theorem Reg.name_symbolBytes (r : Reg) (w : Width) :
    (r.name w).all Reader.isSymbolByte = true := by
  have all : ∀ q ∈ Reg.all, ∀ x ∈ [Width.qword, .dword, .byte],
      (q.name x).all Reader.isSymbolByte = true := by
    decide
  exact all r r.mem_all w w.mem_all

theorem RegName.ofName_name (r : Reg) (w : Width) : ofName (r.name w) = .general r w := by
  have all : ∀ q ∈ Reg.all, ∀ x ∈ [Width.qword, .dword, .byte],
      ofName (q.name x) = .general q x := by
    decide
  exact all r r.mem_all w w.mem_all

def RegName.isKnown : RegName → Bool
  | .unknown _ => false
  | _ => true

theorem RegName.ofName_name_of_isKnown {r : RegName} (h : r.isKnown = true) : ofName r.name = r := by
  cases r with
  | general r w => exact ofName_name r w
  | rip => rw [name, ofName, if_pos rfl]
  | unknown name => cases h

theorem RegName.name_symbolBytes {r : RegName} (h : r.isKnown = true) :
    r.name.all Reader.isSymbolByte = true := by
  cases r with
  | general r w => exact r.name_symbolBytes w
  | rip => decide
  | unknown name => cases h

def Operand.isPlain : Operand → Bool
  | .register (.general _ _) => true
  | .immediate _ => true
  | .memory (.general _ _) _ [] => true
  | .target s => Reader.isSymbol s
  | _ => false

/-- The operands that some text decodes to: an address has a displacement or a symbol, never both. -/
def Operand.isReadable : Operand → Bool
  | .register r => r.isKnown
  | .immediate _ => true
  | .address s => Reader.isSymbol s
  | .memory base d s => base.isKnown && (s == [] || (d == 0 && Reader.isSymbol s))
  | .target s => Reader.isSymbol s
  | .bare _ => false

theorem Operand.isReadable_of_isPlain {op : Operand} (h : op.isPlain = true) :
    op.isReadable = true := by
  unfold isPlain at h
  split at h
  · rfl
  · rfl
  · rfl
  · exact h
  · cases h

/-- What the text of an address has in front of its base. -/
def Operand.front (d : Int64) (s : Bytes) : Bytes :=
  if s ≠ [] then s else if d = 0 then [] else decimal d.toInt

theorem Operand.render_memory (base : RegName) (d : Int64) (s : Bytes) :
    render (.memory base d s) = front d s ++ 40 :: 37 :: (base.name ++ [41]) := by
  simp only [render, List.append_assoc]
  rfl

theorem Operand.front_bytes {d : Int64} {s : Bytes} (h : s = [] ∨ Reader.isSymbol s = true) :
    (front d s).all (fun b => isNumberByte b || Reader.isSymbolByte b) = true := by
  have number : ∀ b, isNumberByte b = true → (isNumberByte b || Reader.isSymbolByte b) = true := by
    intro b hb
    rw [hb, Bool.true_or]
  have symbol : ∀ b, Reader.isSymbolByte b = true →
      (isNumberByte b || Reader.isSymbolByte b) = true := by
    intro b hb
    rw [hb, Bool.or_true]
  rcases h with rfl | h
  · rw [front, if_neg (not_not.mpr rfl)]
    split
    · rfl
    · exact all_mono (decimal_numberBytes _) number
  · unfold front
    split
    · exact all_mono (symbol_symbolBytes h) symbol
    · split
      · rfl
      · exact all_mono (decimal_numberBytes _) number

namespace Reader

theorem readRegister?_name {r : RegName} (h : r.isKnown = true) : readRegister? r.name = some r := by
  rw [readRegister?, RegName.ofName_name_of_isKnown h]
  cases r with
  | general r w => rfl
  | rip => rfl
  | unknown name => cases h

theorem isKnown_of_readRegister? {name : Bytes} {r : RegName} (h : readRegister? name = some r) :
    r.isKnown = true := by
  unfold readRegister? at h
  split at h
  · cases h
  · next known =>
    cases h
    cases hr : RegName.ofName name with
    | general r w => rfl
    | rip => rfl
    | unknown other => exact absurd hr (known other)

theorem readNumber?_decimal (v : Int64) : readNumber? (decimal v.toInt) = some v := by
  have low : -2 ^ (64 - 1) ≤ v.toInt := Int64.le_toInt v
  have high : v.toInt < 2 ^ (64 - 1) := Int64.toInt_lt v
  simp only [readNumber?, Integer.read_decimal (by decide) low high, Int64.ofInt_toInt]

theorem ten_le_digit {b : UInt8} {d : Nat} (start : isSymbolStart b = true)
    (h : Integer.digit? b = some d) : 10 ≤ d := by
  unfold Integer.digit? at h
  split at h
  · next decimal =>
    rw [isSymbolStart_iff] at start
    simp only [Bool.and_eq_true, decide_eq_true_eq, UInt8.le_iff_toNat_le,
      UInt8.reduceToNat] at decimal
    omega
  · simp only at h
    split at h
    · next letter =>
      cases h
      simp only [Bool.and_eq_true, decide_eq_true_eq, UInt8.le_iff_toNat_le,
        UInt8.reduceToNat] at letter
      omega
    · cases h

/-- No symbol is a number: a letter or a dot is no decimal digit, and no underscore stands before the
first digit. -/
theorem readNumber?_symbol {s : Bytes} (h : isSymbol s = true) : readNumber? s = none := by
  cases s with
  | nil => cases h
  | cons b rest =>
    simp only [isSymbol, Bool.and_eq_true] at h
    have other {x : UInt8} (hx : isSymbolStart x = false) : b ≠ x := by
      rintro rfl
      rw [h.1] at hx
      cases hx
    have zero : b ≠ 48 := other rfl
    have base : Integer.splitBase (b :: rest) = (10, b :: rest) := by
      unfold Integer.splitBase
      split
      · next heq => exact absurd (List.cons.inj heq).1 zero
      · next heq => exact absurd (List.cons.inj heq).1 zero
      · rfl
    have unsigned : ∃ e, Integer.readUnsigned .marked 64 (b :: rest) = .error e := by
      simp only [Integer.readUnsigned, if_neg (List.cons_ne_nil b rest), base]
      by_cases line : b = 95
      · subst line
        have refused : Integer.underscoresOk (95 :: rest) = false := by
          simp [Integer.underscoresOk, Integer.separated]
        cases Integer.readDigits 10 (Nat.pow 2 64 - 1) true 0 (95 :: rest) with
        | error e => exact ⟨e, rfl⟩
        | ok n => exact ⟨.malformed, by simp [refused]⟩
      · refine ⟨.malformed, ?_⟩
        rw [Integer.readDigits, if_neg (by simpa using line)]
        cases hd : Integer.digit? b with
        | none => rfl
        | some d => simp only [if_pos (ten_le_digit h.1 hd)]
    obtain ⟨e, unsigned⟩ := unsigned
    have read : Integer.read .marked 64 (b :: rest) = .error e := by
      unfold Integer.read
      split
      · next heq =>
        split at heq
        · next text => exact absurd (List.cons.inj text).1 (other rfl)
        · next text => exact absurd (List.cons.inj text).1 (other rfl)
        · cases heq
          rw [unsigned]
    rw [readNumber?, read]

theorem readMemory_render {base : RegName} {d : Int64} {s : Bytes}
    (h : (Operand.memory base d s).isReadable = true) (line : Nat) :
    readMemory (Operand.render (.memory base d s)) line = .ok (.memory base d s) := by
  simp only [Operand.isReadable, Bool.and_eq_true, Bool.or_eq_true, beq_iff_eq] at h
  obtain ⟨known, h⟩ := h
  have symbol : s = [] ∨ isSymbol s = true := h.imp_right And.right
  have noParen := not_mem_of_all (Operand.front_bytes (d := d) symbol) (b := 40) (by decide)
  have noComma : (37 :: base.name).contains 44 = false := by
    simpa using not_mem_of_all (RegName.name_symbolBytes known) (b := 44) (by decide)
  have inner (front : Bytes) : (front ++ 40 :: 37 :: (base.name ++ [41])).drop (front.length + 1) =
      (37 :: base.name) ++ [41] := by
    rw [← List.drop_drop, List.drop_left]
    rfl
  rw [Operand.render_memory, readMemory, Bytes.indexOf?_append noParen]
  simp only [inner, List.dropLast_concat, noComma, Bool.false_eq_true, if_false, List.take_left,
    readRegister?_name known]
  rcases h with rfl | ⟨rfl, symbol⟩
  · by_cases hd : d = 0
    · simp [Operand.front, hd]
    · simp [Operand.front, hd, decimal_ne_nil, readNumber?_decimal]
  · have ne : s ≠ [] := by
      rintro rfl
      cases symbol
    simp [Operand.front, ne, readNumber?_symbol symbol, symbol]

theorem readOperand_unmarked {b : UInt8} {rest : Bytes} (h : b ≠ 37 ∧ b ≠ 36) (line : Nat) :
    readOperand (b :: rest) line =
      if Bytes.endsWith (b :: rest) [41] then readMemory (b :: rest) line
      else if isSymbol (b :: rest) then .ok (.target (b :: rest))
      else .error (.invalidOperand (b :: rest) line) := by
  rw [readOperand]
  · exact nofun
  · rintro name heq
    cases heq
    exact absurd rfl h.1
  · rintro text heq
    cases heq
    exact absurd rfl h.2

/-- Every operand that can be read is read back from its text. -/
theorem readOperand_render {op : Operand} (h : op.isReadable = true) (line : Nat) :
    readOperand op.render line = .ok op := by
  cases op with
  | register r =>
    change readOperand (37 :: r.name) line = _
    rw [readOperand, readRegister?_name h]
  | immediate v =>
    change readOperand (36 :: decimal v.toInt) line = _
    rw [readOperand, readImmediate, readNumber?_decimal]
  | address s =>
    have symbol : isSymbol s = true := h
    change readOperand (36 :: s) line = _
    rw [readOperand, readImmediate, readNumber?_symbol symbol]
    simp only [symbol, if_true]
  | memory base d s =>
    have read := readMemory_render h line
    have last : Bytes.endsWith (Operand.render (.memory base d s)) [41] = true := by
      rw [Operand.render_memory, Bytes.endsWith, List.isSuffixOf_iff_suffix]
      exact ⟨Operand.front d s ++ 40 :: 37 :: base.name, by simp⟩
    simp only [Operand.isReadable, Bool.and_eq_true, Bool.or_eq_true, beq_iff_eq] at h
    have front := Operand.front_bytes (d := d) (h.2.imp_right And.right)
    -- the text starts with the displacement, the symbol or the parenthesis
    have first : ∀ b ∈ (Operand.render (.memory base d s)).head?, b ≠ 37 ∧ b ≠ 36 := by
      intro b hb
      rw [Operand.render_memory] at hb
      cases hf : Operand.front d s with
      | nil =>
        rw [hf] at hb
        obtain rfl : 40 = b := by simpa using hb
        decide
      | cons c rest =>
        rw [hf] at hb
        obtain rfl : c = b := by simpa using hb
        have absent {x : UInt8} (hx : (isNumberByte x || isSymbolByte x) = false) : c ≠ x := by
          rintro rfl
          exact not_mem_of_all front hx (hf ▸ List.mem_cons_self)
        exact ⟨absent (by decide), absent (by decide)⟩
    generalize Operand.render (.memory base d s) = text at read last first
    cases text with
    | nil => cases last
    | cons b rest => rw [readOperand_unmarked (first b rfl), if_pos last, read]
  | target s =>
    have symbol : isSymbol s = true := h
    have all := symbol_symbolBytes symbol
    cases s with
    | nil => cases h
    | cons b rest =>
      have absent {x : UInt8} (hx : isSymbolByte x = false) : b ≠ x := by
        rintro rfl
        exact not_mem_of_all all hx List.mem_cons_self
      have noParen : Bytes.endsWith (b :: rest) [41] = false := by
        rw [Bool.eq_false_iff, Bytes.endsWith, ne_eq, List.isSuffixOf_iff_suffix]
        intro hs
        exact not_mem_of_all all (b := 41) (by decide) (hs.mem List.mem_cons_self)
      change readOperand (b :: rest) line = _
      rw [readOperand_unmarked ⟨absent (by decide), absent (by decide)⟩, noParen]
      simp only [Bool.false_eq_true, if_false, symbol, if_true]
  | bare s => cases h

theorem isReadable_of_readMemory {s : Bytes} {line : Nat} {op : Operand}
    (h : readMemory s line = .ok op) : op.isReadable = true := by
  unfold readMemory at h
  split at h
  · cases h
  · simp only at h
    split at h
    · cases h
    · split at h
      · split at h
        · cases h
        · next base found =>
          have known := isKnown_of_readRegister? found
          split at h
          · cases h
            simp [Operand.isReadable, known]
          · split at h
            · cases h
              simp [Operand.isReadable, known]
            · split at h
              · next symbol =>
                cases h
                simp [Operand.isReadable, known, symbol]
              · cases h
      · cases h

/-- Nothing else is ever read. -/
theorem isReadable_of_readOperand {s : Bytes} {line : Nat} {op : Operand}
    (h : readOperand s line = .ok op) : op.isReadable = true := by
  unfold readOperand at h
  split at h
  · cases h
  · split at h
    · next r found =>
      cases h
      exact isKnown_of_readRegister? found
    · cases h
  · unfold readImmediate at h
    split at h
    · cases h
      rfl
    · split at h
      · next symbol =>
        cases h
        exact symbol
      · cases h
  · split at h
    · exact isReadable_of_readMemory h
    · split at h
      · next symbol =>
        cases h
        exact symbol
      · cases h

theorem render_operandBytes {op : Operand} (h : op.isReadable = true) :
    op.render.all isOperandByte = true := by
  have symbol {s : Bytes} (hs : isSymbol s = true) : s.all isOperandByte = true :=
    all_mono (symbol_symbolBytes hs) isOperandByte_of_symbolByte
  have number (v : Int) : (decimal v).all isOperandByte = true :=
    all_mono (decimal_numberBytes v) isOperandByte_of_numberByte
  have name {r : RegName} (hr : r.isKnown = true) : r.name.all isOperandByte = true :=
    all_mono (RegName.name_symbolBytes hr) isOperandByte_of_symbolByte
  cases op with
  | register r =>
    rw [Operand.render, List.all_append, name h]
    decide
  | immediate v =>
    rw [Operand.render, List.all_append, number]
    decide
  | address s =>
    rw [Operand.render, List.all_append, symbol h]
    decide
  | memory base d s =>
    simp only [Operand.isReadable, Bool.and_eq_true, Bool.or_eq_true, beq_iff_eq] at h
    have front := all_mono (Operand.front_bytes (d := d) (h.2.imp_right And.right))
      (q := isOperandByte) fun b hb => by
        rcases Bool.or_eq_true _ _ ▸ hb with hb | hb
        · exact isOperandByte_of_numberByte b hb
        · exact isOperandByte_of_symbolByte b hb
    rw [Operand.render_memory]
    simp only [List.all_append, List.all_cons, List.all_nil, front, name h.1]
    decide
  | target s => exact symbol h
  | bare s => cases h

theorem render_balanced {op : Operand} (h : op.isReadable = true) :
    op.render.count 40 = op.render.count 41 := by
  have none {s : Bytes} {p : UInt8 → Bool} (hs : s.all p = true) (h40 : p 40 = false)
      (h41 : p 41 = false) : s.count 40 = 0 ∧ s.count 41 = 0 :=
    ⟨List.count_eq_zero.mpr (not_mem_of_all hs h40), List.count_eq_zero.mpr (not_mem_of_all hs h41)⟩
  have symbol {s : Bytes} (hs : isSymbol s = true) :=
    none (symbol_symbolBytes hs) (by decide) (by decide)
  have name {r : RegName} (hr : r.isKnown = true) :=
    none (RegName.name_symbolBytes hr) (by decide) (by decide)
  cases op with
  | register r =>
    rw [Operand.render, List.count_append, List.count_append, (name h).1, (name h).2]
    decide
  | immediate v =>
    have number := none (decimal_numberBytes v.toInt) (by decide) (by decide)
    rw [Operand.render, List.count_append, List.count_append, number.1, number.2]
    decide
  | address s =>
    rw [Operand.render, List.count_append, List.count_append, (symbol h).1, (symbol h).2]
    decide
  | memory base d s =>
    simp only [Operand.isReadable, Bool.and_eq_true, Bool.or_eq_true, beq_iff_eq] at h
    have front := none (Operand.front_bytes (d := d) (h.2.imp_right And.right)) (by decide) (by decide)
    rw [Operand.render_memory]
    simp only [List.count_append, List.count_cons, List.count_nil, front.1, front.2, (name h.1).1,
      (name h.1).2]
    decide
  | target s => rw [Operand.render, (symbol h).1, (symbol h).2]
  | bare s => cases h

end Reader

end PrintLang
