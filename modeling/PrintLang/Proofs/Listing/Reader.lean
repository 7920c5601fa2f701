import PrintLang.Listing
import PrintLang.Proofs.Listing.Operand

set_option autoImplicit false

namespace PrintLang

namespace Reader

/-- A text between commas: not empty, of operand characters, with its parentheses in pairs. -/
structure OperandText (s : Bytes) : Prop where
  ne : s ≠ []
  bytes : s.all isOperandByte = true
  balanced : s.count 40 = s.count 41

theorem OperandText.tight {s : Bytes} (h : OperandText s) : Bytes.Tight s :=
  .of_visible (all_mono h.bytes fun _ => isVisible_of_operandByte)

theorem operandText_render {op : Operand} (h : op.isReadable = true) : OperandText op.render := by
  refine ⟨?_, render_operandBytes h, render_balanced h⟩
  intro he
  have := readOperand_render h 0
  rw [he] at this
  cases this

theorem operandText_decimalNat (n : Nat) : OperandText (decimalNat n) := by
  have bytes := decimalNat_numberBytes n
  refine ⟨decimalNat_ne_nil n, all_mono bytes isOperandByte_of_numberByte, ?_⟩
  rw [List.count_eq_zero.mpr (not_mem_of_all bytes (by decide)),
    List.count_eq_zero.mpr (not_mem_of_all bytes (by decide))]

theorem operandText_symbol {s : Bytes} (h : isSymbol s = true) : OperandText s :=
  operandText_render (show (Operand.target s).isReadable = true from h)

theorem splitOperands_text (depth : Int) (current xs rest : Bytes) (h : 44 ∉ xs) :
    splitOperands depth current (xs ++ rest) =
      splitOperands (depth + xs.count 40 - xs.count 41) (xs.reverse ++ current) rest := by
  induction xs generalizing depth current with
  | nil => simp
  | cons b xs ih =>
    rw [List.mem_cons, not_or] at h
    have ih' (d : Int) (c : Bytes) := ih d c h.2
    rw [List.cons_append, splitOperands]
    by_cases h40 : b = 40
    · subst h40
      rw [if_pos rfl, ih', List.count_cons_self, List.count_cons_of_ne (by decide),
        List.reverse_cons, List.append_assoc]
      congr 1
      omega
    · by_cases h41 : b = 41
      · subst h41
        rw [if_neg (by decide), if_pos rfl, ih', List.count_cons_self,
          List.count_cons_of_ne (by decide), List.reverse_cons, List.append_assoc]
        congr 1
        omega
      · rw [if_neg h40, if_neg h41, if_neg fun hc => h.1 hc.1.symm, ih', List.count_cons_of_ne h40,
          List.count_cons_of_ne h41, List.reverse_cons, List.append_assoc]
        rfl

def operandArea (blanks : Nat) (first : Bytes) (texts : List Bytes) : Bytes :=
  first ++ texts.flatMap fun t => 44 :: (List.replicate blanks 32 ++ t)

theorem join_eq_operandArea (blanks : Nat) (first : Bytes) (texts : List Bytes) :
    Bytes.join (44 :: List.replicate blanks 32) (first :: texts) =
      operandArea blanks first texts := by
  induction texts generalizing first with
  | nil => simp [Bytes.join, operandArea, List.intercalate]
  | cons t texts ih =>
    have hj : Bytes.join (44 :: List.replicate blanks 32) (first :: t :: texts) =
        first ++ ((44 :: List.replicate blanks 32) ++
          Bytes.join (44 :: List.replicate blanks 32) (t :: texts)) := by
      simp [Bytes.join, List.intercalate]
    rw [hj, ih, operandArea, operandArea, List.flatMap_cons]
    simp only [List.cons_append, List.append_assoc]

theorem tight_operandArea (blanks : Nat) {first : Bytes} {texts : List Bytes}
    (hfirst : OperandText first) (h : ∀ t ∈ texts, OperandText t) :
    Bytes.Tight (operandArea blanks first texts) ∧ operandArea blanks first texts ≠ [] := by
  induction texts generalizing first with
  | nil =>
    rw [operandArea, List.flatMap_nil, List.append_nil]
    exact ⟨hfirst.tight, hfirst.ne⟩
  | cons t texts ih =>
    obtain ⟨tight, ne⟩ := ih (h t List.mem_cons_self) fun x hx => h x (List.mem_cons_of_mem t hx)
    have split : operandArea blanks first (t :: texts) =
        first ++ ((44 :: List.replicate blanks 32) ++ operandArea blanks t texts) := by
      rw [operandArea, operandArea, List.flatMap_cons]
      simp only [List.cons_append, List.append_assoc]
    rw [split]
    refine ⟨hfirst.tight.glue tight hfirst.ne ne _ ?_, List.append_ne_nil_of_left_ne_nil hfirst.ne _⟩
    rw [List.all_cons, List.all_replicate]
    simp [isAscii]

theorem not_mem_operandArea {b : UInt8} (ho : isOperandByte b = false) (h32 : b ≠ 32) (h44 : b ≠ 44)
    (blanks : Nat) {first : Bytes} {texts : List Bytes} (hfirst : OperandText first)
    (h : ∀ t ∈ texts, OperandText t) : b ∉ operandArea blanks first texts := by
  have inText {t : Bytes} (ht : OperandText t) : b ∉ t := not_mem_of_all ht.bytes ho
  simp only [operandArea, List.mem_append, List.mem_flatMap, List.mem_cons, not_or]
  refine ⟨inText hfirst, ?_⟩
  rintro ⟨t, ht, hb | hb | hb⟩
  · exact h44 hb
  · exact h32 (List.eq_of_mem_replicate hb)
  · exact inText (h t ht) hb

theorem splitOperands_area (lead blanks : Nat) {first : Bytes} {texts : List Bytes}
    (hfirst : OperandText first) (h : ∀ t ∈ texts, OperandText t) :
    splitOperands 0 [] (List.replicate lead 32 ++ operandArea blanks first texts) =
      first :: texts := by
  have whole {t : Bytes} (ht : OperandText t) (k : Nat) (rest : Bytes) :
      splitOperands 0 [] (List.replicate k 32 ++ (t ++ rest)) =
        splitOperands 0 (List.replicate k 32 ++ t).reverse rest := by
    have noComma : (44 : UInt8) ∉ List.replicate k 32 ++ t := by
      rw [List.mem_append, not_or]
      exact ⟨by simp, not_mem_of_all ht.bytes (by decide)⟩
    rw [← List.append_assoc, splitOperands_text 0 [] _ rest noComma, List.append_nil,
      List.count_append, List.count_append, ht.balanced, List.count_replicate, List.count_replicate]
    congr 1
    simp
  have trimmed {t : Bytes} (ht : OperandText t) (k : Nat) :
      Bytes.trim (List.replicate k 32 ++ t) = t := by
    have := Bytes.trim_around ht.tight k 0
    rwa [List.replicate_zero, List.append_nil] at this
  induction texts generalizing first lead with
  | nil =>
    rw [operandArea, List.flatMap_nil, whole hfirst, splitOperands, List.reverse_reverse,
      trimmed hfirst]
  | cons t texts ih =>
    rw [operandArea, List.flatMap_cons, List.cons_append, whole hfirst, splitOperands,
      if_neg (by decide), if_neg (by decide), if_pos ⟨rfl, rfl⟩, List.reverse_reverse,
      trimmed hfirst, List.append_assoc]
    congr 1
    exact ih blanks (h t List.mem_cons_self) fun x hx => h x (List.mem_cons_of_mem t hx)

def isWordByte (b : UInt8) : Bool := (97 ≤ b && b ≤ 122) || b == 46

theorem isWordByte_iff {b : UInt8} :
    isWordByte b = true ↔ 97 ≤ b.toNat ∧ b.toNat ≤ 122 ∨ b.toNat = 46 := by
  simp only [isWordByte, Bool.or_eq_true, Bool.and_eq_true, decide_eq_true_eq, beq_iff_eq,
    UInt8.le_iff_toNat_le, ← UInt8.toNat_inj, UInt8.reduceToNat]

theorem isOperandByte_of_wordByte (b : UInt8) (h : isWordByte b = true) : isOperandByte b = true := by
  rw [isWordByte_iff] at h
  rw [isOperandByte_iff]
  omega

theorem isLower_of_wordByte (b : UInt8) (h : isWordByte b = true) :
    (isAscii b && !(65 ≤ b && b ≤ 90)) = true := by
  rw [isWordByte_iff] at h
  simp only [Bool.and_eq_true, isAscii_iff, Bool.not_eq_true', Bool.and_eq_false_iff,
    decide_eq_false_iff_not, UInt8.le_iff_toNat_le, UInt8.reduceToNat]
  omega

theorem takeWhile_ne {b : UInt8} {s : Bytes} (h : b ∉ s) (rest : Bytes) :
    (s ++ b :: rest).takeWhile (· != b) = s := by
  have ne : ∀ c ∈ s, (c != b) = true := by
    intro c hc
    simp only [bne_iff_ne]
    exact fun he => h (he ▸ hc)
  rw [List.takeWhile_append_of_pos ne, List.takeWhile_cons, if_neg (by simp), List.append_nil]

theorem takeWhile_ne_self {b : UInt8} {s : Bytes} (h : b ∉ s) : s.takeWhile (· != b) = s := by
  induction s with
  | nil => rfl
  | cons c s ih =>
    rw [List.mem_cons, not_or] at h
    rw [List.takeWhile_cons, if_pos (bne_iff_ne.mpr (Ne.symm h.1)), ih h.2]

theorem operandTexts_nil : operandTexts [] = [] := by
  rw [operandTexts, Bytes.trim_nil]

theorem readLine_text {body : Bytes} (tight : Bytes.Tight body) (ne : body ≠ [])
    (noComment : 35 ∉ body) (noLabel : 58 ∉ body) (lead line : Nat) :
    readLine (List.replicate lead 32 ++ body) line =
      .ok ⟨line, [], Bytes.mapCodes lowerCode (cutWord body).1, operandTexts (cutWord body).2⟩ := by
  have strip : stripComment (List.replicate lead 32 ++ body) = List.replicate lead 32 ++ body := by
    apply takeWhile_ne_self
    rw [List.mem_append, not_or]
    exact ⟨by simp, noComment⟩
  have trimmed : Bytes.trim (List.replicate lead 32 ++ body) = body := by
    have := Bytes.trim_around tight lead 0
    rwa [List.replicate_zero, List.append_nil] at this
  have unlabelled : labelText? body = none := by
    rw [labelText?, Bytes.indexOf?_of_not_mem noLabel]
  rw [readLine, strip, trimmed]
  simp only [readParts, if_neg ne, unlabelled]

theorem cutWord_append {word : Bytes} (h : word.all isWordByte = true) (rest : Bytes) :
    cutWord (word ++ 32 :: rest) = (word, rest) := by
  have noTab := Bytes.indexOf?_of_not_mem (not_mem_of_all h (b := 9) (by decide))
  have after : (word ++ 32 :: rest).drop (word.length + 1) = rest := by
    rw [← List.drop_drop, List.drop_left]
    rfl
  simp only [cutWord, takeWhile_ne (not_mem_of_all h (b := 32) (by decide)), after, noTab]

theorem cutWord_alone {word : Bytes} (h : word.all isWordByte = true) :
    cutWord word = (word, []) := by
  have noTab := Bytes.indexOf?_of_not_mem (not_mem_of_all h (b := 9) (by decide))
  have all := takeWhile_ne_self (not_mem_of_all h (b := 32) (by decide))
  simp only [cutWord, all, noTab, List.drop_eq_nil_of_le (Nat.le_add_right _ 1)]

theorem tight_word {word : Bytes} (h : word.all isWordByte = true) : Bytes.Tight word :=
  .of_visible (all_mono h fun b hb => isVisible_of_operandByte (isOperandByte_of_wordByte b hb))

theorem readLine_word (word : Bytes) (h : word.all isWordByte = true) (ne : word ≠ [])
    (lead line : Nat) :
    readLine (List.replicate lead 32 ++ word) line = .ok ⟨line, [], word, []⟩ := by
  rw [readLine_text (tight_word h) ne (not_mem_of_all h (by decide)) (not_mem_of_all h (by decide)),
    cutWord_alone h, Bytes.mapCodes_lowerCode (all_mono h isLower_of_wordByte), operandTexts_nil]

theorem readLine_operands (word : Bytes) (h : word.all isWordByte = true) (ne : word ≠ [])
    (blanks : Nat) (first : Bytes) (texts : List Bytes) (hfirst : OperandText first)
    (htexts : ∀ t ∈ texts, OperandText t) (lead line : Nat) :
    readLine (List.replicate lead 32 ++ (word ++ 32 :: operandArea blanks first texts)) line =
      .ok ⟨line, [], word, first :: texts⟩ := by
  obtain ⟨tight, areaNe⟩ := tight_operandArea blanks hfirst htexts
  have absent (b : UInt8) (hw : isWordByte b = false) (ho : isOperandByte b = false) (h32 : b ≠ 32)
      (h44 : b ≠ 44) : b ∉ word ++ 32 :: operandArea blanks first texts := by
    rw [List.mem_append, List.mem_cons, not_or, not_or]
    exact ⟨not_mem_of_all h hw, h32, not_mem_operandArea ho h32 h44 blanks hfirst htexts⟩
  have whole : Bytes.Tight (word ++ 32 :: operandArea blanks first texts) :=
    (tight_word h).glue tight ne areaNe [32] (by decide)
  have operands : operandTexts (operandArea blanks first texts) = first :: texts := by
    have split := splitOperands_area 0 blanks hfirst htexts
    rw [List.replicate_zero, List.nil_append] at split
    unfold operandTexts
    rw [Bytes.trim_tight tight]
    split
    · next he => exact absurd he areaNe
    · exact split
  rw [readLine_text whole (List.append_ne_nil_of_left_ne_nil ne _)
    (absent 35 (by decide) (by decide) (by decide) (by decide))
    (absent 58 (by decide) (by decide) (by decide) (by decide)), cutWord_append h,
    Bytes.mapCodes_lowerCode (all_mono h isLower_of_wordByte), operands]

theorem readLine_label {name : Bytes} (h : isSymbol name = true) (line : Nat) :
    readLine (name ++ [58]) line = .ok ⟨line, [name], [], []⟩ := by
  have ne : name ≠ [] := by
    rintro rfl
    cases h
  have symbol := symbol_symbolBytes h
  have operand := all_mono symbol isOperandByte_of_symbolByte
  have tightName : Bytes.Tight name := (operandText_symbol h).tight
  have tight : Bytes.Tight (name ++ [58]) :=
    tightName.glue (b := [58]) (.of_visible (by decide)) ne (by decide) [] rfl
  have strip : stripComment (name ++ [58]) = name ++ [58] := by
    apply takeWhile_ne_self
    rw [List.mem_append, not_or]
    exact ⟨not_mem_of_all operand (by decide), by decide⟩
  have noBlank : name.any (fun b => b == 32 || b == 9) = false := by
    rw [List.any_eq_false]
    intro b hb
    have h32 : b ≠ 32 := fun he => not_mem_of_all symbol (b := 32) (by decide) (he ▸ hb)
    have h9 : b ≠ 9 := fun he => not_mem_of_all symbol (b := 9) (by decide) (he ▸ hb)
    simp [h32, h9]
  have labelled : labelText? (name ++ [58]) = some (name, []) := by
    obtain ⟨k, hk⟩ : ∃ k, name.length = k + 1 :=
      ⟨name.length - 1, by have := List.length_pos_iff.mpr ne; omega⟩
    have found := Bytes.indexOf?_append (not_mem_of_all symbol (b := 58) (by decide)) []
    rw [hk] at found
    simp only [labelText?, found]
    rw [← hk, List.take_left, Bytes.trim_tight tightName, noBlank, ← List.drop_drop, List.drop_left]
    rfl
  rw [readLine, strip, Bytes.trim_tight tight]
  simp only [readParts, if_neg (List.append_ne_nil_of_left_ne_nil ne _), labelled, h, if_true,
    Bytes.trim_nil]
  rw [List.length_append, List.length_singleton]
  simp only [readParts, if_true]

theorem readLine_comment (lead : Nat) (text : Bytes) (line : Nat) :
    readLine (List.replicate lead 32 ++ 35 :: text) line = .ok ⟨line, [], [], []⟩ := by
  have strip : stripComment (List.replicate lead 32 ++ 35 :: text) = List.replicate lead 32 :=
    takeWhile_ne (by simp) text
  rw [readLine, strip, Bytes.trim_blanks, List.length_nil, readParts, if_pos rfl]

theorem readLine_nil (line : Nat) : readLine [] line = .ok ⟨line, [], [], []⟩ := by
  rw [readLine, stripComment, List.takeWhile_nil, Bytes.trim_nil, List.length_nil, readParts,
    if_pos rfl]

end Reader

/-- An instruction there is, with as many operands as it takes, all of which can be read. -/
structure Instr.Readable (i : Instr) : Prop where
  arity : i.mnemonic.arity? = some i.operands.length
  readable : ∀ op ∈ i.operands, op.isReadable = true

/-- The instructions of generated code, which use fewer forms of operands. -/
structure Instr.Regular (i : Instr) : Prop where
  arity : i.mnemonic.arity? = some i.operands.length
  plain : ∀ op ∈ i.operands, op.isPlain = true

theorem Instr.Regular.readable {i : Instr} (h : i.Regular) : i.Readable :=
  ⟨h.arity, fun op hop => Operand.isReadable_of_isPlain (h.plain op hop)⟩

/-- Lines that are read back. A comment must not end its line. -/
def Line.Regular : Line → Prop
  | .blank => True
  | .comment text => 10 ∉ text
  | .label name => Reader.isSymbol name = true
  | .dataSection => True
  | .textSection => True
  | .global name => Reader.isSymbol name = true
  | .byteData values => values ≠ []
  | .code i => i.Regular

def Line.source (line : Nat) : Line → SourceLine
  | .blank => ⟨line, [], [], []⟩
  | .comment _ => ⟨line, [], [], []⟩
  | .label name => ⟨line, [name], [], []⟩
  | .dataSection => ⟨line, [], bytes ".data", []⟩
  | .textSection => ⟨line, [], bytes ".text", []⟩
  | .global name => ⟨line, [], bytes ".globl", [name]⟩
  | .byteData values => ⟨line, [], bytes ".byte", values.map fun b => decimalNat b.toNat⟩
  | .code i => ⟨line, [], i.mnemonic.name, i.operands.map Operand.render⟩

theorem Mnemonic.mem_all {m : Mnemonic} {n : Nat} (h : m.arity? = some n) : m ∈ all := by
  cases m with
  | nop | ret | cqo | syscall | push | pop | div | idiv | call | lea => decide
  | unary op => cases op <;> decide
  | jump c => cases c <;> decide
  | move op => cases op <;> decide
  | alu op => cases op <;> decide
  | unknown name => cases h

theorem Mnemonic.name_wordBytes {m : Mnemonic} (h : m ∈ all) :
    m.name.all Reader.isWordByte = true ∧ m.name ≠ [] := by
  have all : ∀ m ∈ all, m.name.all Reader.isWordByte = true ∧ m.name ≠ [] := by decide
  exact all m h

theorem Mnemonic.ofName_name {m : Mnemonic} (h : m ∈ all) : ofName m.name = m := by
  have all : ∀ m ∈ all, ofName m.name = m := by decide
  exact all m h

theorem Instr.Readable.operandTexts {i : Instr} (h : i.Readable) :
    ∀ t ∈ i.operands.map Operand.render, Reader.OperandText t := by
  intro t ht
  obtain ⟨op, hop, rfl⟩ := List.mem_map.mp ht
  exact Reader.operandText_render (h.readable op hop)

theorem Instr.render_eq {i : Instr} (h : i.Readable) :
    i.render = match i.operands.map Operand.render with
      | [] => i.mnemonic.name
      | first :: texts => i.mnemonic.name ++ 32 :: Reader.operandArea 1 first texts := by
  obtain ⟨bytes, ne⟩ := Mnemonic.name_wordBytes (Mnemonic.mem_all h.arity)
  have texts := h.operandTexts
  rw [Instr.render]
  cases hops : i.operands.map Operand.render with
  | nil =>
    rw [show Bytes.join (PrintLang.bytes ", ") [] = [] from rfl, List.append_nil]
    exact Bytes.trim_around (Reader.tight_word bytes) 0 1
  | cons first rest =>
    rw [hops] at texts
    obtain ⟨tight, areaNe⟩ := Reader.tight_operandArea 1 (texts first List.mem_cons_self)
      fun t ht => texts t (List.mem_cons_of_mem first ht)
    have join : Bytes.join (PrintLang.bytes ", ") (first :: rest) =
        Reader.operandArea 1 first rest := Reader.join_eq_operandArea 1 first rest
    have whole := (Reader.tight_word bytes).glue tight ne areaNe [32] (by decide)
    rw [join, List.append_assoc]
    exact Bytes.trim_tight whole

/-- The text of an instruction, with blanks in front, is a line without labels. -/
theorem Instr.readLine_render {i : Instr} (h : i.Readable) (lead line : Nat) :
    Reader.readLine (List.replicate lead 32 ++ i.render) line =
      .ok ⟨line, [], i.mnemonic.name, i.operands.map Operand.render⟩ := by
  obtain ⟨bytes, ne⟩ := Mnemonic.name_wordBytes (Mnemonic.mem_all h.arity)
  have texts := h.operandTexts
  rw [Instr.render_eq h]
  cases hops : i.operands.map Operand.render with
  | nil => exact Reader.readLine_word _ bytes ne lead line
  | cons first rest =>
    rw [hops] at texts
    exact Reader.readLine_operands _ bytes ne 1 first rest (texts first List.mem_cons_self)
      (fun t ht => texts t (List.mem_cons_of_mem first ht)) lead line

theorem Line.readLine_render {l : Line} (h : l.Regular) (line : Nat) :
    Reader.readLine l.render line = .ok (l.source line) := by
  cases l with
  | blank => exact Reader.readLine_nil line
  | comment text => exact Reader.readLine_comment 2 (32 :: text) line
  | label name => exact Reader.readLine_label h line
  | dataSection =>
    exact Reader.readLine_word (bytes ".data") (by decide) (by decide) 2 line
  | textSection =>
    exact Reader.readLine_word (bytes ".text") (by decide) (by decide) 2 line
  | global name =>
    have read := Reader.readLine_operands (bytes ".globl") (by decide)
      (by decide) 1 name [] (Reader.operandText_symbol h) (fun t ht => nomatch ht) 2 line
    rw [Reader.operandArea, List.flatMap_nil, List.append_nil] at read
    exact read
  | byteData values =>
    obtain ⟨b, rest, rfl⟩ := List.exists_cons_of_ne_nil h
    have read := Reader.readLine_operands (bytes ".byte") (by decide) (by decide) 0
      (decimalNat b.toNat) (rest.map fun b => decimalNat b.toNat)
      (Reader.operandText_decimalNat _) (by
        intro t ht
        obtain ⟨c, -, rfl⟩ := List.mem_map.mp ht
        exact Reader.operandText_decimalNat _) 2 line
    have join := Reader.join_eq_operandArea 0 (decimalNat b.toNat)
      (rest.map fun b => decimalNat b.toNat)
    rw [← join] at read
    exact read
  | code i =>
    have regular : i.Regular := h
    exact Instr.readLine_render regular.readable 2 line

theorem Line.newline_not_mem_render {l : Line} (h : l.Regular) : 10 ∉ l.render := by
  cases l with
  | blank => exact List.not_mem_nil
  | comment text =>
    rw [Line.render, List.mem_append, not_or]
    exact ⟨by decide, h⟩
  | label name =>
    rw [Line.render, List.mem_append, not_or]
    exact ⟨not_mem_of_all (symbol_symbolBytes h) (by decide), by decide⟩
  | dataSection => decide
  | textSection => decide
  | global name =>
    rw [Line.render, List.mem_append, not_or]
    exact ⟨by decide, not_mem_of_all (symbol_symbolBytes h) (by decide)⟩
  | byteData values =>
    obtain ⟨b, rest, rfl⟩ := List.exists_cons_of_ne_nil h
    have join := Reader.join_eq_operandArea 0 (decimalNat b.toNat)
      (rest.map fun b => decimalNat b.toNat)
    have texts : ∀ t ∈ rest.map fun b => decimalNat b.toNat, Reader.OperandText t := by
      intro t ht
      obtain ⟨c, -, rfl⟩ := List.mem_map.mp ht
      exact Reader.operandText_decimalNat _
    have absent := Reader.not_mem_operandArea (b := 10) (by decide) (by decide) (by decide) 0
      (Reader.operandText_decimalNat b.toNat) texts
    rw [← join] at absent
    rw [Line.render, List.mem_append, not_or]
    exact ⟨by decide, absent⟩
  | code i =>
    have regular : i.Regular := h
    obtain ⟨bytes, ne⟩ := Mnemonic.name_wordBytes (Mnemonic.mem_all regular.arity)
    rw [Line.render, Instr.render_eq regular.readable, List.mem_append, not_or]
    refine ⟨by decide, ?_⟩
    have texts := regular.readable.operandTexts
    cases hops : i.operands.map Operand.render with
    | nil => exact not_mem_of_all bytes (by decide)
    | cons first rest =>
      rw [hops] at texts
      simp only [List.mem_append, List.mem_cons, not_or]
      exact ⟨not_mem_of_all bytes (by decide), by decide,
        Reader.not_mem_operandArea (by decide) (by decide) (by decide) 1
          (texts first List.mem_cons_self) fun t ht => texts t (List.mem_cons_of_mem first ht)⟩

def Listing.sources : (k : Nat) → Listing → List SourceLine
  | _, [] => []
  | k, l :: ls => l.source k :: sources (k + 1) ls

theorem mapM_readLine {ls : Listing} (h : ∀ l ∈ ls, l.Regular) (k : Nat) :
    ((ls.map Line.render).zipIdx k).mapM (fun (raw, i) => Reader.readLine raw (i + 1)) =
      .ok (Listing.sources (k + 1) ls) := by
  induction ls generalizing k with
  | nil => rfl
  | cons l ls ih =>
    have first := Line.readLine_render (h l List.mem_cons_self) (k + 1)
    rw [List.map_cons, List.zipIdx_cons, List.mapM_cons, ih fun x hx => h x (List.mem_cons_of_mem l hx)]
    simp only [first]
    rfl

/-- A listing of regular lines is read line by line; behind its last newline there is an empty one. -/
theorem Listing.readLines_render {ls : Listing} (h : ∀ l ∈ ls, l.Regular) :
    Reader.readLines ls.render = .ok (sources 1 (ls ++ [Line.blank])) := by
  have split : Bytes.splitOn 10 ls.render = (ls ++ [Line.blank]).map Line.render := by
    rw [Listing.render, Bytes.splitOn_lines, List.map_append]
    · rfl
    · intro part hpart
      obtain ⟨l, hl, rfl⟩ := List.mem_map.mp hpart
      exact Line.newline_not_mem_render (h l hl)
  rw [Reader.readLines, split]
  apply mapM_readLine
  intro l hl
  rcases List.mem_append.mp hl with hl | hl
  · exact h l hl
  · rw [List.mem_singleton.mp hl]
    exact trivial

end PrintLang
