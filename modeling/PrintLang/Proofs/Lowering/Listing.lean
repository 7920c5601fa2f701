import PrintLang.Proofs.Listing.Assembler
import PrintLang.Proofs.Lowering.Run

set_option autoImplicit false

namespace PrintLang
open Lowering

section Regular

theorem isSymbol_dataLabel {token : Int} (h : 0 ≤ token) :
    Reader.isSymbol (dataLabel token) = true := by
  obtain ⟨n, rfl⟩ := Int.eq_ofNat_of_zero_le h
  have digits : ∀ b : UInt8, isDigitByte b = true → Reader.isSymbolByte b = true := by
    decide +kernel
  have rest : (decimalNat n).all Reader.isSymbolByte = true :=
    all_mono (decimalNat_all_digits n) digits
  change (Reader.isSymbolStart 76 && (decimalNat n).all Reader.isSymbolByte) = true
  rw [rest]
  rfl

theorem dataLabel_injective {a b : Int} (ha : 0 ≤ a) (hb : 0 ≤ b)
    (h : dataLabel a = dataLabel b) : a = b := by
  obtain ⟨n, rfl⟩ := Int.eq_ofNat_of_zero_le ha
  obtain ⟨k, rfl⟩ := Int.eq_ofNat_of_zero_le hb
  rw [decimalNat_injective (List.append_cancel_left h)]

def routineLabels : List Bytes := [printInt, printIntDigits, printIntWrite]

/-- Instructions of the forms that lowering uses, whose symbols are labels of the routine. -/
def Instr.isGenerated (i : Instr) : Bool :=
  i.mnemonic.arity? == some i.operands.length && i.operands.all fun op =>
    op.isPlain && (op.symbol == [] || routineLabels.contains op.symbol)

theorem Instr.regular_of_isGenerated {i : Instr} (h : i.isGenerated = true) : i.Regular := by
  simp only [Instr.isGenerated, Bool.and_eq_true, beq_iff_eq, List.all_eq_true] at h
  exact ⟨h.1, fun op hop => (h.2 op hop).1⟩

theorem Instr.symbol_of_isGenerated {i : Instr} (h : i.isGenerated = true) {op : Operand}
    (hop : op ∈ i.operands) (hs : op.symbol ≠ []) : op.symbol ∈ routineLabels := by
  simp only [Instr.isGenerated, Bool.and_eq_true, List.all_eq_true] at h
  have := (h.2 op hop).2
  rw [Bool.or_eq_true, beq_iff_eq] at this
  rcases this with he | hm
  · exact absurd he hs
  · simpa using hm

theorem printInt_generated (t : Target) :
    (printIntHead ++ (printIntLoop ++ printIntTail t)).all Instr.isGenerated = true := by
  have head : printIntHead.all Instr.isGenerated = true := by decide
  have loop : printIntLoop.all Instr.isGenerated = true := by decide
  rw [List.all_append, List.all_append, head, loop]
  rfl

theorem prologue_generated (t : Target) : (prologue t).all Instr.isGenerated = true := rfl

theorem epilogue_generated (t : Target) : (epilogue t).all Instr.isGenerated = true := rfl

theorem code_generated (e : Expr) : e.code.all Instr.isGenerated = true := by
  induction e with
  | int node v =>
    rw [Expr.code, List.all_cons, Expr.load]
    split <;> rfl
  | binary node op l r ihl ihr =>
    cases op <;> simp only [Expr.code, Expr.pair, List.all_append, ihl, ihr] <;> rfl
  | other node kind => rfl

theorem printlnCode_generated (e : Expr) : (printlnCode e).all Instr.isGenerated = true := by
  have call : Instr.isGenerated ⟨.call, [.target printInt]⟩ = true := by decide
  rw [printlnCode, List.all_append, code_generated, List.all_cons, List.all_cons, call]
  rfl

end Regular

def Lowering.statementLines (place : Bytes) (e : Expr) : Listing :=
  .comment (bytes "println at " ++ place) :: (printlnCode e).map .code

def Lowering.programLines (objects : List StringObject) (t : Target)
    (statements : List (Bytes × Expr)) : Listing :=
  .dataSection :: objects.flatMap objectLines ++
    .blank :: .textSection :: printIntLines t ++
    .blank :: .global t.entry :: .label t.entry :: (prologue t).map .code ++
    statements.flatMap (fun s => statementLines s.1 s.2) ++ (epilogue t).map .code

/-- What the objects and the entry have to satisfy for the labels to be distinct. -/
structure Lowering.Named (objects : List StringObject) (t : Target) : Prop where
  tokens : ∀ o ∈ objects, 0 ≤ o.token
  distinct : (objects.map StringObject.token).Nodup
  entry : Reader.isSymbol t.entry = true
  notRoutine : t.entry ∉ routineLabels
  notData : ∀ o ∈ objects, t.entry ≠ dataLabel o.token

namespace Lowering
variable {objects : List StringObject} {t : Target} {statements : List (Bytes × Expr)}

theorem codes_regular {is : List Instr} (all : is.all Instr.isGenerated = true) :
    ∀ l ∈ is.map Line.code, l.Regular := by
  intro l hl
  obtain ⟨i, hi, rfl⟩ := List.mem_map.mp hl
  exact Instr.regular_of_isGenerated (List.all_eq_true.mp all i hi)

theorem codes_resolved {labels : Labels} (known : ∀ name ∈ routineLabels, labels.lookup name ≠ none)
    {is : List Instr} (all : is.all Instr.isGenerated = true) :
    ∀ l ∈ is.map Line.code, l.Resolved labels := by
  intro l hl
  obtain ⟨i, hi, rfl⟩ := List.mem_map.mp hl
  intro op hop hs
  exact known _ (Instr.symbol_of_isGenerated (List.all_eq_true.mp all i hi) hop hs)

theorem printIntLines_eq (t : Target) : printIntLines t =
    .label printInt :: (printIntHead.map .code ++ .label printIntDigits :: (printIntLoop.map .code ++
      .label printIntWrite :: (printIntTail t).map .code)) := by
  simp only [printIntLines, List.cons_append, List.append_assoc]

theorem programLines_regular (tokens : ∀ o ∈ objects, 0 ≤ o.token)
    (entry : Reader.isSymbol t.entry = true) (places : ∀ s ∈ statements, 10 ∉ s.1) :
    ∀ l ∈ programLines objects t statements, l.Regular := by
  have routine := printInt_generated t
  rw [List.all_append, List.all_append, Bool.and_eq_true, Bool.and_eq_true] at routine
  have data : ∀ l ∈ objects.flatMap objectLines, l.Regular := by
    intro l hl
    obtain ⟨o, ho, hl⟩ := List.mem_flatMap.mp hl
    rw [objectLines, List.mem_cons] at hl
    rcases hl with rfl | hl
    · exact isSymbol_dataLabel (tokens o ho)
    · split at hl
      · cases hl
      · next hne =>
        rw [List.mem_singleton.mp hl]
        exact hne
  have body : ∀ l ∈ statements.flatMap (fun s => statementLines s.1 s.2), l.Regular := by
    intro l hl
    obtain ⟨s, hs, hl⟩ := List.mem_flatMap.mp hl
    rw [statementLines, List.mem_cons] at hl
    rcases hl with rfl | hl
    · change 10 ∉ bytes "println at " ++ s.1
      rw [List.mem_append, not_or]
      exact ⟨by decide, places s hs⟩
    · exact codes_regular (printlnCode_generated s.2) l hl
  simp only [programLines, printIntLines_eq, List.forall_mem_append, List.forall_mem_cons]
  refine ⟨⟨⟨⟨⟨trivial, data⟩, trivial, trivial, ?_, codes_regular routine.1, ?_,
    codes_regular routine.2.1, ?_, codes_regular routine.2.2⟩, trivial, entry, entry,
    codes_regular (prologue_generated t)⟩, body⟩, codes_regular (epilogue_generated t)⟩
  all_goals
    change Reader.isSymbol _ = true
    decide

theorem programLines_resolved {labels : Labels} (entry : labels.lookup t.entry ≠ none)
    (known : ∀ name ∈ routineLabels, labels.lookup name ≠ none) :
    ∀ l ∈ programLines objects t statements, l.Resolved labels := by
  have routine := printInt_generated t
  rw [List.all_append, List.all_append, Bool.and_eq_true, Bool.and_eq_true] at routine
  have data : ∀ l ∈ objects.flatMap objectLines, l.Resolved labels := by
    intro l hl
    obtain ⟨o, ho, hl⟩ := List.mem_flatMap.mp hl
    rw [objectLines, List.mem_cons] at hl
    rcases hl with rfl | hl
    · exact trivial
    · split at hl
      · cases hl
      · rw [List.mem_singleton.mp hl]
        exact trivial
  have body : ∀ l ∈ statements.flatMap (fun s => statementLines s.1 s.2), l.Resolved labels := by
    intro l hl
    obtain ⟨s, hs, hl⟩ := List.mem_flatMap.mp hl
    rw [statementLines, List.mem_cons] at hl
    rcases hl with rfl | hl
    · exact trivial
    · exact codes_resolved known (printlnCode_generated s.2) l hl
  simp only [programLines, printIntLines_eq, List.forall_mem_append, List.forall_mem_cons]
  exact ⟨⟨⟨⟨⟨trivial, data⟩, trivial, trivial, trivial, codes_resolved known routine.1, trivial,
    codes_resolved known routine.2.1, trivial, codes_resolved known routine.2.2⟩, trivial, entry,
    trivial, codes_resolved known (prologue_generated t)⟩, body⟩,
    codes_resolved known (epilogue_generated t)⟩

theorem places_codes {p : Placement} (h : p.part = .text) (is : List Instr) :
    Listing.Places p (is.map .code) { p with textSize := p.textSize + is.length } := by
  induction is generalizing p with
  | nil => exact ⟨trivial, rfl⟩
  | cons i is ih =>
    obtain ⟨fits, hput⟩ := ih (p := { p with textSize := p.textSize + 1 }) h
    refine ⟨⟨h, fits⟩, ?_⟩
    rw [List.length_cons, show p.textSize + (is.length + 1) = p.textSize + 1 + is.length by omega]
    exact hput

theorem places_statements {p : Placement} (h : p.part = .text) (statements : List (Bytes × Expr)) :
    Listing.Places p (statements.flatMap fun s => statementLines s.1 s.2)
      { p with textSize := p.textSize +
          ((statements.map Prod.snd).flatMap printlnCode).length } := by
  induction statements generalizing p with
  | nil => exact ⟨trivial, rfl⟩
  | cons s rest ih =>
    have first : Listing.Places p (statementLines s.1 s.2)
        { p with textSize := p.textSize + (printlnCode s.2).length } :=
      ⟨⟨trivial, (places_codes h _).1⟩, (places_codes h _).2⟩
    have all := first.append (ih (p := { p with textSize := _ }) h)
    rw [List.flatMap_cons, List.map_cons, List.flatMap_cons, List.length_append, ← Nat.add_assoc]
    exact all

def objectLabels (offset : Int64) : List StringObject → Labels
  | [] => []
  | o :: os =>
    (dataLabel o.token, ⟨.data, offset.toInt⟩) ::
      objectLabels (offset + Int64.ofNat o.value.length) os

theorem map_fst_objectLabels (offset : Int64) (objects : List StringObject) :
    (objectLabels offset objects).map Prod.fst = objects.map fun o => dataLabel o.token := by
  induction objects generalizing offset with
  | nil => rfl
  | cons o os ih => rw [objectLabels, List.map_cons, ih, List.map_cons]

theorem places_label {p : Placement} {name : Bytes} (new : name ∉ p.labels.map Prod.fst) :
    Listing.Places p [.label name] { p with labels := (name, p.here) :: p.labels } :=
  ⟨⟨lookup_eq_none_of_not_mem new, trivial⟩, rfl⟩

theorem places_objectLines {p : Placement} (h : p.part = .data) (o : StringObject)
    (new : dataLabel o.token ∉ p.labels.map Prod.fst) :
    Listing.Places p (objectLines o)
      { p with
        dataSize := p.dataSize + Int64.ofNat o.value.length
        labels := (dataLabel o.token, ⟨.data, p.dataSize.toInt⟩) :: p.labels } := by
  have fresh := lookup_eq_none_of_not_mem new
  obtain ⟨part, textSize, dataSize, labels⟩ := p
  obtain rfl : part = .data := h
  rw [objectLines]
  split
  · next hv =>
    refine ⟨⟨fresh, trivial⟩, ?_⟩
    rw [hv]
    change (⟨.data, textSize, dataSize, _⟩ : Placement) = ⟨.data, textSize, dataSize + 0, _⟩
    rw [Int64.add_zero]
    rfl
  · exact ⟨⟨fresh, rfl, trivial⟩, rfl⟩

theorem places_objects {p : Placement} (h : p.part = .data) {objects : List StringObject}
    (distinct : (objects.map fun o => dataLabel o.token).Nodup)
    (new : ∀ o ∈ objects, dataLabel o.token ∉ p.labels.map Prod.fst) :
    ∃ size, Listing.Places p (objects.flatMap objectLines)
      { p with dataSize := size, labels := (objectLabels p.dataSize objects).reverse ++ p.labels } := by
  induction objects generalizing p with
  | nil => exact ⟨p.dataSize, trivial, rfl⟩
  | cons o os ih =>
    rw [List.map_cons, List.nodup_cons] at distinct
    have first := places_objectLines h o (new o List.mem_cons_self)
    obtain ⟨size, rest⟩ := ih (p := { p with
      dataSize := p.dataSize + Int64.ofNat o.value.length
      labels := (dataLabel o.token, ⟨.data, p.dataSize.toInt⟩) :: p.labels }) h distinct.2 (by
        intro x hx hm
        rw [List.map_cons, List.mem_cons] at hm
        rcases hm with he | hm
        · apply distinct.1
          rw [← show dataLabel x.token = dataLabel o.token from he]
          exact List.mem_map_of_mem (f := fun o : StringObject => dataLabel o.token) hx
        · exact new x (List.mem_cons_of_mem o hx) hm)
    refine ⟨size, ?_⟩
    have all := first.append rest
    rw [List.flatMap_cons, objectLabels, List.reverse_cons, List.append_assoc]
    exact all

def programLabels (objects : List StringObject) (t : Target) : Labels :=
  [(t.entry, ⟨.text, (31 : Nat)⟩), (printIntWrite, ⟨.text, (23 : Nat)⟩),
    (printIntDigits, ⟨.text, (12 : Nat)⟩), (printInt, ⟨.text, (0 : Nat)⟩)] ++
    (objectLabels 0 objects).reverse

theorem nodup_dataLabels (named : Named objects t) :
    (objects.map fun o => dataLabel o.token).Nodup := by
  have distinct := named.distinct
  have tokens := named.tokens
  clear named
  induction objects with
  | nil => exact List.nodup_nil
  | cons o os ih =>
    rw [List.map_cons, List.nodup_cons] at distinct ⊢
    refine ⟨?_, ih distinct.2 fun x hx => tokens x (List.mem_cons_of_mem o hx)⟩
    intro hm
    obtain ⟨x, hx, he⟩ := List.mem_map.mp hm
    have := dataLabel_injective (tokens x (List.mem_cons_of_mem o hx))
      (tokens o List.mem_cons_self) he
    exact distinct.1 (this ▸ List.mem_map_of_mem hx)

theorem routine_ne_dataLabel : ∀ name ∈ routineLabels, ∀ token : Int, name ≠ dataLabel token := by
  have start : ∀ name ∈ routineLabels, name.head? ≠ some 76 := by decide
  intro name hn token he
  apply start name hn
  rw [he]
  rfl

theorem places_printInt (t : Target) (size : Int64) (labels : Labels)
    (new : ∀ name ∈ routineLabels, name ∉ labels.map Prod.fst) :
    Listing.Places ⟨.text, 0, size, labels⟩ (printIntLines t)
      ⟨.text, 31, size, (printIntWrite, ⟨.text, (23 : Nat)⟩) :: (printIntDigits, ⟨.text, (12 : Nat)⟩) ::
        (printInt, ⟨.text, (0 : Nat)⟩) :: labels⟩ := by
  have distinct : printIntDigits ≠ printInt ∧ printIntWrite ≠ printIntDigits ∧
      printIntWrite ≠ printInt := by decide
  have start : Listing.Places ⟨.text, 0, size, labels⟩ [.label printInt]
      ⟨.text, 0, size, (printInt, ⟨.text, (0 : Nat)⟩) :: labels⟩ :=
    places_label (new printInt (by simp [routineLabels]))
  have digits : Listing.Places ⟨.text, 12, size, (printInt, ⟨.text, (0 : Nat)⟩) :: labels⟩
      [.label printIntDigits] ⟨.text, 12, size, (printIntDigits, ⟨.text, (12 : Nat)⟩) ::
        (printInt, ⟨.text, (0 : Nat)⟩) :: labels⟩ := by
    apply places_label
    rw [List.map_cons, List.mem_cons, not_or]
    exact ⟨distinct.1, new printIntDigits (by simp [routineLabels])⟩
  have write : Listing.Places ⟨.text, 23, size, (printIntDigits, ⟨.text, (12 : Nat)⟩) ::
        (printInt, ⟨.text, (0 : Nat)⟩) :: labels⟩ [.label printIntWrite]
      ⟨.text, 23, size, (printIntWrite, ⟨.text, (23 : Nat)⟩) :: (printIntDigits, ⟨.text, (12 : Nat)⟩) ::
        (printInt, ⟨.text, (0 : Nat)⟩) :: labels⟩ := by
    apply places_label
    rw [List.map_cons, List.map_cons, List.mem_cons, List.mem_cons, not_or, not_or]
    exact ⟨distinct.2.1, distinct.2.2, new printIntWrite (by simp [routineLabels])⟩
  rw [printIntLines_eq]
  exact start.append ((places_codes rfl printIntHead).append (digits.append
    ((places_codes rfl printIntLoop).append (write.append (places_codes rfl (printIntTail t))))))

theorem programLines_placed (named : Named objects t) (statements : List (Bytes × Expr)) :
    ∃ q, Listing.Places (.start []) (programLines objects t statements) q ∧
      q.labels = programLabels objects t := by
  have keys : ((objectLabels 0 objects).reverse ++ []).map Prod.fst =
      (objects.map fun o => dataLabel o.token).reverse := by
    rw [List.append_nil, List.map_reverse, map_fst_objectLabels]
  have notData {name : Bytes} (h : ∀ o ∈ objects, name ≠ dataLabel o.token) :
      name ∉ ((objectLabels 0 objects).reverse ++ []).map Prod.fst := by
    rw [keys, List.mem_reverse]
    intro hm
    obtain ⟨o, ho, he⟩ := List.mem_map.mp hm
    exact h o ho he.symm
  have entryNe := named.notRoutine
  simp only [routineLabels, List.mem_cons, List.not_mem_nil, or_false, not_or] at entryNe
  have start : Listing.Places (.start []) [Line.dataSection] ⟨.data, 0, 0, []⟩ :=
    ⟨⟨trivial, trivial⟩, rfl⟩
  obtain ⟨size, data⟩ := places_objects (p := ⟨.data, 0, 0, []⟩) rfl (nodup_dataLabels named)
    fun o _ => List.not_mem_nil
  have text (labels : Labels) : Listing.Places ⟨.data, 0, size, labels⟩ [Line.blank, .textSection]
      ⟨.text, 0, size, labels⟩ := ⟨⟨trivial, trivial, trivial⟩, rfl⟩
  have routine := places_printInt t size ((objectLabels 0 objects).reverse ++ [])
    fun name hn => notData fun o _ => routine_ne_dataLabel name hn o.token
  -- The entry is compared with names only, so the places behind them can be forgotten here.
  generalize hall : (printIntWrite, _) :: _ = all at routine
  have entry : Listing.Places ⟨.text, 31, size, all⟩ [Line.blank, .global t.entry, .label t.entry]
      ⟨.text, 31, size, (t.entry, ⟨.text, (31 : Nat)⟩) :: all⟩ := by
    refine ⟨⟨trivial, trivial, lookup_eq_none_of_not_mem ?_, trivial⟩, rfl⟩
    change t.entry ∉ all.map Prod.fst
    rw [← hall]
    simp only [List.map_cons, List.mem_cons, not_or]
    exact ⟨entryNe.2.2, entryNe.2.1, entryNe.1, notData named.notData⟩
  have body := (places_codes (p := ⟨.text, 31, size, (t.entry, ⟨.text, (31 : Nat)⟩) :: all⟩) rfl
    (prologue t)).append ((places_statements rfl statements).append
      (places_codes rfl (epilogue t)))
  have whole := start.append (data.append ((text _).append (routine.append (entry.append body))))
  have shape : programLines objects t statements =
      [Line.dataSection] ++ (objects.flatMap objectLines ++ ([.blank, .textSection] ++
        (printIntLines t ++ ([.blank, .global t.entry, .label t.entry] ++ ((prologue t).map .code ++
        (statements.flatMap (fun s => statementLines s.1 s.2) ++ (epilogue t).map .code)))))) := by
    simp only [programLines, List.cons_append, List.append_assoc, List.nil_append]
  rw [shape]
  refine ⟨_, whole, ?_⟩
  rw [programLabels, ← hall, List.append_nil]
  rfl

theorem filterMap_codes (is : List Instr) : (is.map Line.code).filterMap Line.instr? = is := by
  induction is with
  | nil => rfl
  | cons i is ih =>
    rw [List.map_cons, List.filterMap_cons, ih]
    rfl

theorem filterMap_objects (objects : List StringObject) :
    (objects.flatMap objectLines).filterMap Line.instr? = [] := by
  induction objects with
  | nil => rfl
  | cons o os ih =>
    rw [List.flatMap_cons, List.filterMap_append, ih, objectLines]
    split <;> rfl

theorem filterMap_statements (statements : List (Bytes × Expr)) :
    (statements.flatMap fun s => statementLines s.1 s.2).filterMap Line.instr? =
      (statements.map Prod.snd).flatMap printlnCode := by
  induction statements with
  | nil => rfl
  | cons s rest ih =>
    have first : (statementLines s.1 s.2).filterMap Line.instr? = printlnCode s.2 :=
      filterMap_codes _
    rw [List.flatMap_cons, List.filterMap_append, ih, first, List.map_cons, List.flatMap_cons]

theorem programLines_instrs (objects : List StringObject) (t : Target)
    (statements : List (Bytes × Expr)) :
    (programLines objects t statements).filterMap Line.instr? =
      (printIntHead ++ (printIntLoop ++ printIntTail t)) ++
        (prologue t ++ ((statements.map Prod.snd).flatMap printlnCode ++ epilogue t)) := by
  simp only [programLines, printIntLines_eq, List.filterMap_append, List.filterMap_cons, Line.instr?,
    filterMap_codes, filterMap_objects, filterMap_statements, List.nil_append, List.append_assoc]

theorem dataSize_codes (is : List Instr) : Listing.dataSize (is.map Line.code) = 0 := by
  induction is with
  | nil => rfl
  | cons i is ih =>
    rw [List.map_cons, Listing.dataSize_cons, ih]
    rfl

theorem dataSize_objects (objects : List StringObject) :
    Listing.dataSize (objects.flatMap objectLines) =
      (objects.map fun o => o.value.length).sum := by
  induction objects with
  | nil => rfl
  | cons o os ih =>
    have first : Listing.dataSize (objectLines o) = o.value.length := by
      rw [objectLines]
      split
      · next hv => rw [hv]; rfl
      · exact Nat.zero_add _
    rw [List.flatMap_cons, Listing.dataSize_append, first, ih, List.map_cons, List.sum_cons]

theorem dataSize_statements (statements : List (Bytes × Expr)) :
    Listing.dataSize (statements.flatMap fun s => statementLines s.1 s.2) = 0 := by
  induction statements with
  | nil => rfl
  | cons s rest ih =>
    have first : Listing.dataSize (statementLines s.1 s.2) = 0 := by
      rw [statementLines, Listing.dataSize_cons, dataSize_codes]
      rfl
    rw [List.flatMap_cons, Listing.dataSize_append, first, ih]

theorem programLines_dataSize (objects : List StringObject) (t : Target)
    (statements : List (Bytes × Expr)) :
    Listing.dataSize (programLines objects t statements) =
      (objects.map fun o => o.value.length).sum := by
  simp only [programLines, printIntLines_eq, Listing.dataSize_append, Listing.dataSize_cons, dataSize_codes, dataSize_objects,
    dataSize_statements, Line.dataSize, Nat.zero_add, Nat.add_zero]

theorem lookup_programLabels_routine (named : Named objects t) :
    (programLabels objects t).lookup printInt = some ⟨.text, (0 : Nat)⟩ ∧
      (programLabels objects t).lookup printIntDigits = some ⟨.text, (12 : Nat)⟩ ∧
      (programLabels objects t).lookup printIntWrite = some ⟨.text, (23 : Nat)⟩ := by
  have entryNe := named.notRoutine
  simp only [routineLabels, List.mem_cons, List.not_mem_nil, or_false, not_or] at entryNe
  refine ⟨?_, ?_, ?_⟩
  · rw [programLabels, List.cons_append, List.lookup_cons, beq_false_of_ne (Ne.symm entryNe.1)]
    rfl
  · rw [programLabels, List.cons_append, List.lookup_cons, beq_false_of_ne (Ne.symm entryNe.2.1)]
    rfl
  · rw [programLabels, List.cons_append, List.lookup_cons, beq_false_of_ne (Ne.symm entryNe.2.2)]
    exact List.lookup_cons_self

/-- The text of a generated listing is assembled to the image of the listing. -/
theorem assemble_programLines_image (named : Named objects t) (places : ∀ s ∈ statements, 10 ∉ s.1)
    (size : (objects.map fun o => o.value.length).sum ≤ Bytes.maxSize) :
    assemble (Listing.render (programLines objects t statements)) =
        .ok (Listing.image (programLines objects t statements)) ∧
      (Listing.image (programLines objects t statements)).labels = programLabels objects t := by
  obtain ⟨q, placed, labels⟩ := programLines_placed named statements
  obtain ⟨start, digits, write⟩ := lookup_programLabels_routine named
  have entry : (programLabels objects t).lookup t.entry = some ⟨.text, (31 : Nat)⟩ :=
    List.lookup_cons_self
  have known : ∀ name ∈ routineLabels, (programLabels objects t).lookup name ≠ none := by
    simp only [routineLabels, List.forall_mem_cons, start, digits, write]
    simp
  constructor
  · exact Listing.assemble_render (programLines_regular named.tokens named.entry places) placed.1
      (by rw [placed.2, labels]; exact programLines_resolved (by rw [entry]; simp) known)
      (by rw [programLines_dataSize]; exact size)
  · rw [← labels, ← placed.2]
    rfl

/-- The text of a generated listing is assembled to an image that holds the program. -/
theorem assemble_programLines (named : Named objects t) (places : ∀ s ∈ statements, 10 ∉ s.1)
    (size : (objects.map fun o => o.value.length).sum ≤ Bytes.maxSize)
    (small : textBase + (34 + ((statements.map Prod.snd).flatMap printlnCode).length + 3) < 2 ^ 64) :
    ∃ p, assemble (Listing.render (programLines objects t statements)) = .ok p ∧
      p.Lowered t (statements.map Prod.snd) ∧
      p.dataSize = (objects.map fun o => o.value.length).sum := by
  obtain ⟨assembled, labels⟩ := assemble_programLines_image named places size
  obtain ⟨start, digits, write⟩ := lookup_programLabels_routine named
  have instrs := Listing.instrs_image (programLines objects t statements)
  rw [programLines_instrs] at instrs
  have lookups (name : Bytes) : (Listing.image (programLines objects t statements)).lookup? name =
      (programLabels objects t).lookup name := by
    rw [← labels]
    rfl
  refine ⟨_, assembled, ⟨⟨?_, ?_, ?_, ?_⟩, ?_, ?_, ?_⟩, ?_⟩
  · exact Image.holds_of_instrs [] instrs
  · rw [lookups, start]
  · rw [lookups, digits]
  · rw [lookups, write]
  · rw [lookups]
    exact List.lookup_cons_self
  · rw [← List.append_nil (_ ++ _), List.append_assoc] at instrs
    exact Image.holds_of_instrs _ instrs
  · have count := congrArg List.length instrs
    rw [List.length_map, Array.length_toList] at count
    rw [count]
    have head : printIntHead.length = 12 := rfl
    have loop : printIntLoop.length = 11 := rfl
    have tail : (printIntTail t).length = 8 := rfl
    have begins : (prologue t).length = 3 := rfl
    have ends : (epilogue t).length = 3 := rfl
    simp only [List.length_append, head, loop, tail, begins, ends]
    omega
  · rw [Listing.dataSize_image, programLines_dataSize]

end Lowering

end PrintLang
