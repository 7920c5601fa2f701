import PrintLang.Listing.Assembler
import PrintLang.Proofs.Listing.Reader
import PrintLang.Proofs.Outcome

set_option autoImplicit false

namespace PrintLang

theorem lookup_eq_none_of_not_mem {labels : Labels} {name : Bytes}
    (h : name ∉ labels.map Prod.fst) : labels.lookup name = none := by
  rw [List.lookup_eq_none_iff]
  intro p hp
  have hne : name ≠ p.1 := by
    rintro rfl
    exact h (List.mem_map_of_mem hp)
  simpa using hne

theorem lookup_eq_none_iff_not_mem {labels : Labels} {name : Bytes} :
    labels.lookup name = none ↔ name ∉ labels.map Prod.fst := by
  refine ⟨?_, lookup_eq_none_of_not_mem⟩
  intro unknown hm
  obtain ⟨entry, he, rfl⟩ := List.mem_map.mp hm
  simpa using List.lookup_eq_none_iff.mp unknown entry he

/-- In a table of distinct names, the entry that is found is the only one. -/
theorem lookup_eq_some_iff_mem {labels : Labels} (distinct : (labels.map Prod.fst).Nodup)
    {name : Bytes} {sym : Symbol} : labels.lookup name = some sym ↔ (name, sym) ∈ labels := by
  induction labels with
  | nil => simp
  | cons entry rest ih =>
    obtain ⟨other, found⟩ := entry
    rw [List.map_cons, List.nodup_cons] at distinct
    by_cases he : name = other
    · subst he
      have later : (name, sym) ∉ rest := by
        intro hm
        exact distinct.1 (List.mem_map.mpr ⟨_, hm, rfl⟩)
      simp [later, eq_comm]
    · simp [List.lookup_cons, beq_false_of_ne he, he, ih distinct.2]

namespace Line

def put : Line → Placement → Placement
  | .label name, p => { p with labels := (name, p.here) :: p.labels }
  | .dataSection, p => { p with part := .data }
  | .textSection, p => { p with part := .text }
  | .byteData values, p => { p with dataSize := p.dataSize + Int64.ofNat values.length }
  | .code _, p => { p with textSize := p.textSize + 1 }
  | _, p => p

/-- A label must be new, and data and instructions belong to their sections. -/
def Fits (p : Placement) : Line → Prop
  | .label name => p.labels.lookup name = none
  | .byteData _ => p.part = .data
  | .code _ => p.part = .text
  | _ => True

def item (line : Nat) : Line → Item
  | .global name => .global name
  | .byteData values => .data (.bytes values)
  | .code i => .code ⟨line, i⟩
  | _ => .nothing

def dataSize : Line → Nat
  | .byteData values => values.length
  | _ => 0

def instr? : Line → Option Instr
  | .code i => some i
  | _ => none

def Resolved (labels : Labels) : Line → Prop
  | .code i => ∀ op ∈ i.operands, op.symbol ≠ [] → labels.lookup op.symbol ≠ none
  | .global name => labels.lookup name ≠ none
  | _ => True

end Line

theorem Mnemonic.directive_name {m : Mnemonic} (h : m ∈ all) :
    Directive.ofWord m.name = .instruction := by
  have all : ∀ m ∈ all, Directive.ofWord m.name = .instruction := by decide
  exact all m h

theorem Line.dataSize_item (l : Line) (k : Nat) : (l.item k).dataSize = l.dataSize := by
  cases l <;> rfl

theorem Line.place_source {l : Line} {p : Placement} (regular : l.Regular) (fits : l.Fits p)
    (line : Nat) : (l.source line).place p = (l.put p, none) := by
  cases l with
  | blank | comment _ => rfl
  | label name =>
    have unknown : p.labels.lookup name = none := fits
    simp only [SourceLine.place, Line.source, Placement.define, unknown]
    rfl
  | dataSection | textSection | global _ => rfl
  | byteData values =>
    have data : p.part = .data := fits
    have advance : (Line.source line (.byteData values)).advance p = (put (.byteData values) p, none) := by
      simp only [SourceLine.advance, Line.source, show Directive.ofWord (bytes ".byte") = .byteData by
        decide, data, List.length_map, put]
    exact advance
  | code i =>
    have text : p.part = .text := fits
    have word := Mnemonic.directive_name (Mnemonic.mem_all (Instr.Regular.arity regular))
    have advance : (Line.source line (.code i)).advance p = (put (.code i) p, none) := by
      simp only [SourceLine.advance, Line.source, word, text, put]
    exact advance

theorem SourceLine.byteValue_decimalNat (l : SourceLine) (b : UInt8) :
    l.byteValue (decimalNat b.toNat) = .ok b := by
  have lt : b.toNat < 256 := b.toNat_lt
  have read : Integer.read .marked 16 (decimalNat b.toNat) = .ok (b.toNat : Int) :=
    Integer.read_decimal (v := (b.toNat : Int)) (by decide) (by omega) (by omega)
  have value : UInt8.ofInt (b.toNat : Int) = b := by
    apply UInt8.toNat_inj.mp
    rw [UInt8.ofInt, UInt8.toNat_ofNat']
    omega
  simp only [SourceLine.byteValue, read, value]
  rw [if_pos (by omega)]

theorem Line.decode_source {l : Line} {labels : Labels} (regular : l.Regular)
    (resolved : l.Resolved labels) (line : Nat) :
    (l.source line).decode labels = .ok (l.item line) := by
  cases l with
  | blank | comment _ | label _ | dataSection | textSection | global _ => rfl
  | byteData values =>
    have all := mapM_map_eq_ok (f := (Line.source line (.byteData values)).byteValue) values
      fun b _ => SourceLine.byteValue_decimalNat _ b
    simp only [SourceLine.decode, Line.source, show Directive.ofWord (bytes ".byte") = .byteData by
      decide]
    simp only [Line.source] at all
    rw [all]
    rfl
  | code i =>
    have known := Mnemonic.mem_all (Instr.Regular.arity regular)
    have arity := Instr.Regular.arity regular
    have all := mapM_map_eq_ok (f := (Line.source line (.code i)).operand labels)
      (g := Operand.render) i.operands (by
      intro op hop
      have read := Reader.readOperand_render ((Instr.Regular.readable regular).readable op hop) line
      have fine : ¬ (op.symbol ≠ [] ∧ labels.lookup op.symbol = none) :=
        fun h => resolved op hop h.1 h.2
      simp only [SourceLine.operand, Line.source, read, if_neg fine])
    simp only [SourceLine.decode, Line.source, Mnemonic.directive_name known,
      SourceLine.instruction, Mnemonic.ofName_name known, arity, List.length_map, ne_eq,
      not_true_eq_false, if_false]
    simp only [Line.source] at all
    rw [all]
    rfl

namespace Listing

def put (p : Placement) (ls : Listing) : Placement := ls.foldl (fun p l => l.put p) p

def Fits : Placement → Listing → Prop
  | _, [] => True
  | p, l :: ls => l.Fits p ∧ Fits (l.put p) ls

theorem put_append (p : Placement) (xs ys : Listing) : put p (xs ++ ys) = put (put p xs) ys :=
  List.foldl_append

theorem fits_append {p : Placement} {xs ys : Listing} :
    Fits p (xs ++ ys) ↔ Fits p xs ∧ Fits (put p xs) ys := by
  induction xs generalizing p with
  | nil => exact ⟨fun h => ⟨trivial, h⟩, fun h => h.2⟩
  | cons l xs ih =>
    rw [List.cons_append, Fits, ih]
    exact ⟨fun h => ⟨⟨h.1, h.2.1⟩, h.2.2⟩, fun h => ⟨h.1.1, h.1.2, h.2⟩⟩

/-- The lines fit, and lead the first pass from `p` to `q`. -/
def Places (p : Placement) (ls : Listing) (q : Placement) : Prop := Fits p ls ∧ put p ls = q

theorem Places.append {p q r : Placement} {xs ys : Listing} (h : Places p xs q)
    (h' : Places q ys r) : Places p (xs ++ ys) r := by
  obtain ⟨fits, rfl⟩ := h
  obtain ⟨fits', rfl⟩ := h'
  exact ⟨fits_append.mpr ⟨fits, fits'⟩, put_append p xs ys⟩

theorem placeAll_sources {ls : Listing} {p : Placement} (regular : ∀ l ∈ ls, l.Regular)
    (fits : Fits p ls) (k : Nat) :
    Assembler.placeAll p (sources k ls) = (put p ls, none) := by
  induction ls generalizing p k with
  | nil => rfl
  | cons l ls ih =>
    rw [sources, Assembler.placeAll, Line.place_source (regular l List.mem_cons_self) fits.1]
    exact ih (fun x hx => regular x (List.mem_cons_of_mem l hx)) fits.2 (k + 1)

def items : (k : Nat) → Listing → List Item
  | _, [] => []
  | k, l :: ls => l.item k :: items (k + 1) ls

def dataSize (ls : Listing) : Nat := (ls.map Line.dataSize).sum

theorem dataSize_cons (l : Line) (ls : Listing) : dataSize (l :: ls) = l.dataSize + dataSize ls := by
  rw [dataSize, List.map_cons, List.sum_cons]
  rfl

theorem dataSize_append (xs ys : Listing) : dataSize (xs ++ ys) = dataSize xs + dataSize ys := by
  rw [dataSize, List.map_append, List.sum_append]
  rfl

theorem mapM_decodeNext {ls : Listing} {labels : Labels} (regular : ∀ l ∈ ls, l.Regular)
    (resolved : ∀ l ∈ ls, l.Resolved labels) (k size : Nat)
    (room : size + dataSize ls ≤ Bytes.maxSize) :
    ((sources k ls).mapM (Assembler.decodeNext labels)).run size =
      .ok (items k ls, size + dataSize ls) := by
  induction ls generalizing k size with
  | nil => rfl
  | cons l ls ih =>
    have total : size + dataSize (l :: ls) = size + l.dataSize + dataSize ls := by
      rw [dataSize_cons, Nat.add_assoc]
    rw [total] at room ⊢
    have first : (Assembler.decodeNext labels (l.source k)).run size =
        .ok (l.item k, size + l.dataSize) := by
      have decoded := Line.decode_source (regular l List.mem_cons_self)
        (resolved l List.mem_cons_self) k
      have small : ¬ Bytes.maxSize < size + (l.item k).dataSize := by
        rw [Line.dataSize_item]
        omega
      simp only [Assembler.decodeNext, decoded]
      change StateT.run (m := Except ListingError)
        (if Bytes.maxSize < size + (l.item k).dataSize then _ else _) size = _
      rw [if_neg small, ← Line.dataSize_item l k]
      rfl
    rw [sources, List.mapM_cons, StateT.run_bind, first]
    change (do
      let r ← ((sources (k + 1) ls).mapM (Assembler.decodeNext labels)).run (size + l.dataSize)
      pure (l.item k :: r.1, r.2)) = _
    rw [ih (fun x hx => regular x (List.mem_cons_of_mem l hx))
      (fun x hx => resolved x (List.mem_cons_of_mem l hx)) (k + 1) _ room]
    rfl

def image (ls : Listing) : Image where
  text := ((items 1 ls).filterMap Item.code?).toArray
  runs := (items 1 ls).filterMap Item.run?
  labels := (put (.start []) ls).labels
  globals := (items 1 ls).filterMap Item.global?

theorem items_append (k : Nat) (xs ys : Listing) :
    items k (xs ++ ys) = items k xs ++ items (k + xs.length) ys := by
  induction xs generalizing k with
  | nil => rfl
  | cons l xs ih =>
    rw [List.cons_append, items, items, ih, List.length_cons, List.cons_append,
      show k + 1 + xs.length = k + (xs.length + 1) by omega]

theorem instrs_image (ls : Listing) :
    (image ls).text.toList.map CodeLine.instr = ls.filterMap Line.instr? := by
  have all (k : Nat) : ((items k ls).filterMap Item.code?).map CodeLine.instr =
      ls.filterMap Line.instr? := by
    induction ls generalizing k with
    | nil => rfl
    | cons l ls ih =>
      cases l with
      | code i =>
        change i :: ((items (k + 1) ls).filterMap Item.code?).map CodeLine.instr =
          i :: ls.filterMap Line.instr?
        rw [ih]
      | blank | comment _ | label _ | dataSection | textSection | global _ | byteData _ =>
        exact ih (k + 1)
  exact all 1

theorem dataSize_image (ls : Listing) : (image ls).dataSize = dataSize ls := by
  have all (k : Nat) : ((items k ls).filterMap Item.run?).foldr (fun r n => r.size + n) 0 =
      dataSize ls := by
    induction ls generalizing k with
    | nil => rfl
    | cons l ls ih =>
      rw [dataSize_cons, ← ih (k + 1)]
      cases l with
      | byteData values => rfl
      | blank | comment _ | label _ | dataSection | textSection | global _ | code _ =>
        exact (Nat.zero_add _).symm
  exact all 1

theorem mem_globals {k : Nat} {ls : Listing} {name : Bytes}
    (h : name ∈ (items k ls).filterMap Item.global?) : Line.global name ∈ ls := by
  induction ls generalizing k with
  | nil => cases h
  | cons l ls ih =>
    rw [items, List.filterMap_cons] at h
    have rest (h : name ∈ (items (k + 1) ls).filterMap Item.global?) : Line.global name ∈ l :: ls :=
      List.mem_cons_of_mem l (ih h)
    cases l with
    | global other =>
      rcases List.mem_cons.mp h with rfl | h
      · exact List.mem_cons_self
      · exact rest h
    | blank | comment _ | label _ | dataSection | textSection | byteData _ | code _ => exact rest h

/-- The text of a listing of regular lines, each of which fits and names known symbols only, is
assembled to the image of the listing. -/
theorem assemble_render {ls : Listing} (regular : ∀ l ∈ ls, l.Regular) (fits : Fits (.start []) ls)
    (resolved : ∀ l ∈ ls, l.Resolved (put (.start []) ls).labels)
    (size : dataSize ls ≤ Bytes.maxSize) : assemble ls.render = .ok (image ls) := by
  have regular' : ∀ l ∈ ls ++ [Line.blank], l.Regular := by
    intro l hl
    rcases List.mem_append.mp hl with hl | hl
    · exact regular l hl
    · rw [List.mem_singleton.mp hl]
      exact trivial
  have resolved' : ∀ l ∈ ls ++ [Line.blank], l.Resolved (put (.start []) ls).labels := by
    intro l hl
    rcases List.mem_append.mp hl with hl | hl
    · exact resolved l hl
    · rw [List.mem_singleton.mp hl]
      exact trivial
  have same : put (.start []) (ls ++ [Line.blank]) = put (.start []) ls := put_append _ ls _
  have size' : dataSize (ls ++ [Line.blank]) = dataSize ls := by
    rw [dataSize_append]
    rfl
  have placed := placeAll_sources regular' (fits_append.mpr ⟨fits, trivial, trivial⟩) 1
  have decoded := mapM_decodeNext regular' resolved' 1 0 (by omega)
  have known : ((items 1 (ls ++ [Line.blank])).filterMap Item.global?).find?
      (fun g => ((put (.start []) ls).labels.lookup g).isNone) = none := by
    rw [List.find?_eq_none]
    intro g hg
    have := resolved' _ (mem_globals hg)
    simpa [Line.Resolved] using this
  rw [assemble, Assembler.assemble, readLines_render regular]
  simp only [placed, same]
  rw [Assembler.decodeAll, decoded]
  change Assembler.link _ (items 1 (ls ++ [Line.blank])) = _
  simp only [Assembler.link, known]
  rw [items_append]
  simp [image, items, Line.item, Item.code?, Item.run?, Item.global?, List.filterMap_append]

end Listing

end PrintLang
