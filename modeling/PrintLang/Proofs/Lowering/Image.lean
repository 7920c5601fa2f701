import Mathlib.Data.List.Nodup
import PrintLang.Proofs.Lowering.Generate

set_option autoImplicit false

namespace PrintLang
open Lowering

section Generated
variable {p : Program} {t : Target}

theorem Lowering.prints_of_statement {i : Int} {part : Listing} (h : statement p i = .ok part) :
    ∃ s, Prints p i s ∧ part = statementLines s.1 s.2 := by
  unfold statement at h
  split at h
  · cases h
  · next n node =>
    split at h
    · next arg shape =>
      split at h
      · next tok e first tree =>
        split at h
        · cases h
        · next fine =>
          refine ⟨(p.file ++ bytes ":" ++ tok.loc.render, e),
            ⟨n, arg, tok, node, shape, first, tree, fine, rfl⟩, ?_⟩
          rw [← Except.ok.inj h, statementLines]
          simp only [List.append_assoc]
      · cases h
    · cases h

/-- A generated listing is the one of statements that print lowered expressions. -/
theorem Lowering.generate_eq_ok {listing : Listing} (h : generate p t = .ok listing) :
    ∃ statements, List.Forall₂ (Prints p) p.store.stmts.toList statements ∧
      listing = programLines p.store.objects.toList t statements := by
  unfold generate at h
  split at h
  · cases h
  · split at h
    · next parts each =>
      have collect : ∀ {is : List Int} {parts : List Listing},
          List.Forall₂ (fun i part => statement p i = .ok part) is parts →
          ∃ statements, List.Forall₂ (Prints p) is statements ∧
            parts = statements.map fun s => statementLines s.1 s.2 := by
        intro is parts all
        induction all with
        | nil => exact ⟨[], .nil, rfl⟩
        | cons first _ ih =>
          obtain ⟨s, prints, rfl⟩ := prints_of_statement first
          obtain ⟨rest, later, rfl⟩ := ih
          exact ⟨s :: rest, .cons prints later, rfl⟩
      obtain ⟨statements, prints, rfl⟩ := collect (mapM_eq_ok_iff.mp each)
      exact ⟨statements, prints, (Except.ok.inj h).symm⟩
    · cases h

end Generated

namespace Line

def dataBytes : Line → Bytes
  | .byteData values => values
  | _ => []

def global? : Line → Option Bytes
  | .global name => some name
  | _ => none

end Line

theorem Listing.data_image (ls : Listing) : (image ls).data = ls.flatMap Line.dataBytes := by
  have all (k : Nat) : ((items k ls).filterMap Item.run?).flatMap DataRun.toBytes =
      ls.flatMap Line.dataBytes := by
    induction ls generalizing k with
    | nil => rfl
    | cons l ls ih =>
      cases l with
      | byteData values =>
        change values ++ ((items (k + 1) ls).filterMap Item.run?).flatMap DataRun.toBytes = _
        rw [ih]
        rfl
      | blank | comment _ | label _ | dataSection | textSection | global _ | code _ =>
        exact ih (k + 1)
  exact all 1

theorem Listing.globals_image (ls : Listing) :
    (image ls).globals = ls.filterMap Line.global? := by
  have all (k : Nat) : (items k ls).filterMap Item.global? = ls.filterMap Line.global? := by
    induction ls generalizing k with
    | nil => rfl
    | cons l ls ih =>
      cases l with
      | global name =>
        change name :: (items (k + 1) ls).filterMap Item.global? = name :: _
        rw [ih]
      | blank | comment _ | label _ | dataSection | textSection | byteData _ | code _ =>
        exact ih (k + 1)
  exact all 1

namespace Lowering
variable {objects : List StringObject} {t : Target} {statements : List (Bytes × Expr)}

theorem codes_silent (is : List Instr) :
    ∀ l ∈ is.map Line.code, l.dataBytes = [] ∧ l.global? = none := by
  intro l hl
  obtain ⟨i, -, rfl⟩ := List.mem_map.mp hl
  exact ⟨rfl, rfl⟩

theorem statements_silent (statements : List (Bytes × Expr)) :
    ∀ l ∈ statements.flatMap (fun s => statementLines s.1 s.2), l.dataBytes = [] ∧ l.global? = none := by
  intro l hl
  obtain ⟨s, -, hl⟩ := List.mem_flatMap.mp hl
  rw [statementLines, List.mem_cons] at hl
  rcases hl with rfl | hl
  · exact ⟨rfl, rfl⟩
  · exact codes_silent _ l hl

theorem dataBytes_silent {ls : Listing} (h : ∀ l ∈ ls, l.dataBytes = [] ∧ l.global? = none) :
    ls.flatMap Line.dataBytes = [] :=
  List.flatMap_eq_nil_iff.mpr fun l hl => (h l hl).1

theorem globals_silent {ls : Listing} (h : ∀ l ∈ ls, l.dataBytes = [] ∧ l.global? = none) :
    ls.filterMap Line.global? = [] :=
  List.filterMap_eq_nil_iff.mpr fun l hl => (h l hl).2

theorem dataBytes_objects (objects : List StringObject) :
    (objects.flatMap objectLines).flatMap Line.dataBytes = objects.flatMap StringObject.value := by
  induction objects with
  | nil => rfl
  | cons o os ih =>
    have first : (objectLines o).flatMap Line.dataBytes = o.value := by
      by_cases hv : o.value = [] <;> simp [objectLines, hv, Line.dataBytes]
    simp only [List.flatMap_cons, List.flatMap_append, first, ih]

theorem globals_objects (objects : List StringObject) :
    (objects.flatMap objectLines).filterMap Line.global? = [] := by
  rw [List.filterMap_eq_nil_iff]
  intro l hl
  obtain ⟨o, -, hl⟩ := List.mem_flatMap.mp hl
  by_cases hv : o.value = []
  · simp only [objectLines, hv, if_true, List.mem_singleton] at hl
    simp [hl, Line.global?]
  · simp only [objectLines, hv, if_false, List.mem_cons, List.not_mem_nil, or_false] at hl
    rcases hl with rfl | rfl <;> rfl

theorem programLines_data (objects : List StringObject) (t : Target)
    (statements : List (Bytes × Expr)) :
    (programLines objects t statements).flatMap Line.dataBytes =
      objects.flatMap StringObject.value := by
  simp only [programLines, printIntLines_eq, List.flatMap_append, List.flatMap_cons, Line.dataBytes,
    dataBytes_objects, dataBytes_silent (codes_silent _), dataBytes_silent (statements_silent _),
    List.nil_append, List.append_nil]

theorem programLines_globals (objects : List StringObject) (t : Target)
    (statements : List (Bytes × Expr)) :
    (programLines objects t statements).filterMap Line.global? = [t.entry] := by
  simp only [programLines, printIntLines_eq, List.filterMap_append, List.filterMap_cons, Line.global?,
    globals_objects, globals_silent (codes_silent _), globals_silent (statements_silent _),
    List.nil_append, List.append_nil]

def dataOffset (objects : List StringObject) (k : Nat) : Nat :=
  ((objects.take k).map fun o => o.value.length).sum

theorem dataOffset_le (objects : List StringObject) (k : Nat) :
    dataOffset objects k ≤ (objects.map fun o => o.value.length).sum := by
  have split : (objects.map fun o => o.value.length).sum =
      dataOffset objects k + ((objects.drop k).map fun o => o.value.length).sum := by
    rw [dataOffset, ← List.sum_append, ← List.map_append, List.take_append_drop]
  omega

theorem length_values (objects : List StringObject) :
    (objects.flatMap StringObject.value).length = (objects.map fun o => o.value.length).sum := by
  rw [List.length_flatMap]

theorem mem_objectLabels {offset : Int64} {objects : List StringObject} {name : Bytes}
    {sym : Symbol} : (name, sym) ∈ objectLabels offset objects ↔
      ∃ k o, objects[k]? = some o ∧ name = dataLabel o.token ∧
        sym = ⟨.data, (offset + Int64.ofNat (dataOffset objects k)).toInt⟩ := by
  induction objects generalizing offset with
  | nil => simp [objectLabels]
  | cons o os ih =>
    have later (k : Nat) : offset + Int64.ofNat (dataOffset (o :: os) (k + 1)) =
        offset + Int64.ofNat o.value.length + Int64.ofNat (dataOffset os k) := by
      rw [dataOffset, List.take_succ_cons, List.map_cons, List.sum_cons, Int64.ofNat_add,
        Int64.add_assoc]
      rfl
    rw [objectLabels, List.mem_cons, ih]
    constructor
    · rintro (h | ⟨k, x, hx, rfl, rfl⟩)
      · obtain ⟨rfl, rfl⟩ := Prod.mk.inj h
        exact ⟨0, o, rfl, rfl, by rw [show Int64.ofNat (dataOffset (o :: os) 0) = 0 from rfl,
          Int64.add_zero]⟩
      · exact ⟨k + 1, x, by simpa using hx, rfl, by rw [later]⟩
    · rintro ⟨k, x, hx, rfl, rfl⟩
      cases k with
      | zero =>
        left
        obtain rfl : o = x := by simpa using hx
        rw [show Int64.ofNat (dataOffset (o :: os) 0) = 0 from rfl, Int64.add_zero]
      | succ k => exact .inr ⟨k, x, by simpa using hx, rfl, by rw [later]⟩

def printIntCode (t : Target) : List Instr := printIntHead ++ (printIntLoop ++ printIntTail t)

/-- The labels of a generated listing. The routine comes first in the text and ends with its return,
behind which the entry stands. -/
inductive Labelled (objects : List StringObject) (t : Target) : Bytes → Symbol → Prop where
  | routine : Labelled objects t printInt ⟨.text, 0⟩
  | digits : Labelled objects t printIntDigits ⟨.text, printIntHead.length⟩
  | write : Labelled objects t printIntWrite ⟨.text, (printIntHead ++ printIntLoop).length⟩
  | entry : Labelled objects t t.entry ⟨.text, (printIntCode t).length⟩
  | data {k : Nat} {o : StringObject} (h : objects[k]? = some o) :
      Labelled objects t (dataLabel o.token) ⟨.data, dataOffset objects k⟩

theorem nodup_programLabels (named : Named objects t) :
    ((programLabels objects t).map Prod.fst).Nodup := by
  have routine : routineLabels.Nodup := by decide
  have entry := named.notRoutine
  have split : (programLabels objects t).map Prod.fst =
      t.entry :: (routineLabels.reverse ++ (objects.map fun o => dataLabel o.token).reverse) := by
    rw [programLabels, List.map_append, List.map_reverse, map_fst_objectLabels]
    rfl
  have entryData : t.entry ∉ objects.map fun o => dataLabel o.token := by
    intro hm
    obtain ⟨o, ho, he⟩ := List.mem_map.mp hm
    exact named.notData o ho he.symm
  rw [split, List.nodup_cons, List.nodup_append]
  refine ⟨?_, List.nodup_reverse.mpr routine, List.nodup_reverse.mpr (nodup_dataLabels named), ?_⟩
  · rw [List.mem_append, List.mem_reverse, List.mem_reverse, not_or]
    exact ⟨entry, entryData⟩
  · intro name hn other ho he
    obtain ⟨o, -, rfl⟩ := List.mem_map.mp (List.mem_reverse.mp ho)
    exact routine_ne_dataLabel name (List.mem_reverse.mp hn) o.token he

theorem mem_programLabels (size : (objects.map fun o => o.value.length).sum ≤ Bytes.maxSize)
    {name : Bytes} {sym : Symbol} :
    (name, sym) ∈ programLabels objects t ↔ Labelled objects t name sym := by
  have address (k : Nat) :
      (0 + Int64.ofNat (dataOffset objects k)).toInt = dataOffset objects k := by
    have low := dataOffset_le objects k
    have limit : Bytes.maxSize < 2 ^ 63 := by decide
    rw [Int64.zero_add, Int64.toInt_ofNat_of_lt (by omega)]
  simp only [programLabels, List.mem_append, List.mem_cons, List.not_mem_nil, or_false,
    List.mem_reverse, mem_objectLabels, address, Prod.mk.injEq]
  constructor
  · rintro ((⟨rfl, rfl⟩ | ⟨rfl, rfl⟩ | ⟨rfl, rfl⟩ | ⟨rfl, rfl⟩) | ⟨k, o, ho, rfl, rfl⟩)
    · exact .entry
    · exact .write
    · exact .digits
    · exact .routine
    · exact .data ho
  · intro h
    cases h with
    | routine => exact .inl (.inr (.inr (.inr ⟨rfl, rfl⟩)))
    | digits => exact .inl (.inr (.inr (.inl ⟨rfl, rfl⟩)))
    | write => exact .inl (.inr (.inl ⟨rfl, rfl⟩))
    | entry => exact .inl (.inl ⟨rfl, rfl⟩)
    | data ho => exact .inr ⟨_, _, ho, rfl, rfl⟩

end Lowering

/-- What the assembler reads from the listing that prints the expressions, with string objects as
data. -/
structure Image.Spells (image : Image) (objects : List StringObject) (t : Target) (es : List Expr) :
    Prop where
  data : image.data = objects.flatMap StringObject.value
  globals : image.globals = [t.entry]
  labels : ∀ name sym, image.lookup? name = some sym ↔ Labelled objects t name sym
  text : image.text.toList.map CodeLine.instr =
    printIntCode t ++ (prologue t ++ (es.flatMap printlnCode ++ epilogue t))

theorem Lowering.spells_programLines {objects : List StringObject} {t : Target}
    {statements : List (Bytes × Expr)} (named : Named objects t)
    (places : ∀ s ∈ statements, 10 ∉ s.1)
    (size : (objects.map fun o => o.value.length).sum ≤ Bytes.maxSize) :
    ∃ image, assemble (Listing.render (programLines objects t statements)) = .ok image ∧
      image.Spells objects t (statements.map Prod.snd) := by
  obtain ⟨assembled, labels⟩ := assemble_programLines_image named places size
  refine ⟨_, assembled, ?_, ?_, ?_, ?_⟩
  · rw [Listing.data_image, programLines_data]
  · rw [Listing.globals_image, programLines_globals]
  · intro name sym
    rw [Image.lookup?, labels, lookup_eq_some_iff_mem (nodup_programLabels named),
      mem_programLabels size]
  · rw [Listing.instrs_image, programLines_instrs]
    rfl

theorem Memory.read_write_middle (m : Memory) (a : Nat) (xs ys zs : Bytes)
    (h : a + (xs ++ (ys ++ zs)).length ≤ memSize) :
    (m.write a (xs ++ (ys ++ zs))).read (a + xs.length) ys.length = ys := by
  simp only [List.length_append] at h
  have back := (read_write_append m a xs (ys ++ zs) (by rw [List.length_append]; omega)).2
  rw [List.length_append, read_add] at back
  exact (List.append_inj back (length_read _ _ _)).1

/-- Every string of the program is in memory at the address of its label. -/
theorem Image.Spells.memory {image : Image} {objects : List StringObject} {t : Target}
    {es : List Expr} (h : image.Spells objects t es) {m : Machine}
    (loaded : Machine.load image = .ok m) {k : Nat} {o : StringObject} (ho : objects[k]? = some o) :
    m.memory.read (dataBase + dataOffset objects k) o.value.length = o.value := by
  unfold Machine.load at loaded
  split at loaded
  · cases loaded
  · next fits =>
    obtain rfl := Except.ok.inj loaded
    rw [← Image.length_data] at fits
    obtain ⟨hk, here⟩ := List.getElem?_eq_some_iff.mp ho
    have rest : objects.drop k = o :: objects.drop (k + 1) := by
      rw [List.drop_eq_getElem_cons hk, here]
    have parts : image.data = (objects.take k).flatMap StringObject.value ++
        (o.value ++ (objects.drop (k + 1)).flatMap StringObject.value) := by
      rw [h.data, ← List.flatMap_cons, ← rest, ← List.flatMap_append, List.take_append_drop]
    have half : memSize / 2 ≤ memSize := Nat.div_le_self _ _
    have offset : dataOffset objects k = ((objects.take k).flatMap StringObject.value).length := by
      rw [length_values, dataOffset]
    rw [parts] at fits
    change (Memory.zero.write dataBase image.data).read _ _ = _
    rw [parts, offset]
    exact Memory.read_write_middle _ _ _ _ _ (by omega)

theorem Machine.load_of_fits {image : Image} (fits : dataBase + image.data.length ≤ memSize / 2) :
    ∃ m, Machine.load image = .ok m := by
  rw [Image.length_data] at fits
  rw [Machine.load, if_neg (by omega)]
  exact ⟨_, rfl⟩

/-- The listing of every program that is lowered is assembled, if it is a text at all, to the image
that spells the program: the strings as data, the labels where lowering means them to be, and the
instructions of the routine, the prologue, the statements in order and the epilogue. If the strings
fit into the machine, they are loaded at the addresses of their labels. -/
theorem assemble_generated_listing {p : Program} {t : Target} {listing : Listing}
    (generated : generate p t = .ok listing) (file : 10 ∉ p.file)
    (tokens : ∀ o ∈ p.store.objects.toList, 0 ≤ o.token)
    (distinct : (p.store.objects.toList.map StringObject.token).Nodup)
    (entry : Reader.isSymbol t.entry = true)
    (notRoutine : t.entry ∉ [printInt, printIntDigits, printIntWrite])
    (notData : ∀ o ∈ p.store.objects.toList, t.entry ≠ dataLabel o.token)
    (text : listing.render.length ≤ Bytes.maxSize) :
    ∃ image statements, assemble listing.render = .ok image ∧
      List.Forall₂ (Prints p) p.store.stmts.toList statements ∧
      image.Spells p.store.objects.toList t (statements.map Prod.snd) ∧
      (dataBase + (p.store.objects.toList.flatMap StringObject.value).length ≤ memSize / 2 →
        ∃ m, Machine.load image = .ok m ∧ ∀ k o, p.store.objects.toList[k]? = some o →
          m.memory.read (dataBase + dataOffset p.store.objects.toList k) o.value.length =
            o.value) := by
  obtain ⟨statements, prints, rfl⟩ := generate_eq_ok generated
  have places : ∀ s ∈ statements, 10 ∉ s.1 := by
    intro s hs
    obtain ⟨i, -, here⟩ := exists_mem_of_forall₂ prints hs
    exact newline_not_mem_place file here
  have weight := Listing.length_render_ge (programLines p.store.objects.toList t statements)
  rw [programLines_dataSize] at weight
  obtain ⟨image, assembled, spells⟩ := spells_programLines
    ⟨tokens, distinct, entry, notRoutine, notData⟩ places (by omega)
  refine ⟨image, statements, assembled, prints, spells, ?_⟩
  intro fits
  obtain ⟨m, loaded⟩ := Machine.load_of_fits (by rw [spells.data]; exact fits)
  exact ⟨m, loaded, fun k o ho => spells.memory loaded ho⟩

/-- Prints `9000000000 - 2`, and has three strings: one with the characters that end operands, labels,
comments and lines, an empty one, and one of bytes that are no text. -/
def stringsBeside : Program where
  file := bytes "a.kt"
  stream := ⟨[], #[⟨.kwPrintln, 0, 7, ⟨1, 1⟩⟩]⟩
  store :=
    { nodes := #[⟨0, 0, none, .intLit 9000000000⟩, ⟨0, 0, none, .intLit 2⟩,
        ⟨0, 0, none, .binary .sub 0 1⟩, ⟨0, 0, none, .println 2⟩]
      types := #[]
      objects := #[⟨12, bytes ",:#\n"⟩, ⟨3, []⟩, ⟨7, [0, 255]⟩]
      stmts := #[3] }

def stringsBesideTree : Expr := .binary 2 .sub (.int 0 9000000000) (.int 1 2)

theorem stringsBeside_expr : stringsBeside.store.expr? 2 = some stringsBesideTree := by
  have built := Store.Built.empty.node (n := ⟨0, 0, none, .intLit 9000000000⟩) rfl
    |>.node (n := ⟨0, 0, none, .intLit 2⟩) rfl |>.node (n := ⟨0, 0, none, .binary .sub 0 1⟩) rfl
    |>.node (n := ⟨0, 0, none, .println 2⟩) rfl |>.object ⟨12, bytes ",:#\n"⟩ |>.object ⟨3, []⟩
    |>.object ⟨7, [0, 255]⟩ |>.stmt 3
  have tree : stringsBeside.store.Tree 2 stringsBesideTree :=
    .binary rfl rfl (.int rfl rfl) (.int rfl rfl)
  exact tree.expr?_eq built.ordered

theorem stringsBeside_generates : generate stringsBeside .darwin =
    .ok (programLines stringsBeside.store.objects.toList .darwin
      [(bytes "a.kt:1:1", stringsBesideTree)]) :=
  generate_eq (by decide +kernel) (.cons ⟨_, 2, _, rfl, rfl, rfl, stringsBeside_expr,
    by decide +kernel, by decide +kernel⟩ .nil)

theorem stringsBeside_assembled : ∃ listing image m,
    generate stringsBeside .darwin = .ok listing ∧ listing.render.length ≤ Bytes.maxSize ∧
    assemble listing.render = .ok image ∧ image.data = [44, 58, 35, 10, 0, 255] ∧
    image.globals = [bytes "_main"] ∧ image.lookup? (bytes "_main") = some ⟨.text, 31⟩ ∧
    image.lookup? (bytes "L7") = some ⟨.data, 4⟩ ∧
    image.text.toList.map CodeLine.instr = printIntCode .darwin ++ (prologue .darwin ++
      (printlnCode stringsBesideTree ++ epilogue .darwin)) ∧
    Machine.load image = .ok m ∧ m.memory.read (dataBase + 4) 2 = [0, 255] := by
  obtain ⟨image, statements, assembled, prints, spells, loads⟩ := assemble_generated_listing
    stringsBeside_generates (by decide +kernel) (by decide +kernel) (by decide +kernel)
    (by decide +kernel) (by decide +kernel) (by decide +kernel) (by decide +kernel)
  obtain ⟨m, loaded, strings⟩ := loads (by decide +kernel)
  have label : bytes "L7" = dataLabel 7 := by decide +kernel
  refine ⟨_, image, m, stringsBeside_generates, by decide +kernel, assembled, ?_, spells.globals,
    (spells.labels _ _).mpr .entry, ?_, ?_, loaded, strings 2 ⟨7, [0, 255]⟩ rfl⟩
  · rw [spells.data]
    decide +kernel
  · rw [label]
    exact (spells.labels _ _).mpr (.data (k := 2) (o := ⟨7, [0, 255]⟩) rfl)
  · obtain ⟨s, rest, ⟨n, arg, -, node, shape, -, tree, -⟩, none, rfl⟩ :=
      List.forall₂_cons_left_iff.mp prints
    obtain rfl := List.forall₂_nil_left_iff.mp none
    obtain rfl := Option.some.inj node
    obtain rfl := Shape.println.inj shape
    rw [spells.text, List.map_singleton, ← Option.some.inj (stringsBeside_expr.symm.trans tree)]
    rfl

end PrintLang
