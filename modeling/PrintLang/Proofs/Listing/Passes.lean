import PrintLang.Proofs.Listing.Assembler

/-!
# The two passes agree

The first pass counts what lines will add to the sections, from operands that it does not read; the
second reads them and appends. For every listing that is accepted the counts are right: a label has the
section in force at its line, and its address is the number of instructions, or of data bytes, that
come from the lines before it.
-/

set_option autoImplicit false

namespace PrintLang

namespace SourceLine

def partAfter (part : Section) (l : SourceLine) : Section :=
  match Directive.ofWord l.word with
  | .textSection => .text
  | .dataSection => .data
  | _ => part

def isInstruction (l : SourceLine) : Bool := Directive.ofWord l.word == .instruction

def dataBytes (l : SourceLine) : Bytes :=
  match Directive.ofWord l.word with
  | .byteData => l.operands.filterMap fun text => (l.byteValue text).toOption
  | .zeroData =>
    match l.zeroCount with
    | .ok n => List.replicate n 0
    | .error _ => []
  | _ => []

def reserved (l : SourceLine) : Nat :=
  match Directive.ofWord l.word with
  | .byteData => l.operands.length
  | .zeroData =>
    match l.zeroCount with
    | .ok n => n
    | .error _ => 0
  | _ => 0

def moved (l : SourceLine) (p : Placement) : Placement where
  part := l.partAfter p.part
  textSize := p.textSize + if l.isInstruction then 1 else 0
  dataSize := p.dataSize + Int64.ofNat l.reserved
  labels := (l.labels.map fun name => (name, p.here)).reverse ++ p.labels

end SourceLine

section FirstPass

theorem Placement.define_eq_none {p q : Placement} {line : Nat} {names : List Bytes}
    (h : p.define line names = (q, none)) (distinct : (p.labels.map Prod.fst).Nodup) :
    q = { p with labels := (names.map fun name => (name, p.here)).reverse ++ p.labels } ∧
      (q.labels.map Prod.fst).Nodup := by
  induction names generalizing p with
  | nil =>
    obtain rfl : p = q := congrArg Prod.fst h
    exact ⟨rfl, distinct⟩
  | cons name names ih =>
    rw [define] at h
    split at h
    · cases h
    · next unknown =>
      have new := lookup_eq_none_iff_not_mem.mp unknown
      obtain ⟨rfl, nodup⟩ := ih h (by rw [List.map_cons, List.nodup_cons]; exact ⟨new, distinct⟩)
      refine ⟨?_, nodup⟩
      simp only [List.map_cons, List.reverse_cons, List.append_assoc, List.singleton_append]
      rfl

theorem SourceLine.advance_eq_none {l : SourceLine} {p q : Placement}
    (h : l.advance p = (q, none)) : Directive.ofWord l.word ≠ .unknown ∧
      q = { l.moved p with labels := p.labels } := by
  unfold advance at h
  simp only [moved, partAfter, isInstruction, reserved]
  split at h
  · next hw => cases h; simp [hw]
  · next hw => cases h; simp [hw]
  · next hw => cases h; simp [hw]
  · next hw => cases h; simp [hw]
  · next hw =>
    split at h
    · cases h; simp [hw]
    · cases h
  · next hw =>
    cases count : l.zeroCount with
    | error e =>
      rw [count] at h
      cases h
    | ok n =>
      rw [count] at h
      cases h
      simp [hw]
  · cases h
  · next hw =>
    split at h
    · cases h; simp [hw]
    · cases h

theorem SourceLine.place_eq_none {l : SourceLine} {p q : Placement} (h : l.place p = (q, none))
    (distinct : (p.labels.map Prod.fst).Nodup) : Directive.ofWord l.word ≠ .unknown ∧
      q = l.moved p ∧ (q.labels.map Prod.fst).Nodup := by
  unfold place at h
  split at h
  · cases h
  · next r defined =>
    obtain ⟨rfl, nodup⟩ := Placement.define_eq_none defined distinct
    obtain ⟨known, rfl⟩ := advance_eq_none h
    exact ⟨known, rfl, nodup⟩

namespace Placement

def through (p : Placement) (ls : List SourceLine) : Placement := ls.foldl (fun p l => l.moved p) p

theorem through_cons (p : Placement) (l : SourceLine) (ls : List SourceLine) :
    p.through (l :: ls) = (l.moved p).through ls := rfl

theorem through_part (p : Placement) (ls : List SourceLine) :
    (p.through ls).part = ls.foldl SourceLine.partAfter p.part := by
  induction ls generalizing p with
  | nil => rfl
  | cons l ls ih => exact ih (l.moved p)

theorem through_textSize (p : Placement) (ls : List SourceLine) :
    (p.through ls).textSize = p.textSize + ls.countP SourceLine.isInstruction := by
  induction ls generalizing p with
  | nil => rfl
  | cons l ls ih =>
    rw [through_cons, ih, SourceLine.moved, List.countP_cons]
    simp only
    omega

theorem through_dataSize (p : Placement) (ls : List SourceLine) :
    (p.through ls).dataSize = p.dataSize + Int64.ofNat (ls.map SourceLine.reserved).sum := by
  induction ls generalizing p with
  | nil => exact (Int64.add_zero _).symm
  | cons l ls ih =>
    rw [through_cons, ih, List.map_cons, List.sum_cons, Int64.ofNat_add, ← Int64.add_assoc]
    rfl

theorem map_fst_through (p : Placement) (ls : List SourceLine) :
    (p.through ls).labels.map Prod.fst =
      (ls.flatMap SourceLine.labels).reverse ++ p.labels.map Prod.fst := by
  induction ls generalizing p with
  | nil => rfl
  | cons l ls ih =>
    rw [through_cons, ih, SourceLine.moved, List.flatMap_cons, List.reverse_append]
    simp [Function.comp_def]

/-- The labels of the lines, each at the place that the lines before its own lead to. -/
theorem mem_through_labels {p : Placement} {ls : List SourceLine} {name : Bytes} {sym : Symbol} :
    (name, sym) ∈ (p.through ls).labels ↔ (name, sym) ∈ p.labels ∨
      ∃ before l after, ls = before ++ l :: after ∧ name ∈ l.labels ∧
        sym = (p.through before).here := by
  induction ls generalizing p with
  | nil => simp [through]
  | cons l ls ih =>
    have here : (name, sym) ∈ (l.moved p).labels ↔
        (name, sym) ∈ p.labels ∨ (name ∈ l.labels ∧ sym = p.here) := by
      simp only [SourceLine.moved, List.mem_append, List.mem_reverse, List.mem_map, Prod.mk.injEq]
      constructor
      · rintro (⟨other, hm, rfl, rfl⟩ | hm)
        · exact .inr ⟨hm, rfl⟩
        · exact .inl hm
      · rintro (hm | ⟨hm, rfl⟩)
        · exact .inr hm
        · exact .inl ⟨name, hm, rfl, rfl⟩
    rw [through_cons, ih, here, or_assoc]
    refine or_congr_right ⟨?_, ?_⟩
    · rintro (⟨hm, hs⟩ | ⟨before, x, after, rfl, hm, hs⟩)
      · exact ⟨[], l, ls, rfl, hm, hs⟩
      · exact ⟨l :: before, x, after, rfl, hm, hs⟩
    · rintro ⟨before, x, after, heq, hm, hs⟩
      cases before with
      | nil =>
        obtain ⟨rfl, rfl⟩ := List.cons.inj heq
        exact .inl ⟨hm, hs⟩
      | cons y before =>
        obtain ⟨rfl, rfl⟩ := List.cons.inj heq
        exact .inr ⟨before, x, after, rfl, hm, hs⟩

end Placement

theorem Assembler.placeAll_eq_none {p q : Placement} {ls : List SourceLine}
    (h : placeAll p ls = (q, none)) (distinct : (p.labels.map Prod.fst).Nodup) :
    q = p.through ls ∧ (q.labels.map Prod.fst).Nodup ∧
      ∀ l ∈ ls, Directive.ofWord l.word ≠ .unknown := by
  induction ls generalizing p with
  | nil =>
    obtain rfl : p = q := congrArg Prod.fst h
    exact ⟨rfl, distinct, by simp⟩
  | cons l ls ih =>
    rw [placeAll] at h
    split at h
    · cases h
    · next r placed =>
      obtain ⟨known, rfl, nodup⟩ := SourceLine.place_eq_none placed distinct
      obtain ⟨rfl, nodup, rest⟩ := ih h nodup
      exact ⟨rfl, nodup, List.forall_mem_cons.mpr ⟨known, rest⟩⟩

end FirstPass

section SecondPass

/-- What the second pass makes of a line that it accepts. -/
inductive SourceLine.Yields (labels : Labels) (l : SourceLine) : Item → Prop where
  | nothing (h : Directive.ofWord l.word = .nothing ∨ Directive.ofWord l.word = .textSection ∨
      Directive.ofWord l.word = .dataSection) : Yields labels l .nothing
  | global {name : Bytes} (h : Directive.ofWord l.word = .global) : Yields labels l (.global name)
  | bytes {values : Bytes} (h : Directive.ofWord l.word = .byteData)
      (read : List.Forall₂ (fun text b => l.byteValue text = .ok b) l.operands values) :
      Yields labels l (.data (.bytes values))
  | zeros {n : Nat} (h : Directive.ofWord l.word = .zeroData) (read : l.zeroCount = .ok n) :
      Yields labels l (.data (.zeros n))
  | code {ops : List Operand}
      (h : Directive.ofWord l.word = .unknown ∨ Directive.ofWord l.word = .instruction)
      (arity : (Mnemonic.ofName l.word).arity? = some ops.length)
      (read : List.Forall₂ (fun text op => l.operand labels text = .ok op) l.operands ops) :
      Yields labels l (.code ⟨l.line, Mnemonic.ofName l.word, ops⟩)

namespace SourceLine
variable {l : SourceLine} {labels : Labels} {item : Item}

theorem instruction_yields (h : l.instruction labels = .ok item)
    (hw : Directive.ofWord l.word = .unknown ∨ Directive.ofWord l.word = .instruction) :
    l.Yields labels item := by
  unfold instruction at h
  simp only at h
  split at h
  · cases h
  · next n arity =>
    split at h
    · cases h
    · next count =>
      obtain ⟨ops, read, h⟩ := bind_eq_ok.mp h
      obtain rfl := Except.ok.inj h
      have each := mapM_eq_ok_iff.mp read
      refine .code hw ?_ each
      rw [arity, ← each.length_eq, not_not.mp count]

theorem decode_yields (h : l.decode labels = .ok item) : l.Yields labels item := by
  unfold decode at h
  split at h
  · next hw => cases h; exact .nothing (.inl hw)
  · next hw => cases h; exact .nothing (.inr (.inl hw))
  · next hw => cases h; exact .nothing (.inr (.inr hw))
  · next hw =>
    split at h
    · cases h; exact .global hw
    · cases h
  · next hw =>
    obtain ⟨values, read, h⟩ := bind_eq_ok.mp h
    obtain rfl := Except.ok.inj h
    exact .bytes hw (mapM_eq_ok_iff.mp read)
  · next hw =>
    obtain ⟨n, read, h⟩ := bind_eq_ok.mp h
    obtain rfl := Except.ok.inj h
    exact .zeros hw read
  · next hw => exact instruction_yields h (.inl hw)
  · next hw => exact instruction_yields h (.inr hw)

theorem filterMap_of_forall₂ {α β ε : Type} {f : α → Except ε β} {xs : List α} {ys : List β}
    (h : List.Forall₂ (fun x y => f x = .ok y) xs ys) :
    xs.filterMap (fun x => (f x).toOption) = ys := by
  induction h with
  | nil => rfl
  | cons first _ ih => rw [List.filterMap_cons, first, ih]; rfl

/-- The data of an accepted line is what it asks for, and as much as the first pass counts. -/
theorem Yields.data (h : l.Yields labels item) :
    (item.run?.toList.flatMap DataRun.toBytes) = l.dataBytes ∧ item.dataSize = l.reserved ∧
      l.dataBytes.length = l.reserved := by
  unfold dataBytes reserved
  cases h with
  | nothing h => rcases h with hw | hw | hw <;> simp [hw, Item.run?, Item.dataSize]
  | global hw => simp [hw, Item.run?, Item.dataSize]
  | bytes hw read =>
    simp [hw, filterMap_of_forall₂ read, Item.run?, Item.dataSize, DataRun.toBytes, DataRun.size,
      read.length_eq]
  | zeros hw read => simp [hw, read, Item.run?, Item.dataSize, DataRun.toBytes, DataRun.size]
  | code h => rcases h with hw | hw <;> simp [hw, Item.run?, Item.dataSize]

end SourceLine

theorem Assembler.decodeNext_eq_ok {labels : Labels} {l : SourceLine} {size total : Nat} {item : Item}
    (h : (decodeNext labels l).run size = .ok (item, total)) :
    l.decode labels = .ok item ∧ total = size + item.dataSize ∧ total ≤ Bytes.maxSize := by
  unfold decodeNext at h
  cases decoded : l.decode labels with
  | error e =>
    rw [decoded] at h
    cases h
  | ok found =>
    rw [decoded] at h
    change StateT.run (m := Except ListingError)
      (if Bytes.maxSize < size + found.dataSize then _ else _) size = _ at h
    split at h
    · cases h
    · next fits =>
      cases h
      exact ⟨rfl, rfl, Nat.not_lt.mp fits⟩

theorem Assembler.mapM_decodeNext_eq_ok {labels : Labels} {ls : List SourceLine} {size total : Nat}
    {items : List Item} (h : (ls.mapM (decodeNext labels)).run size = .ok (items, total))
    (small : size ≤ Bytes.maxSize) :
    List.Forall₂ (fun l item => l.decode labels = .ok item) ls items ∧
      total = size + (items.map Item.dataSize).sum ∧ total ≤ Bytes.maxSize := by
  induction ls generalizing size items with
  | nil =>
    cases h
    exact ⟨.nil, rfl, small⟩
  | cons l ls ih =>
    rw [List.mapM_cons, StateT.run_bind] at h
    obtain ⟨⟨item, next⟩, first, h⟩ := bind_eq_ok.mp h
    rw [StateT.run_bind] at h
    obtain ⟨⟨rest, last⟩, later, h⟩ := bind_eq_ok.mp h
    cases h
    obtain ⟨decoded, rfl, fits⟩ := decodeNext_eq_ok first
    obtain ⟨each, rfl, fits⟩ := ih later fits
    refine ⟨.cons decoded each, ?_, fits⟩
    rw [List.map_cons, List.sum_cons, Nat.add_assoc]

theorem Assembler.decodeAll_eq_ok {labels : Labels} {ls : List SourceLine} {p : Image}
    (h : decodeAll labels ls = .ok p) :
    ∃ items, List.Forall₂ (SourceLine.Yields labels) ls items ∧
      (items.map Item.dataSize).sum ≤ Bytes.maxSize ∧ link labels items = .ok p := by
  obtain ⟨⟨items, total⟩, decoded, linked⟩ := bind_eq_ok.mp h
  obtain ⟨each, rfl, fits⟩ := mapM_decodeNext_eq_ok decoded (Nat.zero_le _)
  exact ⟨items, each.imp fun l item => SourceLine.decode_yields, by omega, linked⟩

theorem Assembler.link_eq_ok {labels : Labels} {items : List Item} {p : Image}
    (h : link labels items = .ok p) :
    p = ⟨(items.filterMap Item.code?).toArray, items.filterMap Item.run?, labels,
        items.filterMap Item.global?⟩ ∧
      ∀ g ∈ p.globals, ∃ sym, labels.lookup g = some sym := by
  unfold link at h
  simp only at h
  split at h
  · cases h
  · next known =>
    obtain rfl := Except.ok.inj h
    refine ⟨rfl, ?_⟩
    intro g hg
    have found := List.find?_eq_none.mp known g hg
    rw [Bool.not_eq_true, Option.isNone_eq_false_iff] at found
    exact Option.isSome_iff_exists.mp found

end SecondPass

namespace Reader

theorem readParts_line {line fuel : Nat} {s : Bytes} {l : SourceLine}
    (h : readParts line fuel s = .ok l) : l.line = line := by
  induction fuel generalizing s l with
  | zero =>
    cases h
    rfl
  | succ fuel ih =>
    unfold readParts at h
    split at h
    · cases h
      rfl
    · split at h
      · split at h
        · split at h
          · next rest hrest =>
            cases h
            exact (ih hrest : rest.line = line)
          · cases h
        · cases h
      · cases h
        rfl

theorem mapM_readLine_lines {raws : List Bytes} {k : Nat} {ls : List SourceLine}
    (h : List.Forall₂ (fun raw l => readLine raw.1 (raw.2 + 1) = .ok l) (raws.zipIdx k) ls) :
    ls.map SourceLine.line = List.range' (k + 1) ls.length := by
  induction raws generalizing k ls with
  | nil =>
    cases h
    rfl
  | cons raw raws ih =>
    rw [List.zipIdx_cons] at h
    obtain ⟨l, rest, first, later, rfl⟩ := List.forall₂_cons_left_iff.mp h
    rw [List.map_cons, readParts_line first, ih later, List.length_cons, List.range'_succ]

/-- The lines of a text are numbered from one. -/
theorem readLines_lines {text : Bytes} {ls : List SourceLine} (h : readLines text = .ok ls) :
    ls.map SourceLine.line = List.range' 1 ls.length :=
  mapM_readLine_lines (mapM_eq_ok_iff.mp h)

end Reader

/-- The place of a label on line `l` behind the lines `before`, counted in what was assembled. -/
def Image.placeOf (p : Image) (before : List SourceLine) (l : SourceLine) : Symbol :=
  match before.foldl SourceLine.partAfter .text with
  | .text => ⟨.text, p.text.toList.countP fun c => c.line < (l.line : Int)⟩
  | .data => ⟨.data, (before.flatMap SourceLine.dataBytes).length⟩

def Image.sizeOf (p : Image) : Section → Nat
  | .text => p.text.size
  | .data => p.data.length

/-- Instruction `c` comes from line `l`: it has the line's number, its word as mnemonic, and its operands
read one by one, as many as the mnemonic takes. -/
structure CodeLine.ComesFrom (c : CodeLine) (l : SourceLine) : Prop where
  line : c.line = l.line
  mnemonic : c.instr.mnemonic = Mnemonic.ofName l.word
  accepted : c.instr.mnemonic ∈ Mnemonic.all
  arity : c.instr.mnemonic.arity? = some c.instr.operands.length
  operands : List.Forall₂ (fun text op => Reader.readOperand text l.line = .ok op) l.operands
    c.instr.operands

section Decoded
variable {labels : Labels} {ls : List SourceLine} {items : List Item}

theorem SourceLine.operand_eq_ok {l : SourceLine} {text : Bytes} {op : Operand}
    (h : l.operand labels text = .ok op) : Reader.readOperand text l.line = .ok op ∧
      (op.symbol ≠ [] → ∃ sym, labels.lookup op.symbol = some sym) := by
  unfold operand at h
  split at h
  · cases h
  · next found read =>
    split at h
    · cases h
    · next fine =>
      obtain rfl := Except.ok.inj h
      refine ⟨read, ?_⟩
      intro named
      exact Option.ne_none_iff_exists'.mp fun missing => fine ⟨named, missing⟩

theorem SourceLine.Yields.comesFrom {l : SourceLine} {c : CodeLine}
    (h : l.Yields labels (.code c)) : c.ComesFrom l ∧ ∀ op ∈ c.instr.operands, op.symbol ≠ [] →
      ∃ sym, labels.lookup op.symbol = some sym := by
  cases h with
  | code hw arity read =>
    refine ⟨⟨rfl, rfl, Mnemonic.mem_all arity, arity,
      read.imp fun text op h => (operand_eq_ok h).1⟩, ?_⟩
    intro op hop
    obtain ⟨text, -, h⟩ := exists_mem_of_forall₂ read hop
    exact (operand_eq_ok h).2

theorem exists_yields_code (h : List.Forall₂ (SourceLine.Yields labels) ls items) {c : CodeLine}
    (hc : c ∈ items.filterMap Item.code?) : ∃ l ∈ ls, l.Yields labels (.code c) := by
  obtain ⟨item, hi, found⟩ := List.mem_filterMap.mp hc
  cases item with
  | code d =>
    cases found
    exact exists_mem_of_forall₂ h hi
  | nothing | data _ | global _ => cases found

/-- The instructions of an image are those that lines of its listing decode to, whatever labels the
assembler knows already. -/
theorem Assembler.readable_of_assemble {known : Labels} {text : Bytes} {p : Image}
    (h : (Assembler.assemble known text).2 = .ok p) : ∀ c ∈ p.text, c.instr.Readable := by
  unfold Assembler.assemble at h
  split at h
  · cases h
  · split at h
    · cases h
    · obtain ⟨items, yields, -, linked⟩ := Assembler.decodeAll_eq_ok h
      obtain ⟨rfl, -⟩ := Assembler.link_eq_ok linked
      intro c hc
      obtain ⟨l, -, yield⟩ := exists_yields_code yields (Array.mem_toList_iff.mpr hc)
      have comes := yield.comesFrom.1
      refine ⟨comes.arity, ?_⟩
      intro op hop
      obtain ⟨s, -, read⟩ := exists_mem_of_forall₂ comes.operands hop
      exact Reader.isReadable_of_readOperand read

theorem data_of_yields (h : List.Forall₂ (SourceLine.Yields labels) ls items) :
    (items.filterMap Item.run?).flatMap DataRun.toBytes = ls.flatMap SourceLine.dataBytes := by
  induction h with
  | nil => rfl
  | @cons l item _ _ first _ ih =>
    rw [List.flatMap_cons, ← first.data.1, ← ih, ← List.flatMap_append]
    cases hr : item.run? <;> simp [hr]

theorem sizes_of_yields (h : List.Forall₂ (SourceLine.Yields labels) ls items) :
    items.map Item.dataSize = ls.map SourceLine.reserved ∧
      ∀ l ∈ ls, l.dataBytes.length = l.reserved := by
  induction h with
  | nil => simp
  | cons first _ ih =>
    refine ⟨?_, List.forall_mem_cons.mpr ⟨first.data.2.2, ih.2⟩⟩
    rw [List.map_cons, List.map_cons, first.data.2.1, ih.1]

theorem text_of_yields (h : List.Forall₂ (SourceLine.Yields labels) ls items)
    (known : ∀ l ∈ ls, Directive.ofWord l.word ≠ .unknown) :
    List.Forall₂ CodeLine.ComesFrom (items.filterMap Item.code?)
      (ls.filter SourceLine.isInstruction) := by
  induction h with
  | nil => exact .nil
  | cons first _ ih =>
    obtain ⟨here, later⟩ := List.forall_mem_cons.mp known
    have rest := ih later
    cases first with
    | nothing h =>
      rcases h with hw | hw | hw <;>
        simpa [List.filterMap_cons, Item.code?, SourceLine.isInstruction, hw] using rest
    | global hw | bytes hw | zeros hw =>
      simpa [List.filterMap_cons, Item.code?, SourceLine.isInstruction, hw] using rest
    | code h arity read =>
      have hw := h.resolve_left here
      have code := (SourceLine.Yields.code (.inr hw) arity read).comesFrom.1
      simpa [List.filterMap_cons, Item.code?, SourceLine.isInstruction, hw] using ⟨code, rest⟩

end Decoded

/-- What an image has to do with the lines that it was assembled from. -/
structure Image.AgreesWith (p : Image) (ls : List SourceLine) : Prop where
  /-- Every label stands in one place only. -/
  once : (ls.flatMap SourceLine.labels).Nodup
  labels : ∀ name sym, p.lookup? name = some sym ↔
    ∃ before l after, ls = before ++ l :: after ∧ name ∈ l.labels ∧ sym = p.placeOf before l
  bounded : ∀ name sym, p.lookup? name = some sym → 0 ≤ sym.addr ∧ sym.addr ≤ p.sizeOf sym.part
  data : p.data = ls.flatMap SourceLine.dataBytes
  text : List.Forall₂ CodeLine.ComesFrom p.text.toList (ls.filter SourceLine.isInstruction)
  increasing : p.text.toList.Pairwise fun c d => c.line < d.line
  symbols : ∀ c ∈ p.text.toList, ∀ op ∈ c.instr.operands, op.symbol ≠ [] →
    ∃ sym, p.lookup? op.symbol = some sym
  globals : ∀ g ∈ p.globals, ∃ sym, p.lookup? g = some sym

section Agree
variable {p : Image} {labels : Labels} {ls before after : List SourceLine} {l : SourceLine}

theorem lines_of_comesFrom {code : List CodeLine} {ls : List SourceLine}
    (h : List.Forall₂ CodeLine.ComesFrom code ls) :
    code.map CodeLine.line = ls.map fun l => (l.line : Int) := by
  induction h with
  | nil => rfl
  | cons first _ ih => rw [List.map_cons, List.map_cons, first.line, ih]

theorem sorted_of_lines (h : ls.map SourceLine.line = List.range' 1 ls.length) :
    ls.Pairwise fun a b => a.line < b.line := by
  rw [← List.pairwise_map (f := SourceLine.line) (R := (· < ·)), h]
  exact List.pairwise_lt_range'

theorem increasing_of_comesFrom {code : List CodeLine}
    (sorted : ls.Pairwise fun a b => a.line < b.line)
    (text : List.Forall₂ CodeLine.ComesFrom code (ls.filter SourceLine.isInstruction)) :
    code.Pairwise fun c d => c.line < d.line := by
  have filtered := sorted.sublist (List.filter_sublist (p := SourceLine.isInstruction))
  rw [← List.pairwise_map (f := CodeLine.line) (R := (· < ·)), lines_of_comesFrom text,
    List.pairwise_map]
  exact filtered.imp Int.ofNat_lt.mpr

/-- Lines have increasing numbers, so those with a lower number than a line are those before it. -/
theorem countP_before {code : List CodeLine} (sorted : ls.Pairwise fun a b => a.line < b.line)
    (text : List.Forall₂ CodeLine.ComesFrom code (ls.filter SourceLine.isInstruction))
    (split : ls = before ++ l :: after) :
    code.countP (fun c => c.line < (l.line : Int)) = before.countP SourceLine.isInstruction := by
  subst split
  obtain ⟨-, rest, earlier⟩ := List.pairwise_append.mp sorted
  have later := (List.pairwise_cons.mp rest).1
  have lower : ∀ b ∈ before, b.line < l.line := by
    intro b hb
    exact earlier b hb l List.mem_cons_self
  calc code.countP (fun c => c.line < (l.line : Int))
      = (code.map CodeLine.line).countP (fun n => n < (l.line : Int)) := by
        rw [List.countP_map]
        rfl
    _ = (before ++ l :: after).countP (fun a => decide (a.line < l.line) && a.isInstruction) := by
        rw [lines_of_comesFrom text, List.countP_map, List.countP_filter]
        simp
    _ = before.countP (fun a => decide (a.line < l.line) && a.isInstruction) := by
        rw [List.countP_append, Nat.add_eq_left, List.countP_eq_zero]
        intro a ha
        rcases List.mem_cons.mp ha with rfl | ha
        · simp
        · simp [Nat.lt_asymm (later a ha)]
    _ = before.countP SourceLine.isInstruction := by
        apply List.countP_congr
        intro b hb
        simp [lower b hb]

theorem sum_reserved_eq (each : ∀ l ∈ ls, l.dataBytes.length = l.reserved) :
    (ls.flatMap SourceLine.dataBytes).length = (ls.map SourceLine.reserved).sum := by
  rw [List.length_flatMap]
  exact congrArg List.sum (List.map_congr_left each)

/-- The data stays small enough for the counter of the first pass not to wrap. -/
theorem Placement.through_start_data (small : (ls.map SourceLine.reserved).sum ≤ Bytes.maxSize)
    (each : ∀ l ∈ ls, l.dataBytes.length = l.reserved) :
    ((Placement.start labels).through ls).dataSize.toInt =
      (ls.flatMap SourceLine.dataBytes).length := by
  have bound : Bytes.maxSize < 2 ^ 63 := by decide
  rw [through_dataSize, sum_reserved_eq each]
  change (0 + Int64.ofNat _).toInt = _
  rw [Int64.zero_add, Int64.toInt_ofNat_of_lt (by omega)]

theorem Placement.through_start_here (sorted : ls.Pairwise fun a b => a.line < b.line)
    (text : List.Forall₂ CodeLine.ComesFrom p.text.toList (ls.filter SourceLine.isInstruction))
    (small : (ls.map SourceLine.reserved).sum ≤ Bytes.maxSize)
    (each : ∀ l ∈ ls, l.dataBytes.length = l.reserved) (split : ls = before ++ l :: after) :
    ((Placement.start labels).through before).here = p.placeOf before l := by
  have part : ((Placement.start labels).through before).part =
      before.foldl SourceLine.partAfter .text := through_part _ before
  unfold here Image.placeOf
  rw [part]
  cases before.foldl SourceLine.partAfter .text with
  | text => simp [countP_before sorted text split, through_textSize, start]
  | data =>
    subst split
    rw [List.map_append, List.sum_append] at small
    have sizes : ∀ b ∈ before, b.dataBytes.length = b.reserved := by
      intro b hb
      exact each b (List.mem_append_left _ hb)
    simp only [through_start_data (by omega) sizes]

theorem Image.placeOf_bounds (data : p.data = ls.flatMap SourceLine.dataBytes)
    (split : ls = before ++ l :: after) :
    0 ≤ (p.placeOf before l).addr ∧ (p.placeOf before l).addr ≤ p.sizeOf (p.placeOf before l).part := by
  unfold placeOf
  split
  · have count := List.countP_le_length (p := fun c : CodeLine => c.line < (l.line : Int))
      (l := p.text.toList)
    rw [Array.length_toList] at count
    simp only [sizeOf]
    omega
  · simp only [sizeOf, data, split, List.flatMap_append, List.length_append]
    omega

/-- The fields of the image, put together from what either pass gives. -/
theorem Image.agreesWith_of_passes {items : List Item}
    (lines : ls.map SourceLine.line = List.range' 1 ls.length)
    (labels : p.labels = ((Placement.start []).through ls).labels)
    (distinct : (p.labels.map Prod.fst).Nodup)
    (known : ∀ l ∈ ls, Directive.ofWord l.word ≠ .unknown)
    (yields : List.Forall₂ (SourceLine.Yields p.labels) ls items)
    (small : (items.map Item.dataSize).sum ≤ Bytes.maxSize)
    (code : p.text.toList = items.filterMap Item.code?) (runs : p.runs = items.filterMap Item.run?)
    (globals : ∀ g ∈ p.globals, ∃ sym, p.lookup? g = some sym) : p.AgreesWith ls := by
  obtain ⟨sizes, each⟩ := sizes_of_yields yields
  rw [sizes] at small
  have sorted := sorted_of_lines lines
  have text : List.Forall₂ CodeLine.ComesFrom p.text.toList (ls.filter SourceLine.isInstruction) := by
    rw [code]
    exact text_of_yields yields known
  have data : p.data = ls.flatMap SourceLine.dataBytes := by
    rw [Image.data, runs]
    exact data_of_yields yields
  have placed : ∀ name sym, p.lookup? name = some sym ↔
      ∃ before l after, ls = before ++ l :: after ∧ name ∈ l.labels ∧ sym = p.placeOf before l := by
    intro name sym
    rw [lookup?, lookup_eq_some_iff_mem distinct, labels, Placement.mem_through_labels]
    simp only [Placement.start, List.not_mem_nil, false_or]
    constructor
    · rintro ⟨before, l, after, split, hm, rfl⟩
      exact ⟨before, l, after, split, hm, Placement.through_start_here sorted text small each split⟩
    · rintro ⟨before, l, after, split, hm, rfl⟩
      exact ⟨before, l, after, split, hm,
        (Placement.through_start_here sorted text small each split).symm⟩
  refine ⟨?_, placed, ?_, data, text, ?_, ?_, globals⟩
  · rw [labels, Placement.map_fst_through, Placement.start, List.map_nil, List.append_nil] at distinct
    exact (List.reverse_perm _).nodup_iff.mp distinct
  · intro name sym found
    obtain ⟨before, l, after, split, -, rfl⟩ := (placed name sym).mp found
    exact placeOf_bounds data split
  · exact increasing_of_comesFrom sorted text
  · intro c hc
    rw [code] at hc
    obtain ⟨l, -, yield⟩ := exists_yields_code yields hc
    exact yield.comesFrom.2

theorem Image.agreesWith_of_assemble {text : Bytes} (h : assemble text = .ok p) :
    ∃ ls, Reader.readLines text = .ok ls ∧ p.AgreesWith ls := by
  unfold assemble Assembler.assemble at h
  split at h
  · cases h
  · next ls read =>
    split at h
    · cases h
    · next q placed =>
      obtain ⟨rfl, distinct, known⟩ := Assembler.placeAll_eq_none placed .nil
      obtain ⟨items, yields, small, linked⟩ := Assembler.decodeAll_eq_ok h
      obtain ⟨rfl, globals⟩ := Assembler.link_eq_ok linked
      exact ⟨ls, read, agreesWith_of_passes (Reader.readLines_lines read) rfl distinct known yields
        small rfl rfl globals⟩

end Agree

/-- The two passes agree: whatever listing is accepted, its image is the one that its lines, numbered
from one, describe. -/
theorem assemble_passes_agree {text : Bytes} {p : Image} (h : assemble text = .ok p) :
    ∃ ls, Reader.readLines text = .ok ls ∧ ls.map SourceLine.line = List.range' 1 ls.length ∧
      p.AgreesWith ls := by
  obtain ⟨ls, read, agrees⟩ := Image.agreesWith_of_assemble h
  exact ⟨ls, read, Reader.readLines_lines read, agrees⟩

/-- Zeros asked for in the text section, two labels on a line, and a line that changes the section behind
its own label. -/
def mixedListing : Bytes := bytes
  "start: main: nop\n.zero 3\nmid: .data\na: .byte 1, 0x2\n.text\nlast:\n jmp mid # back\n.globl main\n.data\nb:"

def mixedImage : Image where
  text := #[⟨1, .nop, []⟩, ⟨7, .jump .always, [.target (bytes "mid")]⟩]
  runs := [.zeros 3, .bytes [1, 2]]
  labels := [(bytes "b", ⟨.data, 5⟩), (bytes "last", ⟨.text, 1⟩), (bytes "a", ⟨.data, 3⟩),
    (bytes "mid", ⟨.text, 1⟩), (bytes "main", ⟨.text, 0⟩), (bytes "start", ⟨.text, 0⟩)]
  globals := [bytes "main"]

theorem mixedListing_agrees : assemble mixedListing = .ok mixedImage ∧
    ∃ ls, Reader.readLines mixedListing = .ok ls ∧
      ls.map SourceLine.line = List.range' 1 ls.length ∧ mixedImage.AgreesWith ls := by
  have accepted : assemble mixedListing = .ok mixedImage := by decide +kernel
  exact ⟨accepted, assemble_passes_agree accepted⟩

end PrintLang
