import PrintLang.Proofs.Listing.Passes
import PrintLang.Proofs.Machine.Runs

set_option autoImplicit false

namespace PrintLang

def Line.isText : Line → Bool
  | .label _ => true
  | .code _ => true
  | _ => false

theorem Line.isInstruction_source {l : Line} (regular : l.Regular) (text : l.isText = true) (k : Nat) :
    (l.source k).isInstruction = l.instr?.isSome := by
  cases l with
  | label name => rfl
  | code i =>
    have word := Mnemonic.directive_name (Mnemonic.mem_all (Instr.Regular.arity regular))
    simp [SourceLine.isInstruction, source, instr?, word]
  | _ => cases text

theorem Line.partAfter_source {l : Line} (regular : l.Regular) (text : l.isText = true) (k : Nat)
    (part : Section) : (l.source k).partAfter part = part := by
  cases l with
  | label name => rfl
  | code i =>
    have word := Mnemonic.directive_name (Mnemonic.mem_all (Instr.Regular.arity regular))
    simp [SourceLine.partAfter, source, word]
  | _ => cases text

theorem Line.instr_of_yields {l : Line} (regular : l.Regular) (text : l.isText = true) {k : Nat}
    {labels : Labels} {item : Item} (h : (l.source k).Yields labels item) :
    item.code?.map CodeLine.instr = l.instr? := by
  cases l with
  | label name =>
    cases h with
    | nothing => rfl
    | code hw => rcases hw with hw | hw <;> cases hw
    | global hw | bytes hw | zeros hw => cases hw
  | code i =>
    have known := Mnemonic.mem_all (Instr.Regular.arity regular)
    have word : Directive.ofWord (Line.source k (.code i)).word = .instruction :=
      Mnemonic.directive_name known
    cases h with
    | nothing hw => simp [word] at hw
    | global hw | bytes hw | zeros hw => simp [word] at hw
    | @code ops hw arity read =>
      -- every operand is read back as it was written
      have same : i.operands = ops := by
        have read' : List.Forall₂ (fun op op' => op = op') i.operands ops := by
          rw [source, List.forall₂_map_left_iff] at read
          refine (List.forall₂_iff_zip.mpr ⟨read.length_eq, fun {op op'} hmem => ?_⟩)
          have readable := (Instr.Regular.readable regular).readable op (List.of_mem_zip hmem).1
          have found := (SourceLine.operand_eq_ok ((List.forall₂_iff_zip.mp read).2 hmem)).1
          exact Except.ok.inj ((Reader.readOperand_render readable k).symm.trans found)
        exact List.forall₂_eq_eq_eq ▸ read'
      simp only [Item.code?, Option.map_some, instr?, source, Mnemonic.ofName_name known, ← same]
  | _ => cases text

theorem Line.code_of_yields {i : Instr} (regular : i.Regular) {k : Nat} {labels : Labels} {item : Item}
    (h : (Line.source k (.code i)).Yields labels item) : item = .code ⟨k, i⟩ := by
  have same := Line.instr_of_yields (l := .code i) regular rfl h
  cases item with
  | code c =>
    have number : c.line = k := h.comesFrom.1.line
    obtain rfl := Option.some.inj same
    rw [← number]
  | nothing | data _ | global _ => cases same

namespace Listing
variable {ls xs ys : Listing} {k : Nat}

theorem sources_append (k : Nat) (xs ys : Listing) :
    sources k (xs ++ ys) = sources k xs ++ sources (k + xs.length) ys := by
  induction xs generalizing k with
  | nil => rfl
  | cons l xs ih =>
    rw [List.cons_append, sources, sources, ih, List.length_cons, List.cons_append,
      show k + 1 + xs.length = k + (xs.length + 1) by omega]

theorem countP_sources (regular : ∀ l ∈ ls, l.Regular) (text : ∀ l ∈ ls, l.isText = true) :
    (sources k ls).countP SourceLine.isInstruction = (ls.filterMap Line.instr?).length := by
  induction ls generalizing k with
  | nil => rfl
  | cons l ls ih =>
    have first := Line.isInstruction_source (regular l List.mem_cons_self) (text l List.mem_cons_self) k
    rw [sources, List.countP_cons, ih (fun x hx => regular x (List.mem_cons_of_mem l hx))
      (fun x hx => text x (List.mem_cons_of_mem l hx)), first, List.filterMap_cons]
    cases l.instr? <;> simp

theorem partAfter_sources (regular : ∀ l ∈ ls, l.Regular) (text : ∀ l ∈ ls, l.isText = true)
    (part : Section) : (sources k ls).foldl SourceLine.partAfter part = part := by
  induction ls generalizing k with
  | nil => rfl
  | cons l ls ih =>
    rw [sources, List.foldl_cons, Line.partAfter_source (regular l List.mem_cons_self)
      (text l List.mem_cons_self), ih (fun x hx => regular x (List.mem_cons_of_mem l hx))
      (fun x hx => text x (List.mem_cons_of_mem l hx))]

theorem instrs_of_yields (regular : ∀ l ∈ ls, l.Regular) (text : ∀ l ∈ ls, l.isText = true)
    {labels : Labels} {items : List Item}
    (h : List.Forall₂ (SourceLine.Yields labels) (sources k ls) items) :
    (items.filterMap Item.code?).map CodeLine.instr = ls.filterMap Line.instr? := by
  induction ls generalizing k items with
  | nil =>
    cases h
    rfl
  | cons l ls ih =>
    obtain ⟨item, rest, first, later, rfl⟩ := List.forall₂_cons_left_iff.mp h
    have here := Line.instr_of_yields (regular l List.mem_cons_self) (text l List.mem_cons_self) first
    rw [List.filterMap_cons, List.filterMap_cons, ← here, ← ih
      (fun x hx => regular x (List.mem_cons_of_mem l hx))
      (fun x hx => text x (List.mem_cons_of_mem l hx)) later]
    cases item.code? <;> rfl

theorem codes_of_yields {is : List Instr} (regular : ∀ i ∈ is, i.Regular) {labels : Labels}
    {items : List Item}
    (h : List.Forall₂ (SourceLine.Yields labels) (sources k (is.map Line.code)) items) :
    items.filterMap Item.code? = (is.zipIdx k).map fun x => ⟨x.2, x.1⟩ := by
  induction is generalizing k items with
  | nil =>
    cases h
    rfl
  | cons i is ih =>
    obtain ⟨item, rest, first, later, rfl⟩ := List.forall₂_cons_left_iff.mp h
    obtain rfl := Line.code_of_yields (regular i List.mem_cons_self) first
    rw [List.filterMap_cons, Item.code?, ih (fun x hx => regular x (List.mem_cons_of_mem i hx)) later,
      List.zipIdx_cons, List.map_cons]

end Listing

/-- Lines that stand in a text are read to themselves, with what is around them on either side. -/
theorem Reader.readLines_excerpt {ls : Listing} (regular : ∀ l ∈ ls, l.Regular) {text : Bytes}
    {all : List SourceLine} (read : readLines text = .ok all) {above below : List Bytes}
    (split : Bytes.splitOn 10 text = above ++ ls.map Line.render ++ below) :
    ∃ before after, all = before ++ (Listing.sources (above.length + 1) ls ++ after) := by
  have each := mapM_eq_ok_iff.mp read
  rw [split, List.append_assoc, List.zipIdx_append, List.zipIdx_append, Nat.zero_add] at each
  obtain ⟨before, rest, rfl, -, each⟩ := exists_append_of_forall₂ each
  obtain ⟨middle, after, rfl, each, -⟩ := exists_append_of_forall₂ each
  have same := (mapM_eq_ok_iff.mpr each).symm.trans (mapM_readLine regular above.length)
  exact ⟨before, after, by rw [Except.ok.inj same]⟩

theorem Bytes.length_splitOn_le (sep : UInt8) (s : Bytes) : (splitOn sep s).length ≤ s.length + 1 := by
  induction s with
  | nil => simp [splitOn]
  | cons b rest ih =>
    rw [splitOn]
    split
    · simpa using ih
    · split
      · simp
      · next split =>
        rw [split] at ih
        simp only [List.length_cons] at ih ⊢
        omega

theorem Assembler.part_of_instruction {p q : Placement} {before after : List SourceLine}
    {l : SourceLine} (h : placeAll p (before ++ l :: after) = (q, none))
    (distinct : (p.labels.map Prod.fst).Nodup) (code : l.isInstruction = true) :
    (p.through before).part = .text := by
  induction before generalizing p with
  | nil =>
    rw [List.nil_append, placeAll] at h
    split at h
    · cases h
    · next r placed =>
      unfold SourceLine.place at placed
      split at placed
      · cases placed
      · next d defined =>
        obtain ⟨rfl, -⟩ := Placement.define_eq_none defined distinct
        have word : Directive.ofWord l.word = .instruction := by simpa [SourceLine.isInstruction] using code
        simp only [SourceLine.advance, word] at placed
        split at placed
        · next part => exact part
        · cases placed
  | cons b before ih =>
    rw [List.cons_append, placeAll] at h
    split at h
    · cases h
    · next r placed =>
      obtain ⟨-, rfl, nodup⟩ := SourceLine.place_eq_none placed distinct
      exact ih h nodup

section Accepted
variable {known : Labels} {text : Bytes} {p : Image}

/-- What both passes say of the lines of a listing, for whatever labels were known before. -/
theorem Assembler.assemble_eq_ok (distinct : (known.map Prod.fst).Nodup)
    (h : (Assembler.assemble known text).2 = .ok p) :
    ∃ all items, Reader.readLines text = .ok all ∧
      (∃ q, placeAll (.start known) all = (q, none)) ∧
      p.labels = ((Placement.start known).through all).labels ∧ (p.labels.map Prod.fst).Nodup ∧
      (∀ l ∈ all, Directive.ofWord l.word ≠ .unknown) ∧
      List.Forall₂ (SourceLine.Yields p.labels) all items ∧
      p.text.toList = items.filterMap Item.code? := by
  unfold Assembler.assemble at h
  split at h
  · cases h
  · next all read =>
    split at h
    · cases h
    · next q placed =>
      obtain ⟨rfl, nodup, words⟩ := placeAll_eq_none placed distinct
      obtain ⟨items, yields, -, linked⟩ := decodeAll_eq_ok h
      obtain ⟨rfl, -⟩ := link_eq_ok linked
      exact ⟨all, items, read, ⟨_, placed⟩, rfl, nodup, words, yields, rfl⟩

/-- A text has no more instructions than lines. -/
theorem Image.size_le_of_assemble (distinct : (known.map Prod.fst).Nodup)
    (h : (Assembler.assemble known text).2 = .ok p) : p.text.size ≤ text.length + 1 := by
  obtain ⟨all, items, read, -, -, -, words, yields, code⟩ := Assembler.assemble_eq_ok distinct h
  have lines := (mapM_eq_ok_iff.mp read).length_eq
  rw [List.length_zipIdx] at lines
  calc p.text.size = (items.filterMap Item.code?).length := by rw [← code, Array.length_toList]
    _ = (all.filter SourceLine.isInstruction).length := (text_of_yields yields words).length_eq
    _ ≤ all.length := List.length_filter_le _ _
    _ ≤ text.length + 1 := lines ▸ Bytes.length_splitOn_le 10 text

/-- Code in an accepted listing stands in its image, at some instruction `b`. -/
theorem Image.holds_excerpt (distinct : (known.map Prod.fst).Nodup)
    (h : (Assembler.assemble known text).2 = .ok p) {ls : Listing}
    (found : ls.map Line.render <:+: Bytes.splitOn 10 text) (regular : ∀ l ∈ ls, l.Regular)
    (isText : ∀ l ∈ ls, l.isText = true) {i : Instr} (some : Line.code i ∈ ls) :
    ∃ b, p.Holds b (ls.filterMap Line.instr?) ∧ ∀ xs name ys, ls = xs ++ .label name :: ys →
      p.lookup? name = Option.some ⟨.text, (b + (xs.filterMap Line.instr?).length : Nat)⟩ := by
  obtain ⟨all, items, read, ⟨q, placed⟩, labels, nodup, words, yields, code⟩ :=
    Assembler.assemble_eq_ok distinct h
  obtain ⟨linesAbove, linesBelow, split⟩ := found
  obtain ⟨before, after, rfl⟩ := Reader.readLines_excerpt regular read split.symm
  generalize linesAbove.length + 1 = k at placed yields labels words
  obtain ⟨above, rest, rfl, yieldsAbove, yields⟩ := exists_append_of_forall₂ yields
  obtain ⟨middle, below, rfl, yieldsHere, -⟩ := exists_append_of_forall₂ yields
  have instrs := Listing.instrs_of_yields regular isText yieldsHere
  have size : ((above.filterMap Item.code?).map CodeLine.instr).length =
      before.countP SourceLine.isInstruction := by
    rw [List.length_map, List.countP_eq_length_filter]
    exact (text_of_yields yieldsAbove fun l hl => words l (List.mem_append_left _ hl)).length_eq
  -- the section in force at an instruction is the text, and the lines do not change it
  have part : ((Placement.start known).through before).part = .text := by
    obtain ⟨xs, ys, rfl⟩ := List.append_of_mem some
    have regular' : ∀ l ∈ xs, l.Regular := fun l hl => regular l (List.mem_append_left _ hl)
    have isText' : ∀ l ∈ xs, l.isText = true := fun l hl => isText l (List.mem_append_left _ hl)
    have isCode := Line.isInstruction_source (regular _ some) (isText _ some) (k + xs.length)
    rw [Listing.sources_append, Listing.sources, List.append_assoc, ← List.append_assoc] at placed
    have here := Assembler.part_of_instruction placed distinct isCode
    rw [Placement.through_part] at here ⊢
    rwa [List.foldl_append, Listing.partAfter_sources regular' isText'] at here
  refine ⟨before.countP SourceLine.isInstruction, ?_, ?_⟩
  · rw [← size]
    refine Image.holds_of_instrs _
      (?_ : _ = _ ++ (_ ++ (below.filterMap Item.code?).map CodeLine.instr))
    rw [code, List.filterMap_append, List.filterMap_append, List.map_append, List.map_append, instrs]
  · rintro xs name ys rfl
    have regular' : ∀ l ∈ xs, l.Regular := fun l hl => regular l (List.mem_append_left _ hl)
    have isText' : ∀ l ∈ xs, l.isText = true := fun l hl => isText l (List.mem_append_left _ hl)
    rw [lookup?, lookup_eq_some_iff_mem nodup, labels, Placement.mem_through_labels]
    refine .inr ⟨before ++ Listing.sources k xs, Line.source (k + xs.length) (.label name),
      Listing.sources (k + xs.length + 1) ys ++ after, ?_, List.mem_singleton_self _, ?_⟩
    · rw [Listing.sources_append, Listing.sources]
      simp only [List.append_assoc, List.cons_append]
    · have partHere : ((Placement.start known).through (before ++ Listing.sources k xs)).part = .text := by
        rw [Placement.through_part] at part ⊢
        rwa [List.foldl_append, Listing.partAfter_sources regular' isText']
      rw [Placement.here, partHere, Placement.through_textSize, List.countP_append,
        Listing.countP_sources regular' isText']
      simp [Placement.start]

/-- The instructions of a text have increasing line numbers. -/
theorem Image.line_injective (distinct : (known.map Prod.fst).Nodup)
    (h : (Assembler.assemble known text).2 = .ok p) {x y : Nat} {c d : CodeLine}
    (hc : p.text[x]? = some c) (hd : p.text[y]? = some d) (same : c.line = d.line) : x = y := by
  obtain ⟨all, items, read, -, -, -, words, yields, code⟩ := Assembler.assemble_eq_ok distinct h
  have increasing := increasing_of_comesFrom (sorted_of_lines (Reader.readLines_lines read))
    (text_of_yields yields words)
  rw [← code] at increasing
  rw [← Array.getElem?_toList] at hc hd
  obtain ⟨hx, rfl⟩ := List.getElem?_eq_some_iff.mp hc
  obtain ⟨hy, rfl⟩ := List.getElem?_eq_some_iff.mp hd
  have ordered := List.pairwise_iff_getElem.mp increasing
  rcases Nat.lt_trichotomy x y with below | rfl | above
  · have := ordered x y hx hy below
    omega
  · rfl
  · have := ordered y x hy hx above
    omega

/-- Instructions that stand in a row in an accepted listing stand in a row in its image, each with the
number of its line. -/
theorem Image.exists_numbered (distinct : (known.map Prod.fst).Nodup)
    (h : (Assembler.assemble known text).2 = .ok p) {is : List Instr} {above below : List Bytes}
    (split : Bytes.splitOn 10 text = above ++ is.map (fun i => (Line.code i).render) ++ below)
    (regular : ∀ i ∈ is, i.Regular) :
    ∃ b : Nat, ∀ k i, is[k]? = some i → p.text[b + k]? = some ⟨(above.length + 1 + k : Nat), i⟩ := by
  obtain ⟨all, items, read, -, -, -, -, yields, code⟩ := Assembler.assemble_eq_ok distinct h
  have lines : is.map (fun i => (Line.code i).render) = (is.map Line.code).map Line.render := by
    rw [List.map_map]
    rfl
  rw [lines] at split
  obtain ⟨before, after, rfl⟩ := Reader.readLines_excerpt
    (fun l hl => by obtain ⟨i, hi, rfl⟩ := List.mem_map.mp hl; exact regular i hi) read split
  obtain ⟨first, rest, rfl, -, yields⟩ := exists_append_of_forall₂ yields
  obtain ⟨middle, last, rfl, yields, -⟩ := exists_append_of_forall₂ yields
  rw [List.filterMap_append, List.filterMap_append, Listing.codes_of_yields regular yields] at code
  refine ⟨(first.filterMap Item.code?).length, fun k i hi => ?_⟩
  have inside : k < is.length := (List.getElem?_eq_some_iff.mp hi).choose
  rw [← Array.getElem?_toList, code, List.getElem?_append_right (by omega), Nat.add_sub_cancel_left,
    List.getElem?_append_left (by simpa using inside), List.getElem?_map, List.getElem?_zipIdx, hi]
  rfl

end Accepted

end PrintLang
