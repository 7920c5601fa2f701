import PrintLang.Proofs.Listing.Passes

/-!
# One assembler for several listings

The table of labels is one for all listings that an assembler reads, and it keeps what a refused listing
has put into it. Still no label is ever defined twice: a listing only adds names that are new, so what has
been found once is found with the same answer after whatever else is read.
-/

set_option autoImplicit false

namespace PrintLang

/-- The names, all new and each once, are added on top of a table in this order. -/
structure Labels.Gains (before : Labels) (names : List Bytes) (after : Labels) : Prop where
  added : ∃ entries, after = entries ++ before ∧ entries.map Prod.fst = names.reverse
  distinct : names.Nodup
  fresh : ∀ name ∈ names, before.lookup name = none

namespace Labels.Gains
variable {a b c : Labels} {xs ys : List Bytes}

theorem refl (a : Labels) : Gains a [] a := ⟨⟨[], rfl, rfl⟩, .nil, by simp⟩

theorem single (p : Placement) {name : Bytes} (h : p.labels.lookup name = none) :
    Gains p.labels [name] ((name, p.here) :: p.labels) :=
  ⟨⟨[(name, p.here)], rfl, rfl⟩, by simp, by simpa using h⟩

theorem names_eq (h : Gains a xs b) : b.map Prod.fst = xs.reverse ++ a.map Prod.fst := by
  obtain ⟨entries, rfl, names⟩ := h.added
  rw [List.map_append, names]

theorem lookup_eq_none (h : Gains a xs b) {name : Bytes} :
    b.lookup name = none ↔ name ∉ xs ∧ a.lookup name = none := by
  rw [lookup_eq_none_iff_not_mem, lookup_eq_none_iff_not_mem, h.names_eq, List.mem_append,
    List.mem_reverse, not_or]

theorem lookup_eq_some (h : Gains a xs b) {name : Bytes} {sym : Symbol}
    (found : a.lookup name = some sym) : b.lookup name = some sym := by
  have old : name ∉ xs := by
    intro hm
    rw [h.fresh name hm] at found
    cases found
  obtain ⟨entries, rfl, names⟩ := h.added
  have absent : entries.lookup name = none := by
    rw [lookup_eq_none_iff_not_mem, names, List.mem_reverse]
    exact old
  rw [List.lookup_append, absent, Option.none_or, found]

theorem nodup (h : Gains a xs b) (distinct : (a.map Prod.fst).Nodup) : (b.map Prod.fst).Nodup := by
  rw [h.names_eq, List.nodup_append]
  refine ⟨(List.reverse_perm xs).nodup_iff.mpr h.distinct, distinct, ?_⟩
  rintro name hx _ ha rfl
  exact lookup_eq_none_iff_not_mem.mp (h.fresh name (List.mem_reverse.mp hx)) ha

theorem trans (h : Gains a xs b) (h' : Gains b ys c) : Gains a (xs ++ ys) c := by
  have fresh : ∀ name ∈ ys, name ∉ xs ∧ a.lookup name = none := by
    intro name hm
    exact h.lookup_eq_none.mp (h'.fresh name hm)
  refine ⟨?_, ?_, ?_⟩
  · obtain ⟨first, rfl, names⟩ := h.added
    obtain ⟨later, rfl, names'⟩ := h'.added
    refine ⟨later ++ first, (List.append_assoc later first a).symm, ?_⟩
    rw [List.map_append, names, names', List.reverse_append]
  · rw [List.nodup_append]
    refine ⟨h.distinct, h'.distinct, ?_⟩
    rintro name hx _ hy rfl
    exact (fresh name hy).1 hx
  · intro name hm
    rcases List.mem_append.mp hm with hm | hm
    · exact h.fresh name hm
    · exact (fresh name hm).2

end Labels.Gains

/-- The names are added up to some point: all of them, unless the pass over their lines is stopped. -/
def Labels.GainsUntil (before : Labels) (names : List Bytes) (stop : Option ListingError)
    (after : Labels) : Prop :=
  ∃ xs, Gains before xs after ∧ xs <+: names ∧ (stop = none → xs = names)

theorem Labels.GainsUntil.append {a b c : Labels} {xs ys : List Bytes} {stop : Option ListingError}
    (h : GainsUntil a xs none b) (h' : GainsUntil b ys stop c) : GainsUntil a (xs ++ ys) stop c := by
  obtain ⟨_, first, -, all⟩ := h
  obtain rfl := all rfl
  obtain ⟨zs, later, upTo, all'⟩ := h'
  exact ⟨_, first.trans later, (List.prefix_append_right_inj _).mpr upTo,
    fun none => congrArg _ (all' none)⟩

theorem Labels.GainsUntil.stopped {a b : Labels} {xs : List Bytes} {e : ListingError}
    (h : GainsUntil a xs (some e) b) (ys : List Bytes) : GainsUntil a (xs ++ ys) (some e) b := by
  obtain ⟨zs, gains, upTo, -⟩ := h
  exact ⟨zs, gains, upTo.trans (List.prefix_append xs ys), nofun⟩

section Gained
variable {p : Placement}

theorem Placement.define_gains (line : Nat) (names : List Bytes) :
    Labels.GainsUntil p.labels names (p.define line names).2 (p.define line names).1.labels := by
  induction names generalizing p with
  | nil => exact ⟨[], .refl _, List.nil_prefix, fun _ => rfl⟩
  | cons name names ih =>
    rw [define]
    cases known : p.labels.lookup name with
    | some sym => exact ⟨[], .refl _, List.nil_prefix, by simp⟩
    | none =>
      have first : Labels.GainsUntil p.labels [name] none ((name, p.here) :: p.labels) :=
        ⟨[name], .single p known, List.prefix_refl _, fun _ => rfl⟩
      exact first.append (ih (p := { p with labels := (name, p.here) :: p.labels }))

theorem SourceLine.advance_labels (l : SourceLine) (p : Placement) :
    (l.advance p).1.labels = p.labels := by
  unfold advance
  split
  · rfl
  · rfl
  · rfl
  · rfl
  · split <;> rfl
  · split <;> rfl
  · rfl
  · split <;> rfl

theorem SourceLine.place_gains (l : SourceLine) :
    Labels.GainsUntil p.labels l.labels (l.place p).2 (l.place p).1.labels := by
  have gains := Placement.define_gains (p := p) l.line l.labels
  rw [place]
  split
  · next stopped =>
    rw [stopped] at gains
    exact gains
  · next q defined =>
    rw [defined] at gains
    obtain ⟨xs, gains, upTo, all⟩ := gains
    rw [← l.advance_labels q] at gains
    exact ⟨xs, gains, upTo, fun _ => all rfl⟩

theorem Assembler.placeAll_gains (ls : List SourceLine) :
    Labels.GainsUntil p.labels (ls.flatMap SourceLine.labels) (placeAll p ls).2
      (placeAll p ls).1.labels := by
  induction ls generalizing p with
  | nil => exact ⟨[], .refl _, List.nil_prefix, fun _ => rfl⟩
  | cons l ls ih =>
    have here := SourceLine.place_gains (p := p) l
    rw [placeAll, List.flatMap_cons]
    split
    · next stopped =>
      rw [stopped] at here
      exact here.stopped _
    · next q placed =>
      rw [placed] at here
      exact here.append ih

end Gained

def Reader.legibleLines (text : Bytes) : List SourceLine :=
  (Bytes.splitOn 10 text).zipIdx.filterMap fun (raw, i) => (readLine raw (i + 1)).toOption

theorem Reader.legibleLines_of_readLines {text : Bytes} {ls : List SourceLine}
    (h : readLines text = .ok ls) : legibleLines text = ls :=
  SourceLine.filterMap_of_forall₂ (mapM_eq_ok_iff.mp h)

/-- The symbols that the line must find: those of its operands, when it is an instruction, or the one
that it makes global. -/
def SourceLine.refers (l : SourceLine) : List Bytes :=
  let symbols := (l.operands.filterMap fun text => (Reader.readOperand text l.line).toOption).map
    Operand.symbol
  match Directive.ofWord l.word with
  | .global => l.operands
  | .instruction => symbols.filter (· ≠ [])
  | .unknown => symbols.filter (· ≠ [])
  | _ => []

namespace Assembler

def definedIn (text : Bytes) : List Bytes := (Reader.legibleLines text).flatMap SourceLine.labels

def referredIn (text : Bytes) : List Bytes := (Reader.legibleLines text).flatMap SourceLine.refers

/-- What an assembler knows after some more listings, whatever became of them. -/
def known (table : Labels) (texts : List Bytes) : Labels :=
  texts.foldl (fun table text => (assemble table text).1) table

theorem assemble_gains (table : Labels) (text : Bytes) :
    ∃ names, Labels.Gains table names (assemble table text).1 ∧ names <+: definedIn text ∧
      ((∃ p, (assemble table text).2 = .ok p) → names = definedIn text) := by
  unfold assemble
  split
  · exact ⟨[], .refl table, List.nil_prefix, nofun⟩
  · next ls read =>
    have gains := placeAll_gains (p := .start table) ls
    rw [definedIn, Reader.legibleLines_of_readLines read]
    split
    · next stopped =>
      rw [stopped] at gains
      obtain ⟨names, gains, upTo, -⟩ := gains
      exact ⟨names, gains, upTo, nofun⟩
    · next q placed =>
      rw [placed] at gains
      obtain ⟨names, gains, upTo, all⟩ := gains
      exact ⟨names, gains, upTo, fun _ => all rfl⟩

theorem labels_of_assemble {table : Labels} {text : Bytes} {p : Image}
    (h : (assemble table text).2 = .ok p) : p.labels = (assemble table text).1 := by
  unfold assemble at h ⊢
  split at h
  · cases h
  · split at h
    · cases h
    · obtain ⟨items, -, -, linked⟩ := decodeAll_eq_ok h
      obtain ⟨rfl, -⟩ := link_eq_ok linked
      rfl

theorem known_keeps {table : Labels} {name : Bytes} {sym : Symbol}
    (found : table.lookup name = some sym) (texts : List Bytes) :
    (known table texts).lookup name = some sym := by
  induction texts generalizing table with
  | nil => exact found
  | cons text texts ih =>
    obtain ⟨names, gains, -⟩ := assemble_gains table text
    exact ih (gains.lookup_eq_some found)

theorem known_nodup {table : Labels} (distinct : (table.map Prod.fst).Nodup) (texts : List Bytes) :
    ((known table texts).map Prod.fst).Nodup := by
  induction texts generalizing table with
  | nil => exact distinct
  | cons text texts ih =>
    obtain ⟨names, gains, -⟩ := assemble_gains table text
    exact ih (gains.nodup distinct)

end Assembler

section OnTop
variable {table labels : Labels} {l : SourceLine}

def Placement.onTop (p : Placement) (table : Labels) : Placement :=
  { p with labels := p.labels ++ table }

def Image.onTop (p : Image) (table : Labels) : Image := { p with labels := p.labels ++ table }

theorem lookup_onTop (labels : Labels) {name : Bytes} (fresh : table.lookup name = none) :
    (labels ++ table).lookup name = labels.lookup name := by
  rw [List.lookup_append, fresh, Option.or_none]

theorem Placement.define_onTop {names : List Bytes} (fresh : ∀ name ∈ names, table.lookup name = none)
    (p : Placement) (line : Nat) : (p.onTop table).define line names =
      ((p.define line names).1.onTop table, (p.define line names).2) := by
  induction names generalizing p with
  | nil => rfl
  | cons name names ih =>
    obtain ⟨here, rest⟩ := List.forall_mem_cons.mp fresh
    have same : (p.onTop table).labels.lookup name = p.labels.lookup name := lookup_onTop _ here
    rw [define, define, same]
    cases p.labels.lookup name with
    | some sym => rfl
    | none => exact ih rest { p with labels := (name, p.here) :: p.labels }

theorem SourceLine.advance_onTop (l : SourceLine) (p : Placement) :
    l.advance (p.onTop table) = ((l.advance p).1.onTop table, (l.advance p).2) := by
  unfold advance
  have part : (p.onTop table).part = p.part := rfl
  rw [part]
  split
  · rfl
  · rfl
  · rfl
  · rfl
  · split <;> rfl
  · split <;> rfl
  · rfl
  · split <;> rfl

theorem SourceLine.place_onTop (fresh : ∀ name ∈ l.labels, table.lookup name = none)
    (p : Placement) : l.place (p.onTop table) = ((l.place p).1.onTop table, (l.place p).2) := by
  rw [place, place, Placement.define_onTop fresh]
  cases p.define l.line l.labels with
  | mk q stop =>
    cases stop with
    | some e => rfl
    | none => exact l.advance_onTop q

theorem Assembler.placeAll_onTop {ls : List SourceLine}
    (fresh : ∀ name ∈ ls.flatMap SourceLine.labels, table.lookup name = none) (p : Placement) :
    placeAll (p.onTop table) ls = ((placeAll p ls).1.onTop table, (placeAll p ls).2) := by
  induction ls generalizing p with
  | nil => rfl
  | cons l ls ih =>
    rw [List.flatMap_cons, List.forall_mem_append] at fresh
    rw [placeAll, placeAll, SourceLine.place_onTop fresh.1]
    cases l.place p with
    | mk q stop =>
      cases stop with
      | some e => rfl
      | none => exact ih fresh.2 q

theorem SourceLine.operand_onTop {text : Bytes} (fresh : ∀ op, Reader.readOperand text l.line = .ok op →
    op.symbol ≠ [] → table.lookup op.symbol = none) :
    l.operand (labels ++ table) text = l.operand labels text := by
  unfold operand
  split
  · rfl
  · next op read =>
    by_cases named : op.symbol = []
    · simp [named]
    · rw [lookup_onTop labels (fresh op read named)]

theorem SourceLine.instruction_onTop (fresh : ∀ text ∈ l.operands, ∀ op,
    Reader.readOperand text l.line = .ok op → op.symbol ≠ [] → table.lookup op.symbol = none) :
    l.instruction (labels ++ table) = l.instruction labels := by
  have each : l.operands.mapM (l.operand (labels ++ table)) = l.operands.mapM (l.operand labels) := by
    apply mapM_congr_left
    intro text ht
    exact operand_onTop (fresh text ht)
  unfold instruction
  rw [each]

theorem SourceLine.decode_onTop (fresh : ∀ name ∈ l.refers, table.lookup name = none) :
    l.decode (labels ++ table) = l.decode labels := by
  have symbols (word : Directive.ofWord l.word = .instruction ∨ Directive.ofWord l.word = .unknown) :
      ∀ text ∈ l.operands, ∀ op, Reader.readOperand text l.line = .ok op → op.symbol ≠ [] →
        table.lookup op.symbol = none := by
    intro text ht op read named
    apply fresh
    have mem : op.symbol ∈ ((l.operands.filterMap fun text =>
        (Reader.readOperand text l.line).toOption).map Operand.symbol).filter (· ≠ []) := by
      rw [List.mem_filter]
      refine ⟨List.mem_map.mpr ⟨op, List.mem_filterMap.mpr ⟨text, ht, ?_⟩, rfl⟩, by simpa using named⟩
      rw [read]
      rfl
    unfold refers
    rcases word with word | word <;> rw [word] <;> exact mem
  unfold decode
  split
  · rfl
  · rfl
  · rfl
  · rfl
  · rfl
  · rfl
  · next word => exact instruction_onTop (symbols (.inr word))
  · next word => exact instruction_onTop (symbols (.inl word))

theorem SourceLine.refers_of_decode {name : Bytes} (h : l.decode labels = .ok (.global name)) :
    name ∈ l.refers := by
  have yields := decode_yields h
  cases yields with
  | global word =>
    unfold decode at h
    rw [word] at h
    unfold refers
    rw [word]
    simp only at h ⊢
    split at h
    · next other one =>
      cases h
      rw [one]
      exact List.mem_singleton_self name
    · cases h

namespace Assembler

theorem link_onTop (labels : Labels) {items : List Item}
    (fresh : ∀ name ∈ items.filterMap Item.global?, table.lookup name = none) :
    link (labels ++ table) items = (link labels items).map (Image.onTop · table) := by
  have same : (items.filterMap Item.global?).find? (fun g => ((labels ++ table).lookup g).isNone) =
      (items.filterMap Item.global?).find? fun g => (labels.lookup g).isNone := by
    rw [← List.head?_filter, ← List.head?_filter]
    congr 1
    apply List.filter_congr
    intro g hg
    rw [lookup_onTop labels (fresh g hg)]
  unfold link
  simp only [same]
  split <;> rfl

theorem decodeAll_onTop (labels : Labels) {ls : List SourceLine}
    (fresh : ∀ name ∈ ls.flatMap SourceLine.refers, table.lookup name = none) :
    decodeAll (labels ++ table) ls = (decodeAll labels ls).map (Image.onTop · table) := by
  have each : ls.mapM (decodeNext (labels ++ table)) = ls.mapM (decodeNext labels) := by
    apply mapM_congr_left
    intro l hl
    have same : l.decode (labels ++ table) = l.decode labels :=
      SourceLine.decode_onTop fun name hm => fresh name (List.mem_flatMap.mpr ⟨l, hl, hm⟩)
    unfold decodeNext
    rw [same]
  unfold decodeAll
  rw [each]
  cases decoded : (ls.mapM (decodeNext labels)).run 0 with
  | error e => rfl
  | ok r =>
    obtain ⟨items, size⟩ := r
    refine link_onTop labels ?_
    intro name hm
    obtain ⟨item, hi, global⟩ := List.mem_filterMap.mp hm
    obtain ⟨each, -⟩ := mapM_decodeNext_eq_ok decoded (Nat.zero_le _)
    obtain ⟨l, hl, decoded⟩ := exists_mem_of_forall₂ each hi
    cases item with
    | global g =>
      cases global
      exact fresh name (List.mem_flatMap.mpr ⟨l, hl, SourceLine.refers_of_decode decoded⟩)
    | nothing | code _ | data _ => cases global

/-- What a listing means does not depend on labels that it has nothing to do with. -/
theorem assemble_onTop {text : Bytes}
    (labels : ∀ name ∈ definedIn text, table.lookup name = none)
    (symbols : ∀ name ∈ referredIn text, table.lookup name = none) :
    (assemble table text).2 = (assemble [] text).2.map (Image.onTop · table) := by
  unfold assemble
  split
  · rfl
  · next ls read =>
    rw [definedIn, Reader.legibleLines_of_readLines read] at labels
    rw [referredIn, Reader.legibleLines_of_readLines read] at symbols
    have placed : placeAll (.start table) ls =
        ((placeAll (.start []) ls).1.onTop table, (placeAll (.start []) ls).2) :=
      placeAll_onTop labels (.start [])
    rw [placed]
    cases placeAll (.start []) ls with
    | mk q stop =>
      cases stop with
      | some e => rfl
      | none => exact decodeAll_onTop q.labels symbols

/-- How a listing is assembled when the labels of others are known, with more listings to come: `after`
is what is known at last. -/
structure ReadsOn (before : Labels) (text : Bytes) (after : Labels) : Prop where
  /-- No label is known twice. -/
  once : (before.map Prod.fst).Nodup
  kept : ∀ name sym, before.lookup name = some sym →
    (assemble before text).1.lookup name = some sym ∧ after.lookup name = some sym
  gains : ∃ names, Labels.Gains before names (assemble before text).1 ∧ names <+: definedIn text
  refused : (∃ name ∈ definedIn text, before.lookup name ≠ none) ∨ ¬ (definedIn text).Nodup →
    ∃ e, (assemble before text).2 = .error e
  /-- An image finds its labels in the table of the assembler, which later ones grow. -/
  shared : ∀ p, (assemble before text).2 = .ok p → p.labels = (assemble before text).1 ∧
    ∀ name sym, p.lookup? name = some sym → { p with labels := after }.lookup? name = some sym
  alone : (∀ name ∈ definedIn text, before.lookup name = none) →
    (∀ name ∈ referredIn text, before.lookup name = none) →
    (assemble before text).2 = (PrintLang.assemble text).map (Image.onTop · before)

theorem readsOn {before : Labels} (once : (before.map Prod.fst).Nodup) (text : Bytes)
    (later : List Bytes) : ReadsOn before text (known (assemble before text).1 later) := by
  obtain ⟨names, gains, upTo, all⟩ := assemble_gains before text
  refine ⟨once, ?_, ⟨names, gains, upTo⟩, ?_, ?_, assemble_onTop⟩
  · intro name sym found
    exact ⟨gains.lookup_eq_some found, known_keeps (gains.lookup_eq_some found) later⟩
  · intro clash
    cases result : (assemble before text).2 with
    | error e => exact ⟨e, rfl⟩
    | ok p =>
      obtain rfl := all ⟨p, result⟩
      rcases clash with ⟨name, hm, found⟩ | twice
      · exact absurd (gains.fresh name hm) found
      · exact absurd gains.distinct twice
  · intro p accepted
    have labels := labels_of_assemble accepted
    refine ⟨labels, ?_⟩
    intro name sym found
    rw [Image.lookup?, labels] at found
    exact known_keeps found later

end Assembler

end OnTop

/-- A new assembler may read any listings before this one and any after it, accepted or not: this one
redefines nothing, adds its own labels only, and is assembled as if it were alone when it is about names
that are new. -/
theorem reused_assembler_redefines_nothing (earlier : List Bytes) (text : Bytes) (later : List Bytes) :
    Assembler.ReadsOn (Assembler.known [] earlier) text
      (Assembler.known [] (earlier ++ text :: later)) := by
  have split : Assembler.known [] (earlier ++ text :: later) =
      Assembler.known (Assembler.assemble (Assembler.known [] earlier) text).1 later := by
    rw [Assembler.known, List.foldl_append]
    rfl
  have once : (([] : Labels).map Prod.fst).Nodup := List.nodup_nil
  rw [split]
  exact Assembler.readsOn (Assembler.known_nodup once earlier) text later

/-- What refused listings have defined stays, up to the label that is there already. -/
example : Assembler.known [] [bytes "a: nop\na: b:", bytes "c: jmp d", bytes "1:", bytes "e: c: f:"] =
    [(bytes "e", ⟨.text, 0⟩), (bytes "c", ⟨.text, 0⟩), (bytes "a", ⟨.text, 0⟩)] := by
  decide +kernel

end PrintLang
