import PrintLang.Proofs.Compile.FileName
import PrintLang.Proofs.Listing.Passes
import PrintLang.Proofs.Lowering.Image

set_option autoImplicit false

namespace PrintLang
open Lowering

namespace Reader

theorem readParts_labels {line fuel : Nat} {s : Bytes} {l : SourceLine}
    (h : readParts line fuel s = .ok l) : ∀ name ∈ l.labels, isSymbol name = true := by
  induction fuel generalizing s l with
  | zero =>
    cases h
    simp
  | succ fuel ih =>
    unfold readParts at h
    split at h
    · cases h
      simp
    · split at h
      · split at h
        · next symbol =>
          split at h
          · next rest hrest =>
            cases h
            exact List.forall_mem_cons.mpr ⟨symbol, ih hrest⟩
          · cases h
        · cases h
      · cases h
        simp

theorem readLines_labels {text : Bytes} {ls : List SourceLine} (h : readLines text = .ok ls) :
    ∀ l ∈ ls, ∀ name ∈ l.labels, isSymbol name = true := by
  intro l hl
  obtain ⟨raw, -, read⟩ := exists_mem_of_forall₂ (mapM_eq_ok_iff.mp h) hl
  exact readParts_labels read

end Reader

def Line.label? : Line → Option Bytes
  | .label name => some name
  | _ => none

theorem Listing.labels_sources (k : Nat) (ls : Listing) :
    (sources k ls).flatMap SourceLine.labels = ls.filterMap Line.label? := by
  induction ls generalizing k with
  | nil => rfl
  | cons l ls ih =>
    rw [sources, List.flatMap_cons, ih]
    cases l <;> rfl

section Entry
variable {t : Target} {statements : List (Bytes × Expr)}

theorem Lowering.labels_codes (is : List Instr) : (is.map Line.code).filterMap Line.label? = [] := by
  induction is with
  | nil => rfl
  | cons i is ih => exact ih

theorem Lowering.labels_statements (statements : List (Bytes × Expr)) :
    (statements.flatMap fun s => statementLines s.1 s.2).filterMap Line.label? = [] := by
  induction statements with
  | nil => rfl
  | cons s rest ih =>
    rw [List.flatMap_cons, List.filterMap_append, ih, List.append_nil]
    exact labels_codes (printlnCode s.2)

theorem Lowering.programLines_labels (t : Target) (statements : List (Bytes × Expr)) :
    (programLines [] t statements).filterMap Line.label? = routineLabels ++ [t.entry] := by
  simp only [programLines, printIntLines_eq, List.flatMap_nil, List.filterMap_append,
    List.filterMap_cons, Line.label?, labels_codes, labels_statements, List.append_nil,
    List.nil_append, List.filterMap_nil]
  rfl

/-- A label is a symbol and stands once, and a global symbol is a label. So an entry that comes back as
a global symbol has no other choice. -/
theorem Lowering.entry_of_global {image : Image} (places : ∀ s ∈ statements, 10 ∉ s.1)
    (assembled : assemble (Listing.render (programLines [] t statements)) = .ok image)
    (global : t.entry ∈ image.globals) :
    Reader.isSymbol t.entry = true ∧ t.entry ∉ routineLabels := by
  obtain ⟨ls, read, agrees⟩ := Image.agreesWith_of_assemble assembled
  obtain ⟨sym, found⟩ := agrees.globals t.entry global
  obtain ⟨before, l, after, split, here, -⟩ := (agrees.labels t.entry sym).mp found
  have symbol := Reader.readLines_labels read l (by simp [split]) t.entry here
  refine ⟨symbol, ?_⟩
  have regular : ∀ l ∈ programLines [] t statements, l.Regular :=
    programLines_regular (by simp) symbol places
  obtain rfl := Except.ok.inj (read.symm.trans (Listing.readLines_render regular))
  have once := agrees.once
  rw [Listing.labels_sources, List.filterMap_append, programLines_labels, List.append_assoc,
    List.nodup_append] at once
  intro routine
  exact once.2.2 t.entry routine t.entry (by simp) rfl

end Entry

/-- The entry of the target is the only global symbol and stands at the prologue, behind the printing
routine. -/
structure Image.Enters (image : Image) (t : Target) : Prop where
  globals : image.globals = [t.entry]
  label : image.lookup? t.entry = some ⟨.text, (printIntCode t).length⟩
  prologue : image.Holds (printIntCode t).length (prologue t)

/-- For a target that passes its check and a source of integers there is a listing. It is read back with
the entry in its place if and only if the entry is a symbol and no label of the routine, which the check
does not ask. -/
theorem entry_read_back_iff {file source : Bytes} {t : Target} {phrases : List Phrase}
    (valid : t.fault? = none) (newline : 10 ∉ file)
    (h : Grammatical source (lex source).stream.significant phrases)
    (integers : ∀ p ∈ phrases, p.argument.1.kind = .integer) :
    ∃ p listing, parse file (lex source).stream = .ok p ∧ generate p t = .ok listing ∧
      ((∃ image, assemble listing.render = .ok image ∧ image.Enters t) ↔
        Reader.isSymbol t.entry = true ∧ t.entry ∉ [printInt, printIntDigits, printIntWrite]) := by
  obtain ⟨sts, means⟩ := h.exists_statements
  have store := (Store.records_ofStatements sts).represents means
  obtain ⟨generated, places⟩ := generate_phrases file h store valid integers
  refine ⟨_, _, h.parse_eq means, generated, ?_, ?_⟩
  · rintro ⟨image, assembled, enters⟩
    refine entry_of_global (places newline) assembled ?_
    rw [enters.globals]
    exact List.mem_singleton_self _
  · rintro ⟨symbol, notRoutine⟩
    have named : Named [] t := ⟨by simp, by simp, symbol, notRoutine, by simp⟩
    obtain ⟨image, assembled, spells⟩ :=
      spells_programLines named (places newline) (Nat.zero_le _)
    exact ⟨image, assembled, spells.globals, (spells.labels _ _).mpr .entry,
      Image.holds_of_instrs _ spells.text⟩

def dottedEntry : Target := { Target.darwin with entry := bytes ".entry_9", stackSize := 0 }

theorem dottedEntry_read_back : dottedEntry.fault? = none ∧ 10 ∉ bytes "a.kt" ∧
    Grammatical commentedSource (lex commentedSource).stream.significant commentedPhrases ∧
    (∀ p ∈ commentedPhrases, p.argument.1.kind = .integer) ∧
    ∃ p listing image, parse (bytes "a.kt") (lex commentedSource).stream = .ok p ∧
      generate p dottedEntry = .ok listing ∧ assemble listing.render = .ok image ∧
      image.Enters dottedEntry := by
  have valid : dottedEntry.fault? = none := by decide +kernel
  have newline : 10 ∉ bytes "a.kt" := by decide +kernel
  have integers : ∀ p ∈ commentedPhrases, p.argument.1.kind = .integer := by decide
  refine ⟨valid, newline, grammatical_commentedSource, integers, ?_⟩
  obtain ⟨p, listing, parsed, generated, read⟩ :=
    entry_read_back_iff valid newline grammatical_commentedSource integers
  obtain ⟨image, assembled, enters⟩ := read.mpr (by decide +kernel)
  exact ⟨p, listing, image, parsed, generated, assembled, enters⟩

def routineEntry : Target := { Target.linux with entry := printInt }

/-- The check passes an entry with the name of the printing routine; its listing defines the name twice
and is refused. -/
theorem routineEntry_refused :
    routineEntry.fault? = none ∧ 10 ∉ bytes "a.kt" ∧
    Grammatical oneSource (lex oneSource).stream.significant [onePhrase] ∧
    onePhrase.argument.1.kind = .integer ∧
    (runSource (bytes "a.kt") oneSource routineEntry false).status =
      .error (.context (bytes "reading generated listing")
        (.plain none (bytes "duplicate label 'print_int' on line 40"))) :=
  ⟨by decide +kernel, by decide +kernel, grammatical_oneSource, rfl, by decide +kernel⟩

end PrintLang
