import PrintLang.Proofs.Lowering.Correct
import PrintLang.Proofs.Program.Grammar

set_option autoImplicit false

namespace PrintLang
open Lowering

theorem Grammatical.tokens_ne_invalid {source : Bytes} {ts : TokenStream} {phrases : List Phrase}
    (h : Grammatical source ts.significant phrases) : ∀ t ∈ ts.tokens, t.kind ≠ .invalid := by
  intro t ht invalid
  obtain ⟨k, found⟩ := List.mem_iff_getElem?.mp (Array.mem_toList_iff.mpr ht)
  have mem : (t, k) ∈ ts.significant := by
    refine List.mem_filter.mpr ⟨List.mk_mem_zipIdx_iff_getElem?.mpr found, ?_⟩
    simp [invalid]
  obtain ⟨e, eof, split⟩ := h.split
  rw [split, List.mem_append, List.mem_flatMap, List.mem_singleton] at mem
  obtain ⟨p, hp, inPhrase⟩ | rfl := mem
  · have shaped := h.shaped p hp
    have kinds : ∀ x ∈ p.tokens, x.1.kind ≠ .invalid := by
      have literal : p.argument.1.kind ≠ .invalid := fun same =>
        absurd (same ▸ shaped.argument) (by decide)
      simp [Phrase.tokens, shaped.keyword, shaped.opening, shaped.closing, literal]
    exact kinds _ inPhrase invalid
  · rw [invalid] at eof
    cases eof

section Phrases

variable {source file : Bytes} {phrases : List Phrase}

def Phrase.value (source : Bytes) (p : Phrase) : Nat :=
  Literal.integerValue (p.argument.1.text source)

/-- The expression that statement `k` prints when the phrase is its `k`-th. -/
def Phrase.expr (source : Bytes) (x : Phrase × Nat) : Expr :=
  .int (2 * x.2) (Int64.ofInt (x.1.value source))

theorem Phrase.Shaped.value_lt {p : Phrase} (h : p.Shaped source)
    (integer : p.argument.1.kind = .integer) : p.value source < 2 ^ 63 := by
  have fits := h.fits integer
  unfold Literal.IntegerFits at fits
  unfold Phrase.value
  split at fits <;> omega

theorem Expr.values_phrases {xs : List (Phrase × Nat)} :
    Expr.values (xs.map (Phrase.expr source)) =
      xs.map fun x => Int64.ofInt (x.1.value source) := by
  induction xs with
  | nil => rfl
  | cons x xs ih =>
    rw [List.map_cons, List.map_cons, ← ih]
    rfl

theorem printedText_phrases {xs : List (Phrase × Nat)}
    (small : ∀ x ∈ xs, x.1.value source < 2 ^ 63) :
    printedText (Expr.values (xs.map (Phrase.expr source))) =
      (xs.map Prod.fst).flatMap fun p => decimalNat (p.value source) ++ [10] := by
  rw [Expr.values_phrases, printedText, List.flatMap_map, List.flatMap_map]
  refine List.flatMap_congr fun x hx => ?_
  rw [Literal.toInt_ofInt_natCast (small x hx)]
  rfl

theorem Expr.steps_phrases {xs : List (Phrase × Nat)}
    (small : ∀ x ∈ xs, x.1.value source < 2 ^ 63) :
    Expr.steps (xs.map (Phrase.expr source)) =
      3 + ((xs.map Prod.fst).map fun p => 23 + 7 * (decimalNat (p.value source)).length).sum := by
  induction xs with
  | nil => rfl
  | cons x xs ih =>
    obtain ⟨first, rest⟩ := List.forall_mem_cons.mp small
    have one : printIntSteps (Int64.ofInt (x.1.value source)).toInt =
        21 + 7 * (decimalNat (x.1.value source)).length := by
      rw [Literal.toInt_ofInt_natCast first, printIntSteps, minus_of_nonneg (by omega)]
      rfl
    have here : Expr.steps ((x :: xs).map (Phrase.expr source)) = 1 + 1 +
        printIntSteps (Int64.ofInt (x.1.value source)).toInt +
        Expr.steps (xs.map (Phrase.expr source)) := rfl
    rw [here, one, ih rest, List.map_cons, List.map_cons, List.sum_cons]
    omega

theorem Store.Represents.stmts_eq {s : Store} (h : s.Represents source phrases) :
    s.stmts.toList = phrases.zipIdx.map fun x => ((2 * x.2 + 1 : Nat) : Int) := by
  rw [h.stmts, List.range_eq_range', ← List.zipIdx_map_snd, List.map_map]
  rfl

theorem Store.Represents.objects_eq_nil {s : Store} (h : s.Represents source phrases)
    (integers : ∀ p ∈ phrases, p.argument.1.kind = .integer) : s.objects.toList = [] := by
  have objects := h.objects
  have none : (phrases.filter fun p => p.argument.1.kind == .string) = [] := by
    rw [List.filter_eq_nil_iff]
    intro p hp
    rw [integers p hp]
    decide
  rw [none] at objects
  exact List.forall₂_nil_right_iff.mp objects

theorem Grammatical.keyword_token {ts : TokenStream} (h : Grammatical source ts.significant phrases)
    {p : Phrase} (hp : p ∈ phrases) :
    atIndex? ts.tokens (p.keyword.2 : Int) = some p.keyword.1 := by
  obtain ⟨e, -, split⟩ := h.split
  have mem : p.keyword ∈ ts.significant := by
    rw [split]
    exact List.mem_append_left _ (List.mem_flatMap.mpr ⟨p, hp, List.mem_cons_self⟩)
  have found := List.mem_zipIdx_iff_getElem?.mp (List.mem_filter.mp mem).1
  rwa [Array.getElem?_toList] at found

section Statement

variable {ts : TokenStream} {s : Store} {x : Phrase × Nat}

theorem Store.expr?_integer {i : Nat} {n : Node} {v : Int64} (found : s.nodes[i]? = some n)
    (shape : n.shape = .intLit v) : s.expr? i = some (.int i v) := by
  unfold expr?
  rw [found]
  simp only [shape]

theorem prints_phrase (h : Grammatical source ts.significant phrases)
    (store : s.Represents source phrases) (hx : x ∈ phrases.zipIdx)
    (integer : x.1.argument.1.kind = .integer) :
    Prints ⟨file, ts, s⟩ ((2 * x.2 + 1 : Nat) : Int)
      (file ++ bytes ":" ++ x.1.keyword.1.loc.render, Phrase.expr source x) := by
  have found := List.mem_zipIdx_iff_getElem?.mp hx
  obtain ⟨l, object, reads, literal, -⟩ := store.literal found
  obtain ⟨node, -⟩ := store.println found
  obtain ⟨v, shape, value⟩ := reads.shape_integer integer object
  have same : v = Int64.ofInt (x.1.value source) := by
    rw [Phrase.value, ← value, Int64.ofInt_toInt]
  refine ⟨_, _, _, node, rfl, h.keyword_token (List.fst_mem_of_mem_zipIdx hx), ?_, rfl, rfl⟩
  rw [Int.toNat_natCast, Store.expr?_integer literal shape, same]
  rfl

end Statement

end Phrases

section Compile

variable {file source : Bytes} {t : Target} {phrases : List Phrase} {sts : List Statement}

section Grammatical

variable (h : Grammatical source (lex source).stream.significant phrases)
    (means : List.Forall₂ (Phrase.Means source) phrases sts)
include h means

theorem compile_eq_ok {listing : Listing}
    (generated : generate ⟨file, (lex source).stream, .ofStatements sts⟩ t = .ok listing) :
    compile file source t = .ok (⟨file, (lex source).stream, .ofStatements sts⟩, listing) := by
  have nil := (lex_invalid_eq_nil source).mpr h.tokens_ne_invalid
  rw [compile]
  simp only [nil, ne_eq, not_true_eq_false, if_false, h.parse_eq means, generated]

end Grammatical

def phraseStatements (file source : Bytes) (phrases : List Phrase) : List (Bytes × Expr) :=
  phrases.zipIdx.map fun x =>
    (file ++ bytes ":" ++ x.1.keyword.1.loc.render, Phrase.expr source x)

theorem snd_phraseStatements : (phraseStatements file source phrases).map Prod.snd =
    phrases.zipIdx.map (Phrase.expr source) := by
  rw [phraseStatements, List.map_map]
  rfl

theorem generate_phrases (file : Bytes)
    (h : Grammatical source (lex source).stream.significant phrases) {s : Store}
    (store : s.Represents source phrases) (valid : t.fault? = none)
    (integers : ∀ p ∈ phrases, p.argument.1.kind = .integer) :
    generate ⟨file, (lex source).stream, s⟩ t =
        .ok (programLines [] t (phraseStatements file source phrases)) ∧
      (10 ∉ file → ∀ x ∈ phraseStatements file source phrases, 10 ∉ x.1) := by
  have prints : ∀ x ∈ phrases.zipIdx, Prints ⟨file, (lex source).stream, s⟩
      ((2 * x.2 + 1 : Nat) : Int)
      (file ++ bytes ":" ++ x.1.keyword.1.loc.render, Phrase.expr source x) := fun x hx =>
    prints_phrase h store hx (integers x.1 (List.fst_mem_of_mem_zipIdx hx))
  constructor
  · have all : List.Forall₂ (Prints ⟨file, (lex source).stream, s⟩) s.stmts.toList
        (phraseStatements file source phrases) := by
      rw [store.stmts_eq, phraseStatements, List.forall₂_map_left_iff, List.forall₂_map_right_iff,
        List.forall₂_same]
      exact prints
    have generated := generate_eq (p := ⟨file, (lex source).stream, s⟩) valid all
    rwa [store.objects_eq_nil integers] at generated
  · intro newline
    exact List.forall_mem_map.mpr fun x hx => newline_not_mem_place newline (prints x hx)

end Compile

theorem length_printlnCode_le_steps {es : List Expr} (h : ∀ e ∈ es, e.value?.isSome) :
    (es.flatMap printlnCode).length ≤ Expr.steps es := by
  induction es with
  | nil => exact Nat.zero_le _
  | cons e es ih =>
    obtain ⟨first, rest⟩ := List.forall_mem_cons.mp h
    obtain ⟨v, hv⟩ := Option.isSome_iff_exists.mp first
    have := ih rest
    rw [List.flatMap_cons, List.length_append, printlnCode, List.length_append, Expr.steps, hv]
    simp only [printIntSteps, List.length_cons, List.length_nil]
    omega

theorem fault?_of_preset {t : Target} (h : t = .linux ∨ t = .darwin) : t.fault? = none := by
  obtain rfl | rfl := h <;> decide

theorem named_nil_of_preset {t : Target} (h : t = .linux ∨ t = .darwin) : Named [] t := by
  obtain rfl | rfl := h <;>
    exact ⟨by simp, by simp, by decide, by decide, by simp⟩

theorem Machine.load_of_dataSize_zero {image : Image} (h : image.dataSize = 0) :
    ∃ m, Machine.load image = .ok m ∧ m.maxSteps = defaultMaxSteps := by
  rw [load, h, if_neg (by decide)]
  exact ⟨_, rfl, rfl⟩

theorem runSource_prints {file source : Bytes} {t : Target} {phrases : List Phrase}
    (newline : 10 ∉ file) (preset : t = .linux ∨ t = .darwin)
    (h : Grammatical source (lex source).stream.significant phrases)
    (integers : ∀ p ∈ phrases, p.argument.1.kind = .integer)
    (limit : 6 + (phrases.map fun p => 23 + 7 * (decimalNat (p.value source)).length).sum ≤
      10000000) :
    (runSource file source t false).status = .ok 0 ∧ (runSource file source t false).stdout =
      phrases.flatMap fun p => decimalNat (p.value source) ++ [10] := by
  obtain ⟨sts, means⟩ := h.exists_statements
  have store := (Store.records_ofStatements sts).represents means
  have valid := fault?_of_preset preset
  obtain ⟨generated, places⟩ := generate_phrases file h store valid integers
  have compiled := compile_eq_ok h means generated
  have small : ∀ x ∈ phrases.zipIdx, x.1.value source < 2 ^ 63 := by
    intro x hx
    have hp := List.fst_mem_of_mem_zipIdx hx
    exact (h.shaped x.1 hp).value_lt (integers x.1 hp)
  have steps := Expr.steps_phrases small
  rw [List.zipIdx_map_fst] at steps
  have values : ∀ e ∈ phrases.zipIdx.map (Phrase.expr source), e.value?.isSome :=
    List.forall_mem_map.mpr fun x _ => rfl
  -- No statement has more instructions than steps, so the limit bounds the text as well.
  have code := length_printlnCode_le_steps values
  have base : textBase = 2 ^ 30 := by decide
  obtain ⟨image, assembled, lowered, size⟩ := assemble_programLines (named_nil_of_preset preset)
    (places newline) (Nat.zero_le _) (by rw [snd_phraseStatements]; omega)
  rw [snd_phraseStatements] at lowered
  obtain ⟨m, loaded, limited⟩ := Machine.load_of_dataSize_zero size
  have stack : ∀ e ∈ phrases.zipIdx.map (Phrase.expr source),
      dataBase + 8 + t.stackSize + max (8 * e.pending) 37 ≤ memSize := by
    refine List.forall_mem_map.mpr fun x _ => ?_
    change dataBase + 8 + t.stackSize + max (8 * 0 : Nat) 37 ≤ memSize
    obtain rfl | rfl := preset <;> decide
  have calls : t.syscalls.write ≠ t.syscalls.exit := by obtain rfl | rfl := preset <;> decide
  obtain ⟨u, stop, run, printed⟩ := Machine.run_loaded lowered
    (List.forall_mem_map.mpr fun x _ => trivial) calls (Target.stackSize_nonneg valid) stack loaded
    (by omega) m.maxSteps (by intro _; rw [limited, defaultMaxSteps]; omega)
  obtain ⟨rfl, -, code, -⟩ := printed.exits values
  have result : runSource file source t false = ⟨u.out.toList, .ok u.exitCode⟩ := by
    have whole : Machine.run image t.entry { m with syscalls := t.syscalls } = (u, none) := run
    rw [runSource, compiled]
    simp only [assembled, loaded, Bool.false_eq_true, if_false, whole]
  rw [result, code, printed.out, printedText_phrases small, List.zipIdx_map_fst]
  exact ⟨rfl, rfl⟩

def commentedSource : Bytes := bytes "println(007L) // x\nprintln(42)"

def commentedPhrases : List Phrase :=
  [⟨(⟨.kwPrintln, 0, 7, ⟨1, 1⟩⟩, 0), (⟨.lparen, 7, 8, ⟨1, 8⟩⟩, 1), (⟨.integer, 8, 12, ⟨1, 9⟩⟩, 2),
      (⟨.rparen, 12, 13, ⟨1, 13⟩⟩, 3)⟩,
    ⟨(⟨.kwPrintln, 19, 26, ⟨2, 1⟩⟩, 5), (⟨.lparen, 26, 27, ⟨2, 8⟩⟩, 6),
      (⟨.integer, 27, 29, ⟨2, 9⟩⟩, 7), (⟨.rparen, 29, 30, ⟨2, 11⟩⟩, 8)⟩]

theorem grammatical_commentedSource :
    Grammatical commentedSource (lex commentedSource).stream.significant commentedPhrases := by
  refine ⟨by decide, ⟨(⟨.eof, 30, 30, ⟨2, 12⟩⟩, 9), rfl, by decide +kernel⟩, ?_⟩
  refine List.forall_mem_cons.mpr ⟨?_, List.forall_mem_singleton.mpr ?_⟩
  · exact ⟨rfl, rfl, by decide, fun _ => by decide +kernel, rfl⟩
  · exact ⟨rfl, rfl, by decide, fun _ => by decide +kernel, rfl⟩

end PrintLang
