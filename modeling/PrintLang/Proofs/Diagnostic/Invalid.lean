import Mathlib.Data.List.Forall2
import PrintLang.Compile
import PrintLang.Proofs.Bytes.Line
import PrintLang.Proofs.Bytes.Quoted
import PrintLang.Proofs.Token.Partition

set_option autoImplicit false

namespace PrintLang

theorem Defect.newline_not_mem_reason (d : Defect) : 10 ∉ d.reason := by
  cases d <;> decide

theorem InvalidToken.newline_not_mem_message {t : InvalidToken} (h : 10 ∉ t.reason) :
    10 ∉ t.message := by
  simp only [message, List.mem_append, not_or]
  exact ⟨⟨⟨by decide, h⟩, by decide⟩, newline_not_mem_quoted _⟩

namespace LexicalError
variable {e : LexicalError} {t : InvalidToken}

/-- The line about a token; in a report there is a label before the message. -/
def line (e : LexicalError) (label : Bytes) (t : InvalidToken) : Bytes :=
  e.position t ++ bytes ": " ++ label ++ t.message

theorem message_eq (e : LexicalError) : e.message = Bytes.join [10] (e.tokens.map (e.line [])) := by
  rw [message]
  congr 2
  funext t
  rw [line, List.append_nil]

theorem render_plain (e : LexicalError) :
    e.render false = Bytes.lines (e.tokens.map (e.line (bytes "error: "))) := by
  have colon : bytes ": " = bytes ":" ++ bytes " " := by decide
  have label : bytes "error: " = bytes "error:" ++ bytes " " := by decide
  rw [render, Bytes.lines, List.flatMap_map]
  congr 1
  funext t
  simp only [line, Paint.apply, Bool.false_eq_true, if_false, colon, label,
    List.append_assoc]

theorem newline_not_mem_line {label : Bytes} (file : 10 ∉ e.file) (clear : 10 ∉ label)
    (reason : 10 ∉ t.reason) : 10 ∉ e.line label t := by
  have place := t.loc.newline_not_mem_render
  have position : 10 ∉ e.position t := by
    unfold position
    split
    · exact place
    · simp only [List.mem_append, not_or]
      exact ⟨⟨file, by decide⟩, place⟩
  simp only [line, List.mem_append, not_or]
  exact ⟨⟨⟨position, by decide⟩, clear⟩, InvalidToken.newline_not_mem_message reason⟩

end LexicalError

section Lex
variable (source : Bytes)

theorem lex_newline_not_mem_reason : ∀ t ∈ (lex source).invalid, 10 ∉ t.reason := by
  intro t mem
  obtain ⟨⟨l, i⟩, -, entry⟩ := List.mem_filterMap.mp mem
  obtain ⟨d, -, rfl⟩ := Option.map_eq_some_iff.mp entry
  exact d.newline_not_mem_reason

def Lexed.invalidTokens (l : Lexed) : List Token :=
  l.stream.tokens.toList.filter fun t => t.kind == .invalid

/-- The entries stand for the invalid tokens in order, with the place of the first byte. -/
theorem lex_invalid_loc : (lex source).invalid.map (·.loc) =
    (lex source).invalidTokens.map fun t => .ofOffset source t.start := by
  have entries := congrArg (List.map fun e : Int × Location × Bytes => e.2.1) (lex_invalid_eq source)
  have unindexed : (lex source).invalidTokens =
      ((lex source).stream.tokens.toList.zipIdx.filter fun x => x.1.kind == .invalid).map
        Prod.fst := by
    conv_lhs => rw [Lexed.invalidTokens, ← List.zipIdx_map_fst 0 (lex source).stream.tokens.toList,
      List.filter_map]
    rfl
  have located : (lex source).invalidTokens.map (·.loc) =
      (lex source).invalidTokens.map fun t => .ofOffset source t.start := by
    refine List.map_congr_left fun t mem => lex_located source t ?_
    exact Array.mem_toList_iff.mp (List.mem_filter.mp mem).1
  rw [← located, unindexed, List.map_map]
  rw [List.map_map, List.map_map] at entries
  exact entries

/-- A line for each of these tokens, in order, which names the file and the place of the token. -/
def LinesAbout (file source : Bytes) (tokens : List Token) (lines : List Bytes) : Prop :=
  List.Forall₂ (fun t line =>
    file ++ bytes ":" ++ (Location.ofOffset source t.start).render ++ bytes ": " <+: line) tokens lines

theorem lex_linesAbout {file : Bytes} (named : file ≠ []) (label : Bytes) :
    LinesAbout file source (lex source).invalidTokens
      ((lex source).invalid.map (LexicalError.line ⟨file, (lex source).invalid⟩ label)) := by
  have located := lex_invalid_loc source
  rw [← List.forall₂_eq_eq_eq, List.forall₂_map_left_iff, List.forall₂_map_right_iff] at located
  rw [LinesAbout, List.forall₂_map_right_iff]
  refine located.flip.imp fun t e same => ?_
  have place : LexicalError.position ⟨file, (lex source).invalid⟩ e =
      file ++ bytes ":" ++ (Location.ofOffset source t.start).render := by
    rw [LexicalError.position, if_neg named, ← same]
  rw [LexicalError.line, place, List.append_assoc _ label]
  exact List.prefix_append _ _

end Lex

/-- A source with invalid tokens is refused, and both the message and the report about it are cut at
their newlines into one line for each invalid token, whatever is in the tokens. -/
theorem lexical_error_line_per_token (file source : Bytes) (target : Target) (named : file ≠ [])
    (newline : 10 ∉ file) (invalid : (lex source).invalidTokens ≠ []) :
    ∃ e : LexicalError, compile file source target = .error (.lexical e) ∧
      LinesAbout file source (lex source).invalidTokens (Bytes.splitOn 10 e.message) ∧
      ∃ lines, Bytes.splitOn 10 ((CompileError.lexical e).failure.report false) = lines ++ [[]] ∧
        LinesAbout file source (lex source).invalidTokens lines := by
  have some : (lex source).invalid ≠ [] := by
    intro none
    have located := lex_invalid_loc source
    rw [none] at located
    exact invalid (List.map_eq_nil_iff.mp located.symm)
  have clear {label : Bytes} (h : 10 ∉ label) : ∀ line ∈ (lex source).invalid.map
      (LexicalError.line ⟨file, (lex source).invalid⟩ label), 10 ∉ line := by
    refine List.forall_mem_map.mpr fun t mem => ?_
    exact LexicalError.newline_not_mem_line newline h (lex_newline_not_mem_reason source t mem)
  refine ⟨⟨file, (lex source).invalid⟩, ?_, ?_, _, ?_, lex_linesAbout source named (bytes "error: ")⟩
  · rw [compile]
    exact if_pos some
  · rw [LexicalError.message_eq, Bytes.splitOn_join (mt List.map_eq_nil_iff.mp some)
      (clear List.not_mem_nil)]
    exact lex_linesAbout source named []
  · have report : (CompileError.lexical ⟨file, (lex source).invalid⟩).failure.report false =
        LexicalError.render ⟨file, (lex source).invalid⟩ false := List.flatMap_singleton ..
    rw [report, LexicalError.render_plain, Bytes.splitOn_lines (clear (by decide))]

/-- A stray byte, and a string that stays open over a newline and is cut short within a character. -/
theorem open_string_line_per_token :
    let file := bytes "a.kt"
    let source := bytes "\n @\t\"\"\"\n0123456789a" ++ [0xc3, 0xa4, 10]
    file ≠ [] ∧ 10 ∉ file ∧ (lex source).invalidTokens.map (·.start) = [2, 4] ∧
    ∃ e : LexicalError, compile file source .linux = .error (.lexical e) ∧
      LinesAbout file source (lex source).invalidTokens (Bytes.splitOn 10 e.message) ∧
      (Bytes.splitOn 10 e.message).length = 2 := by
  intro file source
  have named : file ≠ [] := by decide
  have newline : 10 ∉ file := by decide
  have starts : (lex source).invalidTokens.map (·.start) = [2, 4] := by decide +kernel
  have invalid : (lex source).invalidTokens ≠ [] := by
    intro none
    rw [none] at starts
    cases starts
  obtain ⟨e, refused, lines, -⟩ :=
    lexical_error_line_per_token file source .linux named newline invalid
  refine ⟨named, newline, starts, e, refused, lines, ?_⟩
  rw [← lines.length_eq, ← List.length_map, starts]
  rfl

end PrintLang
