import Mathlib.Data.List.DropRight
import PrintLang.Diagnostic.Context
import PrintLang.Proofs.Bytes.Line
import PrintLang.Proofs.Token.Munch

set_option autoImplicit false

namespace PrintLang

theorem newline_not_mem_blankControls {s : Bytes} (h : 10 ∉ s) :
    10 ∉ TokenStream.blankControls s := by
  intro mem
  obtain ⟨b, inside, same⟩ := List.mem_map.mp mem
  split at same
  · cases same
  · exact h (same ▸ inside)

theorem length_blankControls (s : Bytes) : (TokenStream.blankControls s).length = s.length :=
  List.length_map _

theorem Bytes.Cut.loc {s front left right back : Bytes} {i : Nat}
    (h : Cut s i front left right back) :
    Location.ofOffset s i = ⟨1 + (s.take i).count 10, 1 + left.length⟩ := by
  rw [Location.ofOffset, h.take, List.reverse_append, Lexer.takeWhile_cut, List.length_reverse]
  · intro b mem
    rw [bne_iff_ne]
    rintro rfl
    exact h.left (List.mem_reverse.mp mem)
  · intro b hb
    rw [List.head?_reverse] at hb
    rw [h.ends b hb]
    rfl

def Token.firstLine (t : Token) (source : Bytes) : Bytes := (t.text source).takeWhile (· != 10)

namespace TokenStream

def previous? (ts : TokenStream) (i : Nat) : Option Token :=
  if i = 0 then none else ts.tokens[i - 1]?

def shown (ts : TokenStream) (i : Nat) (t : Token) : Bytes :=
  Bytes.slice ts.source (ts.window i t).1 (ts.window i t).2

def trimmed (s : Bytes) : Bytes := Bytes.trimRightBy (fun b => b == 32 || b == 9 || b == 13) s

/-- The lines from the one on which a token starts to the one on which it ends, trimmed. -/
def trailingText (ts : TokenStream) (t : Token) : Bytes :=
  trimmed (Bytes.slice ts.source (ts.lineStart t.start) (ts.lineStop t.stop))

section Line
variable {ts : TokenStream} {front left right back : Bytes} {i : Nat}

theorem lineStart_eq (cut : Bytes.Cut ts.source i front left right back) :
    ts.lineStart i = front.length := by
  rw [lineStart, cut.take]
  obtain rfl | ⟨front, rfl⟩ := cut.ends.eq_nil_or
  · rw [List.nil_append, Bytes.lastIndexOf?_of_not_mem cut.left]
    rfl
  · rw [List.append_assoc, List.singleton_append, Bytes.lastIndexOf?_append cut.left,
      List.length_append]
    rfl

theorem lineStop_eq (cut : Bytes.Cut ts.source i front left right back) :
    ts.lineStop i = i + right.length := by
  rw [lineStop, cut.drop, cut.length]
  cases back with
  | nil => rw [List.append_nil, Bytes.indexOf?_of_not_mem cut.right]; rfl
  | cons b back =>
    obtain rfl : b = 10 := cut.starts b rfl
    rw [Bytes.indexOf?_append cut.right]

end Line

theorem context_of_shown {ts : TokenStream} {i : Nat} {t : Token}
    (visible : ts.previous? i = none ∨ Bytes.isBlank (ts.shown i t) = false) :
    ts.context i t = (blankControls (ts.shown i t), t.start - (ts.window i t).1) := by
  unfold context
  dsimp only
  split
  · next prev before =>
    obtain none | dark := visible
    · cases none.symm.trans before
    · exact if_neg (Bool.eq_false_iff.mp dark)
  · rfl

theorem context_of_blank {ts : TokenStream} {i : Nat} {t prev : Token}
    (before : ts.previous? i = some prev) (blank : Bytes.isBlank (ts.shown i t) = true) :
    ts.context i t = ts.trailingContext prev := by
  unfold context
  dsimp only
  rw [previous?] at before
  rw [before]
  exact if_pos blank

section Lexed
variable {source front left right back : Bytes} {i : Nat} {t : Token}

/-- A window starts and stops on the line of its token, and holds what the line has of the token. -/
structure Frames (ts : TokenStream) (i : Nat) (t : Token) : Prop where
  start_ge : ts.lineStart t.start ≤ (ts.window i t).1
  start_le : (ts.window i t).1 ≤ t.start
  stop_ge : t.start ≤ (ts.window i t).2
  stop_le : (ts.window i t).2 ≤ ts.lineStop t.start
  covers : min t.stop (ts.lineStop t.start) ≤ (ts.window i t).2

theorem lex_frames (found : (lex source).stream.tokens[i]? = some t) :
    (lex source).stream.Frames i t := by
  have bounds := lex_bounds source t (Array.mem_of_getElem? found)
  obtain ⟨front, left, right, back, cut⟩ := Bytes.exists_cut (bounds.1.trans bounds.2)
  have first : (lex source).stream.lineStart t.start ≤ t.start := by
    rw [lineStart_eq cut, ← cut.offset]
    exact Nat.le_add_right _ _
  have last : t.start ≤ (lex source).stream.lineStop t.start := by
    rw [lineStop_eq cut]
    exact Nat.le_add_right _ _
  have start : (lex source).stream.lineStart t.start ≤ ((lex source).stream.window i t).1 ∧
      ((lex source).stream.window i t).1 ≤ t.start := by
    unfold window
    dsimp only
    split
    · next prev before =>
      split at before
      · cases before
      · next later =>
        have earlier := (lex_before before found (by omega)).1
        exact ⟨Nat.le_max_left .., Nat.max_le.mpr ⟨first, Nat.le_of_lt earlier⟩⟩
    · exact ⟨Nat.le_refl _, first⟩
  have stop : ((lex source).stream.window i t).2 ≤ (lex source).stream.lineStop t.start ∧
      min t.stop ((lex source).stream.lineStop t.start) ≤ ((lex source).stream.window i t).2 := by
    unfold window
    dsimp only
    split
    · next next behind =>
      have later := (lex_before found behind (Nat.lt_succ_self i)).2
      have inside := (lex_bounds source next (Array.mem_of_getElem? behind)).1
      refine ⟨Nat.max_le.mpr ⟨Nat.min_le_left .., last⟩,
        (Nat.le_min.mpr ?_).trans (Nat.le_max_left ..)⟩
      exact ⟨Nat.min_le_right .., (Nat.min_le_left ..).trans (later.trans inside)⟩
    · exact ⟨Nat.max_le.mpr ⟨Nat.le_refl _, last⟩, (Nat.min_le_right ..).trans (Nat.le_max_left ..)⟩
  exact ⟨start.1, start.2, Nat.le_max_right .., stop.1, stop.2⟩

end Lexed

section Cut
variable {ts : TokenStream} {front left right back : Bytes} {i : Nat} {t : Token}

theorem firstLine_eq (cut : Bytes.Cut ts.source t.start front left right back) :
    t.firstLine ts.source = right.take (t.stop - t.start) := by
  rw [Token.firstLine, Token.text, Bytes.slice, cut.drop, List.take_append, Lexer.takeWhile_cut]
  · intro b mem
    rw [bne_iff_ne]
    rintro rfl
    exact cut.right (List.mem_of_mem_take mem)
  · intro b mem
    have first : b ∈ back.head? := by
      rw [List.head?_take] at mem
      split at mem
      · cases mem
      · exact mem
    rw [cut.starts b first]
    rfl

/-- What is shown is a piece of the token's line, with the token where the caret says. -/
theorem Frames.exists_split (h : ts.Frames i t)
    (cut : Bytes.Cut ts.source t.start front left right back) :
    ∃ l₁ l₂ r₁ r₂, left = l₁ ++ l₂ ∧ right = r₁ ++ r₂ ∧ ts.shown i t = l₂ ++ r₁ ∧
      t.start - (ts.window i t).1 = l₂.length ∧ t.firstLine ts.source <+: r₁ := by
  have start := h.start_ge
  have stop := h.stop_le
  have covers := h.covers
  rw [lineStart_eq cut] at start
  rw [lineStop_eq cut] at stop covers
  refine ⟨_, left.drop ((ts.window i t).1 - front.length), right.take ((ts.window i t).2 - t.start),
    _, (List.take_append_drop _ left).symm, (List.take_append_drop _ right).symm,
    cut.slice_eq ⟨start, h.start_le⟩ ⟨h.stop_ge, stop⟩, ?_, ?_⟩
  · rw [List.length_drop]
    have := cut.offset
    omega
  · rw [firstLine_eq cut]
    by_cases inside : t.stop ≤ (ts.window i t).2
    · exact List.take_prefix_take_left (by omega)
    · rw [List.take_of_length_le (i := (ts.window i t).2 - t.start) (by omega)]
      exact List.take_prefix _ right

theorem trailingContext_of_trailingText {line : Bytes} (text : ts.trailingText t = front ++ line)
    (ends : Bytes.EndsLine front) (absent : 10 ∉ line) :
    ts.trailingContext t = (blankControls line, line.length) := by
  have last : ts.trailingText t = line ∨ ∃ n,
      Bytes.lastIndexOf? 10 (ts.trailingText t) = some n ∧
        (ts.trailingText t).drop (n + 1) = line := by
    rw [text]
    obtain rfl | ⟨front, rfl⟩ := ends.eq_nil_or
    · exact .inl (List.nil_append _)
    · rw [List.append_assoc, List.singleton_append, Bytes.lastIndexOf?_append absent,
        List.append_cons]
      exact .inr ⟨_, rfl, List.drop_left' List.length_append⟩
  rw [trailingText, trimmed] at last
  obtain same | ⟨n, found, same⟩ := last
  · simp only [trailingContext, same, Bytes.lastIndexOf?_of_not_mem absent]
  · simp only [trailingContext, found, same]

/-- The line on which a token ends is what trails it, whatever lines the token started on. -/
theorem trailingContext_eq (ts : TokenStream) {t : Token} (order : t.start ≤ t.stop)
    (inside : t.stop ≤ ts.source.length) : ∃ line,
      (Bytes.splitOn 10 ts.source)[(ts.source.take t.stop).count 10]? = some line ∧
      ts.trailingContext t = (blankControls (trimmed line), (trimmed line).length) ∧
      10 ∉ trimmed line ∧ (trimmed line).length ≤ ts.source.length := by
  obtain ⟨front, left, right, back, cut⟩ := Bytes.exists_cut (order.trans inside)
  obtain ⟨mid, left', within, ends, noLeft⟩ :=
    Bytes.exists_last_line (left ++ Bytes.slice ts.source t.start t.stop)
  obtain ⟨right', back', behind, noRight, starts⟩ := Bytes.exists_first_line (ts.source.drop t.stop)
  have before : ts.source.take t.stop = front ++ (mid ++ left') := by
    rw [← within, ← List.append_assoc, ← cut.take, Bytes.slice, ← List.take_add]
    congr 1
    omega
  have cut' : Bytes.Cut ts.source t.stop (front ++ mid) left' right' back' := by
    refine ⟨?_, ?_, ?_, noLeft, noRight, starts⟩
    · rw [← behind, ← List.append_assoc, List.append_assoc front, ← before, List.take_append_drop]
    · rw [← List.length_append, List.append_assoc, ← before, List.length_take_of_le inside]
    · exact cut.ends.append ends
  have text : ts.trailingText t = mid ++ trimmed (left' ++ right') := by
    have whole : ts.source = front ++ ((mid ++ (left' ++ right')) ++ back') := by
      rw [cut'.split]
      simp only [List.append_assoc]
    have size : t.stop + right'.length - front.length = (mid ++ (left' ++ right')).length := by
      have := cut'.offset
      simp only [List.length_append] at this ⊢
      omega
    rw [trailingText, lineStart_eq cut, lineStop_eq cut', Bytes.slice, size, whole, List.drop_left,
      List.take_left, trimmed, Bytes.trimRightBy_line (by decide) ends]
    rfl
  have part : trimmed (left' ++ right') <+: left' ++ right' := List.rdropWhile_prefix _ _
  have absent : 10 ∉ trimmed (left' ++ right') := by
    have line : 10 ∉ left' ++ right' := by simp [noLeft, noRight]
    exact fun mem => line (part.subset mem)
  have size : (trimmed (left' ++ right')).length ≤ ts.source.length := by
    have := part.length_le
    have := cut'.length
    have := cut'.offset
    simp only [List.length_append] at *
    omega
  exact ⟨_, cut'.line, trailingContext_of_trailingText text ends absent, absent, size⟩

end Cut

structure OneLine (ts : TokenStream) (c : Bytes × Nat) : Prop where
  newline : 10 ∉ c.1
  caret : c.2 ≤ c.1.length
  length : c.1.length ≤ ts.source.length

/-- Every slice that is taken for the context of a token lies in the text that it is taken from. -/
structure SlicesFit (ts : TokenStream) (i : Nat) (t : Token) : Prop where
  start : t.start ≤ ts.source.length
  stop : t.stop ≤ ts.source.length
  window : (ts.window i t).1 ≤ (ts.window i t).2 ∧ (ts.window i t).2 ≤ ts.source.length
  caret : (ts.window i t).1 ≤ t.start
  lines : ts.lineStart t.start ≤ ts.lineStop t.stop ∧ ts.lineStop t.stop ≤ ts.source.length
  last : ∀ n, Bytes.lastIndexOf? 10 (ts.trailingText t) = some n →
    n + 1 ≤ (ts.trailingText t).length

section Lexed
variable {source : Bytes} {i : Nat} {t : Token}

theorem lineStop_le (ts : TokenStream) {i : Nat} (h : i ≤ ts.source.length) :
    i ≤ ts.lineStop i ∧ ts.lineStop i ≤ ts.source.length := by
  obtain ⟨front, left, right, back, cut⟩ := Bytes.exists_cut h
  rw [lineStop_eq cut, cut.length]
  omega

theorem lex_slicesFit (found : (lex source).stream.tokens[i]? = some t) :
    (lex source).stream.SlicesFit i t := by
  have bounds := lex_bounds source t (Array.mem_of_getElem? found)
  have frames := lex_frames found
  have started := (lex source).stream.lineStop_le (bounds.1.trans bounds.2)
  have stopped := (lex source).stream.lineStop_le bounds.2
  refine ⟨bounds.1.trans bounds.2, bounds.2, ⟨frames.start_le.trans frames.stop_ge,
    frames.stop_le.trans started.2⟩, frames.start_le, ⟨?_, stopped.2⟩, ?_⟩
  · exact frames.start_ge.trans (frames.start_le.trans (bounds.1.trans stopped.1))
  · exact fun n last => Bytes.lt_of_lastIndexOf? last

theorem lex_oneLine_trailing (found : (lex source).stream.tokens[i]? = some t) :
    (lex source).stream.OneLine ((lex source).stream.trailingContext t) := by
  have bounds := lex_bounds source t (Array.mem_of_getElem? found)
  obtain ⟨line, -, trailing, newline, size⟩ :=
    (lex source).stream.trailingContext_eq bounds.1 bounds.2
  rw [trailing]
  refine ⟨newline_not_mem_blankControls newline, ?_, ?_⟩
  · rw [length_blankControls]
  · rwa [length_blankControls]

theorem lex_oneLine_context (found : (lex source).stream.tokens[i]? = some t) :
    (lex source).stream.OneLine ((lex source).stream.context i t) := by
  have bounds := lex_bounds source t (Array.mem_of_getElem? found)
  by_cases visible : (lex source).stream.previous? i = none ∨
      Bytes.isBlank ((lex source).stream.shown i t) = false
  · obtain ⟨front, left, right, back, cut⟩ :=
      Bytes.exists_cut (s := (lex source).stream.source) (bounds.1.trans bounds.2)
    obtain ⟨l₁, l₂, r₁, r₂, rfl, rfl, shown, caret, -⟩ := (lex_frames found).exists_split cut
    rw [context_of_shown visible, shown, caret]
    refine ⟨newline_not_mem_blankControls ?_, ?_, ?_⟩
    · have := cut.left
      have := cut.right
      simp_all
    · rw [length_blankControls, List.length_append]
      exact Nat.le_add_right _ _
    · rw [length_blankControls, cut.length, ← cut.offset]
      simp only [List.length_append]
      omega
  · rw [not_or, Bool.not_eq_false] at visible
    obtain ⟨prev, before⟩ := Option.ne_none_iff_exists'.mp visible.1
    rw [context_of_blank before visible.2]
    rw [previous?] at before
    split at before
    · cases before
    · exact lex_oneLine_trailing before

end Lexed

end TokenStream

end PrintLang
