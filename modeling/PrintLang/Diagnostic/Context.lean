import PrintLang.Bytes.Blank
import PrintLang.Token

/-!
# Source context of a token

The part of a source line that a diagnostic shows: from the start of the token before to the end of
the token after, cut to the line on which the token starts. Where that would be blank, as for the
end of input after a trailing newline, the line on which the token before ends is shown instead.
-/

set_option autoImplicit false

namespace PrintLang

namespace TokenStream

def lineStart (ts : TokenStream) (i : Nat) : Nat :=
  match Bytes.lastIndexOf? 10 (ts.source.take i) with
  | some n => n + 1
  | none => 0

def lineStop (ts : TokenStream) (i : Nat) : Nat :=
  match Bytes.indexOf? 10 (ts.source.drop i) with
  | some n => i + n
  | none => ts.source.length

/-- Tabs and carriage returns shown as blanks, byte for byte. -/
def blankControls (s : Bytes) : Bytes := s.map fun b => if b = 9 ∨ b = 13 then 32 else b

/-- The whole line on which a token ends, with the caret just past it. -/
def trailingContext (ts : TokenStream) (t : Token) : Bytes × Nat :=
  let text := Bytes.trimRightBy (fun b => b == 32 || b == 9 || b == 13)
    (Bytes.slice ts.source (ts.lineStart t.start) (ts.lineStop t.stop))
  let last := match Bytes.lastIndexOf? 10 text with
    | some n => text.drop (n + 1)
    | none => text
  (blankControls last, last.length)

def window (ts : TokenStream) (i : Nat) (t : Token) : Nat × Nat :=
  let start := match (if i = 0 then none else ts.tokens[i - 1]?) with
    | some prev => max (ts.lineStart t.start) prev.start
    | none => ts.lineStart t.start
  let stop := match ts.tokens[i + 1]? with
    | some next => min (ts.lineStop t.start) next.stop
    | none => ts.lineStop t.start
  (start, max stop t.start)

def context (ts : TokenStream) (i : Nat) (t : Token) : Bytes × Nat :=
  let (start, stop) := ts.window i t
  let text := Bytes.slice ts.source start stop
  match (if i = 0 then none else ts.tokens[i - 1]?) with
  | some prev =>
    if Bytes.isBlank text then ts.trailingContext prev
    else (blankControls text, t.start - start)
  | none => (blankControls text, t.start - start)

end TokenStream

end PrintLang
