import PrintLang.Bytes.Integer
import PrintLang.Yaml.Token

set_option autoImplicit false

namespace PrintLang

namespace Yaml

/-- What stands between two parts of a scalar: blanks, or line ends, the first of them apart. -/
structure Gap where
  blanks : List Char
  broken : Bool
  first : List Char
  more : List Char
deriving DecidableEq, Repr

namespace Gap

def none : Gap := ⟨[], false, [], []⟩

def text (g : Gap) : List Char :=
  if !g.broken then g.blanks
  else if g.first.head? == some '\n' then (if g.more.isEmpty then [' '] else g.more)
  else g.first ++ g.more

def read (start : Mark) (indent : Nat) : (fuel : Nat) → Gap → Cursor →
    Except ScanError (Gap × Cursor)
  | 0, g, c => .ok (g, c)
  | fuel + 1, g, c =>
    match c.rest with
    | [] => .ok (g, c)
    | ch :: _ =>
      if isBlank ch then
        if g.broken && c.mark.col < indent && ch == '\t' then
          c.fail start "found a tab character that violates indentation"
        else read start indent fuel (if g.broken then g else { g with blanks := g.blanks ++ [ch] }) c.skip
      else if isBreak ch then
        let g := if g.broken then { g with more := g.more ++ c.breakText }
          else { g with blanks := [], broken := true, first := c.breakText }
        read start indent fuel g c.skipBreak
      else .ok (g, c)

end Gap

def plainSpan (flow : Bool) : List Char → Nat
  | [] => 0
  | ch :: rest =>
    if isBlank ch || isBreak ch then 0
    else if ch == ':' && spaced rest then 0
    else if flow && isFlowMark ch then 0
    else 1 + plainSpan flow rest

/-- Reads a plain scalar; in a block it goes on over lines that are indented to column `indent`. The
text comes in reverse, and the result also tells whether the cursor stands on a later line than the
scalar. -/
def plainFrom (flow : Bool) (start : Mark) (indent : Nat) :
    (fuel : Nat) → List Char → Gap → Cursor → Except ScanError (List Char × Bool × Cursor)
  | 0, text, g, c => .ok (text, g.broken, c)
  | fuel + 1, text, g, c =>
    let n := if c.atDocumentMark || c.at_ '#' then 0 else plainSpan flow c.rest
    if n = 0 then .ok (text, g.broken, c)
    else
      let text := (g.text ++ c.rest.take n).reverse ++ text
      let after := Cursor.skipMany n c
      if !(after.atBlank || after.atBreak) then .ok (text, false, after)
      else do
        let (g, next) ← Gap.read start indent after.rounds .none after
        if !flow && next.mark.col < indent then .ok (text, g.broken, next)
        else plainFrom flow start indent fuel text g next

def plainScalar (flow : Bool) (indent : Int) (c : Cursor) :
    Except ScanError (Token × Bool × Cursor) := do
  let (text, broken, c) ←
    plainFrom flow c.mark (indent + 1).toNat c.rounds [] .none c
  return (.scalar true (utf8 text.reverse), broken, c)

def simpleEscape? : Char → Option Char
  | '0' => some '\x00'
  | 'a' => some '\x07'
  | 'b' => some '\x08'
  | 't' => some '\t'
  | '\t' => some '\t'
  | 'n' => some '\n'
  | 'v' => some '\x0b'
  | 'f' => some '\x0c'
  | 'r' => some '\r'
  | 'e' => some '\x1b'
  | ' ' => some ' '
  | '\x22' => some '\x22'
  | '\x27' => some '\x27'
  | '\\' => some '\\'
  | 'N' => some '\u0085'
  | '_' => some '\u00a0'
  | 'L' => some '\u2028'
  | 'P' => some '\u2029'
  | _ => none

def escapeDigits? : Char → Option Nat
  | 'x' => some 2
  | 'u' => some 4
  | 'U' => some 8
  | _ => none

def hexDigit? (c : Char) : Option Nat :=
  if c.toNat < 128 then (Integer.digit? c.toNat.toUInt8).filter (· < 16) else none

def hexValue? (n : Nat) (cs : List Char) : Option Nat :=
  if cs.length < n then none
  else (cs.take n).foldl (fun v c => do return (← v) * 16 + (← hexDigit? c)) (some 0)

def escape (start : Mark) (c : Cursor) : Except ScanError (Char × Cursor) :=
  match c.rest with
  | _ :: e :: rest =>
    match simpleEscape? e, escapeDigits? e with
    | some ch, _ => .ok (ch, c.skip.skip)
    | none, some n =>
      match hexValue? n rest with
      | none => c.skip.skip.fail start "did not find expected hexdecimal number"
      | some v =>
        if (0xd800 ≤ v && v ≤ 0xdfff) || 0x10ffff < v then
          c.skip.skip.fail start "found invalid Unicode character escape code"
        else .ok (Char.ofNat v, Cursor.skipMany (n + 2) c)
    | none, none => c.fail start "found unknown escape character"
  | _ => c.fail start "found unknown escape character"

/-- Reads the characters of a quoted scalar up to a blank, a line end, the closing quote or an escaped
line end, which the second part of the result tells. The characters come in reverse. -/
def quotedPart (single : Bool) (start : Mark) : (fuel : Nat) → List Char → Cursor →
    Except ScanError (List Char × Bool × Cursor)
  | 0, text, c => .ok (text, false, c)
  | fuel + 1, text, c =>
    match c.rest with
    | [] => .ok (text, false, c)
    | ch :: rest =>
      if isBlank ch || isBreak ch then .ok (text, false, c)
      else if single then
        if ch == '\x27' then
          if rest.head? == some '\x27' then quotedPart single start fuel (ch :: text) c.skip.skip
          else .ok (text, false, c)
        else quotedPart single start fuel (ch :: text) c.skip
      else if ch == '\x22' then .ok (text, false, c)
      else if ch == '\\' then
        if rest.head?.any isBreak then .ok (text, true, c.skip.skipBreak)
        else match escape start c with
          | .error e => .error e
          | .ok (e, c) => quotedPart single start fuel (e :: text) c
      else quotedPart single start fuel (ch :: text) c.skip

def quotedFrom (single : Bool) (start : Mark) : (fuel : Nat) → List Char → Cursor →
    Except ScanError (List Char × Cursor)
  | 0, _, c => c.fail start "found unexpected end of stream"
  | fuel + 1, text, c =>
    if c.atDocumentMark then c.fail start "found unexpected document indicator"
    else if c.rest.isEmpty then c.fail start "found unexpected end of stream"
    else do
      let (text, broken, c) ← quotedPart single start c.rounds text c
      if c.at_ (if single then '\x27' else '\x22') then return (text, c.skip)
      else
        let (g, c) ← Gap.read start 0 c.rounds { Gap.none with broken := broken } c
        quotedFrom single start fuel (g.text.reverse ++ text) c

def quotedScalar (single : Bool) (c : Cursor) : Except ScanError (Token × Cursor) := do
  let (text, last) ← quotedFrom single c.mark c.rounds [] c.skip
  return (.scalar false (utf8 text.reverse), last)

inductive Chomp where
  | strip
  | clip
  | keep
deriving DecidableEq, Repr

def indentMark (start : Mark) (c : Cursor) : Except ScanError (Nat × Cursor) :=
  match c.rest with
  | ch :: _ =>
    if ch == '0' then c.fail start "found an indentation indicator equal to 0"
    else if ch.isDigit then .ok (ch.toNat - 48, c.skip)
    else .ok (0, c)
  | [] => .ok (0, c)

def chompMark (c : Cursor) : Chomp × Cursor :=
  if c.at_ '+' then (.keep, c.skip)
  else if c.at_ '-' then (.strip, c.skip)
  else (.clip, c)

def blockMarks (start : Mark) (c : Cursor) : Except ScanError (Chomp × Nat × Cursor) := do
  match chompMark c with
  | (.clip, _) =>
    let (indent, c) ← indentMark start c
    let (chomp, c) := if indent = 0 then (Chomp.clip, c) else chompMark c
    return (chomp, indent, c)
  | (chomp, c) =>
    let (indent, c) ← indentMark start c
    return (chomp, indent, c)

/-- Moves over blank lines and over the indentation of the next line, and gives the line ends. Zero
stands for an indentation that is not known yet: it is then the largest of those met, but more than
that of the block around, whose column is `parent`. -/
def blockBreaks (start : Mark) (parent : Int) (indent : Nat) : (fuel most : Nat) → List Char →
    Cursor → Except ScanError (Nat × List Char × Cursor)
  | 0, _, breaks, c => .ok (indent, breaks, c)
  | fuel + 1, most, breaks, c =>
    let spaces := (c.rest.takeWhile (· == ' ')).length
    let n := if indent = 0 then spaces else min spaces (indent - c.mark.col)
    let c := Cursor.skipMany n c
    let most := max most c.mark.col
    if (indent = 0 ∨ c.mark.col < indent) ∧ c.at_ '\t' then
      c.fail start "found a tab character where an indentation space is expected"
    else if c.atBreak then
      blockBreaks start parent indent fuel most (breaks ++ c.breakText) c.skipBreak
    else
      let indent := if indent = 0 then max most (max (parent + 1).toNat 1) else indent
      .ok (indent, breaks, c)

/-- Reads the lines of a block scalar that are indented to `indent`. `last` is the line end before
the cursor, `breaks` are those of the blank lines after it, and `blank` says that the line before
starts with a blank. The text comes in reverse. -/
def blockLines (literal : Bool) (chomp : Chomp) (start : Mark) (parent : Int) (indent : Nat) :
    (fuel : Nat) → (text last breaks : List Char) → (blank : Bool) → Cursor →
    Except ScanError (List Char × Cursor)
  | 0, text, _, _, _, c => .ok (text, c)
  | fuel + 1, text, last, breaks, blank, c =>
    if c.mark.col = indent ∧ ¬c.rest.isEmpty then
      let fold := !literal && !blank && !c.atBlank && last.head? == some '\n'
      let joint := if fold then (if breaks.isEmpty then [' '] else []) else last
      let stop := c.toLineEnd
      let line := c.rest.take (stop.mark.index - c.mark.index)
      let next := stop.skipBreak
      match blockBreaks start parent indent next.rounds 0 [] next with
      | .error e => .error e
      | .ok (_, more, after) =>
        blockLines literal chomp start parent indent fuel ((joint ++ breaks ++ line).reverse ++ text)
          (stop.breakText) more c.atBlank after
    else match chomp with
      | .strip => .ok (text, c)
      | .clip => .ok (last.reverse ++ text, c)
      | .keep => .ok ((last ++ breaks).reverse ++ text, c)

def blockScalar (literal : Bool) (parent : Int) (c : Cursor) :
    Except ScanError (Token × Cursor) := do
  let start := c.mark
  let (chomp, increment, c) ← blockMarks start c.skip
  let c := c.skipWhile isBlank
  let c := if c.at_ '#' then c.toLineEnd else c
  if !ended c.rest then c.fail start "did not find expected comment or line break"
  else
    let c := c.skipBreak
    let indent := if increment = 0 then 0 else (max parent 0).toNat + increment
    let (indent, breaks, c) ← blockBreaks start parent indent c.rounds 0 [] c
    let (text, c) ←
      blockLines literal chomp start parent indent c.rounds [] [] breaks false c
    return (.scalar false (utf8 text.reverse), c)

end Yaml

end PrintLang
