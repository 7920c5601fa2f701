import PrintLang.Bytes.Utf8
import PrintLang.Yaml

set_option autoImplicit false

namespace PrintLang

namespace Yaml

structure Mark where
  index : Nat
  line : Nat
  col : Nat
deriving DecidableEq, Repr

structure ScanError where
  start : Mark
  place : Mark
  problem : String
deriving DecidableEq, Repr

/-- The line of an error is the one where the token began, unless that is the first line of the text;
then it is the line of the place, unless that is the first line too. -/
def ScanError.error (e : ScanError) : YamlError :=
  let line := if e.start.line ≠ 0 then e.start.line + 1
    else if e.place.line ≠ 0 then e.place.line + 1
    else 0
  ⟨line, bytes e.problem⟩

def isBlank (c : Char) : Bool := c == ' ' || c == '\t'

def isBreak (c : Char) : Bool :=
  c == '\r' || c == '\n' || c == '\u0085' || c == '\u2028' || c == '\u2029'

def isWord (c : Char) : Bool := c.isAlphanum || c == '_' || c == '-'

def isFlowMark (c : Char) : Bool :=
  c == ',' || c == '?' || c == '[' || c == ']' || c == '\x7b' || c == '\x7d'

def spaced : List Char → Bool
  | [] => true
  | c :: _ => isBlank c || isBreak c

def ended : List Char → Bool
  | [] => true
  | c :: _ => isBreak c

def utf8 (cs : List Char) : Bytes := cs.flatMap fun c => Utf8.encode c.toNat

/-- The rest of a text of `size` characters, its place, and the number of line ends since the last
character that is no blank. -/
structure Cursor where
  rest : List Char
  mark : Mark
  breaks : Nat
  size : Nat
deriving DecidableEq, Repr

namespace Cursor

def start (cs : List Char) : Cursor := ⟨cs, ⟨0, 0, 0⟩, 0, cs.length⟩

def rounds (c : Cursor) : Nat := c.size - c.mark.index + 1

def fail {α : Type} (c : Cursor) (start : Mark) (problem : String) : Except ScanError α :=
  .error ⟨start, c.mark, problem⟩

def skip (c : Cursor) : Cursor :=
  match c.rest with
  | [] => c
  | ch :: rest => { c with
      rest := rest
      mark := ⟨c.mark.index + 1, c.mark.line, c.mark.col + 1⟩
      breaks := if isBlank ch then c.breaks else 0 }

def skipMany : Nat → Cursor → Cursor
  | 0, c => c
  | n + 1, c => skipMany n c.skip

def skipWhile (p : Char → Bool) (c : Cursor) : Cursor := skipMany (c.rest.takeWhile p).length c

def skipBreak (c : Cursor) : Cursor :=
  let after (rest : List Char) (n : Nat) : Cursor :=
    { c with rest := rest, mark := ⟨c.mark.index + n, c.mark.line + 1, 0⟩, breaks := c.breaks + 1 }
  match c.rest with
  | '\r' :: '\n' :: rest => after rest 2
  | ch :: rest => if isBreak ch then after rest 1 else c
  | [] => c

/-- The line end that comes next as it counts in a scalar: all but the separators of Unicode are line
feeds. -/
def breakText (c : Cursor) : List Char :=
  match c.rest with
  | [] => []
  | ch :: _ => if ch == '\u2028' || ch == '\u2029' then [ch] else ['\n']

def atBreak (c : Cursor) : Bool := c.rest.head?.any isBreak

def atBlank (c : Cursor) : Bool := c.rest.head?.any isBlank

def at_ (c : Cursor) (ch : Char) : Bool := c.rest.head? == some ch

def toLineEnd (c : Cursor) : Cursor := c.skipWhile fun ch => !isBreak ch

def atMark (c : Cursor) (ch : Char) : Bool :=
  c.mark.col == 0 && [ch, ch, ch].isPrefixOf c.rest && spaced (c.rest.drop 3)

def atDocumentMark (c : Cursor) : Bool := c.atMark '-' || c.atMark '.'

def skipTo (index : Nat) : (fuel : Nat) → Cursor → Cursor
  | 0, c => c
  | fuel + 1, c =>
    if index ≤ c.mark.index then c
    else skipTo index fuel (if c.atBreak then c.skipBreak else c.skip)

/-- Moves from a number sign over its comment, and over the comments of the lines below as long as
nothing else stands between them; a gap has less than 511 characters. -/
def comments : (fuel : Nat) → Cursor → Cursor
  | 0, c => c
  | fuel + 1, c =>
    let stop := c.toLineEnd
    match stop.rest with
    | ch :: tail =>
      let gap := (tail.takeWhile fun t => isBlank t || t == '\r' || t == '\n').length
      if (ch == '\r' || ch == '\n') && gap < 511 && tail[gap]? == some '#' then
        comments fuel (skipTo (stop.mark.index + gap + 1) (gap + 1) stop)
      else stop
    | [] => stop

def lineComment (c : Cursor) : Cursor :=
  let gap := (c.rest.takeWhile isBlank).length
  if c.breaks = 0 ∧ gap < 512 ∧ c.rest[gap]? = some '#' then c.toLineEnd else c

/-- Moves over blanks, comments and line ends to the next token. A tab is a blank only where no key
may start; in a block a key may start on a new line, which the second part of the result tells. -/
def toToken (flow : Bool) : (fuel : Nat) → (keyAllowed : Bool) → Cursor → Cursor × Bool
  | 0, keyAllowed, c => (c, keyAllowed)
  | fuel + 1, keyAllowed, c =>
    let c := if c.mark.col = 0 ∧ c.at_ '\ufeff' then c.skip else c
    let c := c.skipWhile fun ch => ch == ' ' || ((flow || !keyAllowed) && ch == '\t')
    let c := if c.at_ '#' then c.comments c.rounds else c
    if c.atBreak then toToken flow fuel (keyAllowed || !flow) c.skipBreak else (c, keyAllowed)

end Cursor

end Yaml

end PrintLang
