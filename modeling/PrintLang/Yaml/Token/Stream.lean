import PrintLang.Yaml.Text
import PrintLang.Yaml.Token.Property

/-!
# The tokens of a YAML text

Tokens are cut from a text on demand. A colon makes a key of what came before it on its line, so a
token that may be a key is not handed out until it is known whether a colon follows; and always at
least two more tokens are known than the one that is handed out. Columns open and close blocks.
-/

set_option autoImplicit false

namespace PrintLang

namespace Yaml

/-- A token that may turn out to be a key: its number, its place, and whether it must be one. -/
structure Candidate where
  number : Nat
  mark : Mark
  required : Bool
deriving DecidableEq, Repr

/-- The tokens that wait to be handed out, and the state of the cutting. There is at most one
candidate for each flow collection that is open and one for the block around them. -/
structure Stream where
  cursor : Cursor
  fault : Option Bytes
  started : Bool
  queue : List Located
  taken : Nat
  indent : Int
  indents : List Int
  candidates : List (Option Candidate)
  keyAllowed : Bool

namespace Stream

abbrev Result (α : Type) := Except ScanError α

def deepest : Nat := 10000

def ofText (t : Text) : Stream :=
  { cursor := .start t.chars
    fault := t.fault
    started := false
    queue := []
    taken := 0
    indent := -1
    indents := []
    candidates := [none]
    keyAllowed := true }

def flowLevel (s : Stream) : Nat := s.candidates.length - 1

def inFlow (s : Stream) : Bool :=
  match s.candidates with
  | _ :: _ :: _ => true
  | _ => false

def fail {α : Type} (s : Stream) (problem : String) : Result α :=
  s.cursor.fail s.cursor.mark problem

def nextNumber (s : Stream) : Nat := s.taken + s.queue.length

def push (s : Stream) (token : Token) (mark : Mark) : Stream :=
  { s with queue := s.queue ++ [⟨token, mark⟩] }

def pushAt (s : Stream) (number : Nat) (token : Token) (mark : Mark) : Stream :=
  let n := number - s.taken
  { s with queue := s.queue.take n ++ ⟨token, mark⟩ :: s.queue.drop n }

def candidate? (s : Stream) : Option Candidate := s.candidates.head?.join

def setCandidate (s : Stream) (c : Option Candidate) : Stream :=
  { s with candidates := c :: s.candidates.tail }

def dropCandidate (s : Stream) : Result Stream :=
  match s.candidate? with
  | some k =>
    if k.required then s.cursor.fail k.mark "could not find expected ':'"
    else .ok (s.setCandidate none)
  | none => .ok s

def addCandidate (s : Stream) : Result Stream :=
  if s.keyAllowed then do
    let k : Candidate := ⟨s.nextNumber, s.cursor.mark, !s.inFlow && s.indent == s.cursor.mark.col⟩
    return (← s.dropCandidate).setCandidate (some k)
  else .ok s

/-- Whether a candidate is still one: a key has one line and no more than 1024 characters. -/
def isCurrent (s : Stream) (k : Candidate) : Result Bool :=
  if k.mark.line < s.cursor.mark.line ∨ k.mark.index + 1024 < s.cursor.mark.index then
    if k.required then s.cursor.fail k.mark "could not find expected ':'" else .ok false
  else .ok true

/-- Opens a block at a column that is to the right of the block around; its token comes before the one
with the given number. -/
def openBlock (s : Stream) (column number : Nat) (token : Token) (mark : Mark) : Result Stream :=
  if s.inFlow || column ≤ s.indent then .ok s
  else
    let s := { s with indents := s.indent :: s.indents, indent := column }
    if deepest < s.indents.length then
      s.cursor.fail ((s.candidate?.map (·.mark)).getD ⟨0, 0, 0⟩) "exceeded max depth of 10000"
    else .ok (s.pushAt number token mark)

def closeBlocks (column : Int) (mark : Mark) : (fuel : Nat) → Stream → Stream
  | 0, s => s
  | fuel + 1, s =>
    if s.inFlow || s.indent ≤ column then s
    else
      let s := s.push .blockEnd mark
      closeBlocks column mark fuel
        { s with indent := s.indents.head?.getD (-1), indents := s.indents.tail }

def closeTo (s : Stream) (column : Int) (mark : Mark) : Stream :=
  closeBlocks column mark (s.indents.length + 1) s

def mark (s : Stream) (length : Nat) (token : Token) : Stream :=
  { s.push token s.cursor.mark with cursor := Cursor.skipMany length s.cursor }

def endBlocks (s : Stream) : Result Stream := do
  let s ← (s.closeTo (-1) s.cursor.mark).dropCandidate
  return { s with keyAllowed := false }

def fetchEnd (s : Stream) : Result Stream := do
  let m := s.cursor.mark
  let m := if m.col = 0 then m else ⟨m.index, m.line + 1, 0⟩
  let s ← { s with cursor := { s.cursor with mark := m } }.endBlocks
  return s.push .streamEnd m

def fetchDirective (s : Stream) : Result Stream := do
  let s ← s.endBlocks
  let (token, c) ← directive s.cursor
  return { s.push token s.cursor.mark with cursor := c }

def fetchDocumentMark (s : Stream) (token : Token) : Result Stream := do
  return (← s.endBlocks).mark 3 token

def fetchFlowStart (s : Stream) (token : Token) : Result Stream := do
  let s ← s.addCandidate
  let s := { s with candidates := none :: s.candidates }
  if deepest < s.flowLevel then s.fail "exceeded max depth of 10000"
  else return { s with keyAllowed := true }.mark 1 token

def fetchFlowEnd (s : Stream) (token : Token) : Result Stream := do
  let s ← s.dropCandidate
  let s := if s.inFlow then { s with candidates := s.candidates.tail } else s
  return { s with keyAllowed := false }.mark 1 token

def fetchFlowEntry (s : Stream) : Result Stream := do
  return { ← s.dropCandidate with keyAllowed := true }.mark 1 .flowEntry

def fetchBlockEntry (s : Stream) : Result Stream := do
  let s ←
    if s.inFlow then pure s
    else if !s.keyAllowed then s.fail "block sequence entries are not allowed in this context"
    else s.openBlock s.cursor.mark.col s.nextNumber .blockSeqStart s.cursor.mark
  return { ← s.dropCandidate with keyAllowed := true }.mark 1 .blockEntry

def fetchKey (s : Stream) : Result Stream := do
  let s ←
    if s.inFlow then pure s
    else if !s.keyAllowed then s.fail "mapping keys are not allowed in this context"
    else s.openBlock s.cursor.mark.col s.nextNumber .blockMapStart s.cursor.mark
  let s ← s.dropCandidate
  return { s with keyAllowed := !s.inFlow }.mark 1 .key

/-- A colon: after a candidate it makes a key of it, else it gives the value of a key that was marked
as one. -/
def fetchValue (s : Stream) : Result Stream := do
  let current ← match s.candidate? with
    | some k => do pure (if (← s.isCurrent k) then some k else none)
    | none => pure none
  match current with
  | some k =>
    let s := s.pushAt k.number .key k.mark
    let s ← s.openBlock k.mark.col k.number .blockMapStart k.mark
    return { s.setCandidate none with keyAllowed := false }.mark 1 .value
  | none =>
    let s := s.setCandidate none
    let s ←
      if s.inFlow then pure s
      else if !s.keyAllowed then s.fail "mapping values are not allowed in this context"
      else s.openBlock s.cursor.mark.col s.nextNumber .blockMapStart s.cursor.mark
    return { s with keyAllowed := !s.inFlow }.mark 1 .value

def fetchNode (s : Stream) (read : Cursor → Result (Token × Cursor)) : Result Stream := do
  let s ← s.addCandidate
  let (token, c) ← read s.cursor
  return { s.push token s.cursor.mark with cursor := c, keyAllowed := false }

def fetchAnchor (s : Stream) (token : Bytes → Token) : Result Stream :=
  s.fetchNode fun c => do
    let (name, c) ← anchorName c
    return (token name, c)

def fetchBlockScalar (s : Stream) (literal : Bool) : Result Stream := do
  let s ← s.dropCandidate
  let (token, c) ← blockScalar literal s.indent s.cursor
  return { s.push token s.cursor.mark with cursor := c, keyAllowed := true }

def fetchPlain (s : Stream) : Result Stream := do
  let s ← s.addCandidate
  let (token, broken, c) ← plainScalar s.inFlow s.indent s.cursor
  return { s.push token s.cursor.mark with cursor := c, keyAllowed := broken }

def startsPlain (flow : Bool) (ch : Char) (rest : List Char) : Bool :=
  if ch == '-' then !rest.head?.any isBlank
  else if ch == '?' || ch == ':' then !flow && !spaced rest
  else !(isBlank ch || isBreak ch || [',', '[', ']', '\x7b', '\x7d', '#', '&', '*', '!', '|', '>',
    '\x27', '\x22', '%', '@', '\x60'].contains ch)

def fetchAt (s : Stream) (ch : Char) (rest : List Char) : Result Stream :=
  let apart := spaced rest
  if ch == '[' then s.fetchFlowStart .flowSeqStart
  else if ch == '\x7b' then s.fetchFlowStart .flowMapStart
  else if ch == ']' then s.fetchFlowEnd .flowSeqEnd
  else if ch == '\x7d' then s.fetchFlowEnd .flowMapEnd
  else if ch == ',' then s.fetchFlowEntry
  else if ch == '-' && apart then s.fetchBlockEntry
  else if ch == '?' && (s.inFlow || apart) then s.fetchKey
  else if ch == ':' && (s.inFlow || apart) then s.fetchValue
  else if ch == '*' then s.fetchAnchor .alias
  else if ch == '&' then s.fetchAnchor .anchor
  else if ch == '!' then s.fetchNode tag
  else if ch == '|' && !s.inFlow then s.fetchBlockScalar true
  else if ch == '>' && !s.inFlow then s.fetchBlockScalar false
  else if ch == '\x27' then s.fetchNode (quotedScalar true)
  else if ch == '\x22' then s.fetchNode (quotedScalar false)
  else if startsPlain s.inFlow ch rest then s.fetchPlain
  else s.fail "found character that cannot start any token"

def skipLineComment (s : Stream) : Stream :=
  if (s.queue.getLast?.map (·.token)) == some .blockEntry then s
  else { s with cursor := s.cursor.lineComment }

def fetchToken (s : Stream) : Result Stream :=
  if !s.started then .ok { s.push .streamStart s.cursor.mark with started := true }
  else
    let before := s.cursor.mark
    let (c, keyAllowed) := s.cursor.toToken s.inFlow s.cursor.rounds s.keyAllowed
    let s := { s with cursor := c, keyAllowed := keyAllowed }.closeTo c.mark.col before
    match c.rest with
    | [] => s.fetchEnd
    | ch :: rest =>
      if c.mark.col = 0 ∧ ch = '%' then s.fetchDirective
      else if c.atMark '-' then s.fetchDocumentMark .documentStart
      else if c.atMark '.' then s.fetchDocumentMark .documentEnd
      else do return (← s.fetchAt ch rest).skipLineComment

/-- Cuts the next token of a text with a fault: nothing that needs what comes after the last character
can be had. -/
def fetch (s : Stream) : Except YamlError Stream :=
  match s.fault, s.fetchToken with
  | none, .ok next => .ok next
  | none, .error e => .error e.error
  | some problem, .ok next =>
    if next.cursor.rest.isEmpty then failure problem else .ok next
  | some problem, .error e => if e.place.index = s.cursor.size then failure problem else .error e.error

/-- Whether the first token that waits may still turn out to be a key; if not, it is forgotten as a
candidate. -/
def undecided (s : Stream) : Result (Bool × Stream) :=
  match s.candidates.findSome? fun k => k.filter (·.number == s.taken) with
  | none => .ok (false, s)
  | some k => do
    if (← s.isCurrent k) then return (true, s)
    else
      let rest := s.candidates.map fun c => if c == some k then none else c
      return (false, { s with candidates := rest })

def fill : (fuel : Nat) → Stream → Except YamlError Stream
  | 0, s => .ok s
  | fuel + 1, s =>
    if s.queue.length < 3 then do fill fuel (← s.fetch)
    else match s.undecided with
      | .error e => .error e.error
      | .ok (true, s) => do fill fuel (← s.fetch)
      | .ok (false, s) => .ok s

def peek (s : Stream) : Except YamlError (Located × Stream) := do
  let s ← fill (s.cursor.rounds + 8) s
  match s.queue with
  | t :: _ => return (t, s)
  | [] => failure (bytes "did not find expected node content")

def skip (s : Stream) : Stream := { s with queue := s.queue.tail, taken := s.taken + 1 }

end Stream

end Yaml

end PrintLang
