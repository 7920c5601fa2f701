import PrintLang.Ignore.Regex

set_option autoImplicit false

namespace PrintLang

namespace Regex

/-- A part of a sequence: the expression, how often counted repetitions repeat what is inside, and
whether it is a repetition that has just been read. -/
structure Part where
  regex : Regex
  copies : Nat
  repeated : Bool

/-- A group that is being read: the alternatives before the current one, the current sequence before
its last part, how often counted repetitions repeat what is in both, and the last part. -/
structure Group where
  before : Regex
  done : Regex
  copies : Nat
  last : Option Part

namespace Group

def new : Group := ⟨.never, .empty, 1, none⟩

def settled (g : Group) : Group :=
  match g.last with
  | some p => ⟨g.before, mkSeq g.done p.regex, max g.copies p.copies, none⟩
  | none => g

def push (g : Group) (r : Regex) (copies : Nat) : Group :=
  { g.settled with last := some ⟨r, copies, false⟩ }

def pushCode (g : Group) (c : Nat) : Group := g.push (.set (.one c)) 1

def bar (g : Group) : Group :=
  let g := g.settled
  ⟨.alt g.before g.done, .empty, g.copies, none⟩

def close (g : Group) : Regex := .alt g.settled.before g.settled.done

/-- Forgets that the last part is a repetition. -/
def apart (g : Group) : Group := { g with last := g.last.map ({ · with repeated := false }) }

/-- Repeats the last part. Repeating a repetition or nothing is an error. -/
def repeat? (g : Group) (least : Nat) (most : Option Nat) : Option Group :=
  match g.last with
  | some ⟨r, copies, false⟩ => some { g with last := some ⟨times least most r, copies, true⟩ }
  | _ => none

/-- Repeats the last part by counts, of which a thousand is the largest. A repetition that never takes
place does not count. -/
def count? (g : Group) (least : Nat) (most : Option Nat) : Option Group :=
  if 1000 < least ∨ most.any fun m => 1000 < m || m < least then none
  else do
    let g ← g.repeat? least most
    let p ← g.last
    let factor := most.getD least
    let copies := if most = some 0 then 1 else max factor 1 * p.copies
    if 1000 < copies ∧ (2 ≤ least ∨ most.any (2 ≤ ·)) then none
    else some { g with last := some { p with copies := copies } }

end Group

def readCount (cs : List Nat) : Option (Nat × List Nat) :=
  let digits := cs.takeWhile fun c => 48 ≤ c && c ≤ 57
  if digits = [] ∨ (digits.head? = some 48 ∧ digits ≠ [48]) then none
  else some (digits.foldl (fun n d => n * 10 + (d - 48)) 0, cs.drop digits.length)

def readBounds (cs : List Nat) : Option (Nat × Option Nat × List Nat) :=
  match readCount cs with
  | some (n, 0x7d :: rest) => some (n, some n, rest)
  | some (n, 44 :: 0x7d :: rest) => some (n, none, rest)
  | some (n, 44 :: rest) =>
    match readCount rest with
    | some (m, 0x7d :: rest) => some (n, some m, rest)
    | _ => none
  | _ => none

def hexDigit? (c : Nat) : Option Nat :=
  if 48 ≤ c && c ≤ 57 then some (c - 48)
  else if 97 ≤ c && c ≤ 102 then some (c - 87)
  else if 65 ≤ c && c ≤ 70 then some (c - 55)
  else none

def isOctal (c : Nat) : Bool := 48 ≤ c && c ≤ 55

def readHex (cs : List Nat) : Option (Nat × List Nat) := do
  let digits := cs.takeWhile (· != 0x7d)
  if digits = [] ∨ digits.length = cs.length then none
  else
    let v ← digits.foldlM (fun v c => do
      let d ← hexDigit? c
      if 0x10ffff < v * 16 + d then none else some (v * 16 + d)) 0
    return (v, cs.drop (digits.length + 1))

def readEscape : List Nat → Option (Nat × List Nat)
  | [] => none
  | c :: rest =>
    if c = 97 then some (7, rest)
    else if c = 102 then some (12, rest)
    else if c = 110 then some (10, rest)
    else if c = 114 then some (13, rest)
    else if c = 116 then some (9, rest)
    else if c = 118 then some (11, rest)
    else if c = 120 then
      match rest with
      | 0x7b :: rest => readHex rest
      | a :: b :: rest => do return ((← hexDigit? a) * 16 + (← hexDigit? b), rest)
      | _ => none
    else if isOctal c then
      let more := (rest.take 2).takeWhile isOctal
      if c ≠ 48 ∧ more = [] then none
      else some (more.foldl (fun v d => v * 8 + (d - 48)) (c - 48), rest.drop more.length)
    else if c < 0x80 ∧ ¬((48 ≤ c ∧ c ≤ 57) ∨ (65 ≤ c ∧ c ≤ 90) ∨ (97 ≤ c ∧ c ≤ 122)) then
      some (c, rest)
    else none

def readProperty (negated : Bool) (cs : List Nat) : Option (CodeItem × List Nat) := do
  let (name, rest) ← match cs with
    | 0x7b :: rest =>
      let name := rest.takeWhile (· != 0x7d)
      if name.length = rest.length then none else some (name, rest.drop (name.length + 1))
    | c :: rest => some ([c], rest)
    | [] => none
  let (negated, name) := match name with
    | 94 :: name => (!negated, name)
    | name => (negated, name)
  let item ← CodeItem.ofName? name
  return (item.negateIf negated, rest)

inductive Escape where
  | item (i : CodeItem) (rest : List Nat)
  | code (c : Nat) (rest : List Nat)
  | unknown

def escape (cs : List Nat) : Escape :=
  let property (negated : Bool) (rest : List Nat) : Escape :=
    match readProperty negated rest with
    | some (i, rest) => .item i rest
    | none => .unknown
  match cs with
  | 112 :: rest => property false rest
  | 80 :: rest => property true rest
  | c :: rest =>
    match CodeItem.ofLetter? c with
    | some i => .item i rest
    | none =>
      match readEscape (c :: rest) with
      | some (c, rest) => .code c rest
      | none => .unknown
  | [] => .unknown

def cut (part : List Nat) : List Nat → Option (List Nat × List Nat)
  | [] => none
  | c :: rest =>
    if part.isPrefixOf (c :: rest) then some ([], (c :: rest).drop part.length)
    else (cut part rest).map fun (a, b) => (c :: a, b)

/-- The group in colons and brackets after the first two of them, and what follows it. Without the
closing two it is no group; a word that is not known is an error. -/
def readWord? (cs : List Nat) : Option (Option (CodeItem × List Nat)) := do
  let (name, rest) ← cut [58, 93] cs
  let (negated, name) := match name with
    | 94 :: name => (true, name)
    | name => (false, name)
  return (CodePart.words.lookup (String.ofList (name.map Char.ofNat))).map (⟨negated, ·⟩, rest)

def readSetCode : List Nat → Option (Nat × List Nat)
  | 92 :: rest => readEscape rest
  | c :: rest => some (c, rest)
  | [] => none

def readRange (cs : List Nat) : Option (CodeItem × List Nat) := do
  let (lo, rest) ← readSetCode cs
  match rest with
  | 45 :: c :: after =>
    if c = 93 then return (.range lo lo, rest)
    else
      let (hi, rest) ← readSetCode (c :: after)
      if hi < lo then none else return (.range lo hi, rest)
  | _ => return (.range lo lo, rest)

def readItem (cs : List Nat) : Option (CodeItem × List Nat) :=
  match cs with
  | 91 :: 58 :: rest =>
    match readWord? rest with
    | some found => found
    | none => readRange cs
  | 92 :: rest =>
    match escape rest with
    | .item i rest => some (i, rest)
    | .code _ _ => readRange cs
    | .unknown => none
  | _ => readRange cs

/-- The items of a set in brackets up to the closing one, and what follows it. A closing bracket in
the first place stands for itself. -/
def readSet : (fuel : Nat) → (first : Bool) → List Nat → Option (List CodeItem × List Nat)
  | 0, _, _ => none
  | fuel + 1, first, cs =>
    match first, cs with
    | false, 93 :: rest => some ([], rest)
    | _, cs => do
      let (item, rest) ← readItem cs
      let (items, rest) ← readSet fuel false rest
      return (item :: items, rest)

/-- Reads an expression into the innermost group; every round takes at least one code point, so
`fuel` is their number. -/
def readFrom : (fuel : Nat) → (outer : List Group) → Group → List Nat → Option Regex
  | _, [], g, [] => some g.close
  | _, _ :: _, _, [] => none
  | 0, _, _, _ => none
  | fuel + 1, outer, g, c :: rest =>
    let test (t : PlaceTest) (rest : List Nat) := readFrom fuel outer (g.push (.test t) 1) rest
    -- A question mark after a repetition asks for short matches, which are no fewer.
    let lazily (g : Group) (rest : List Nat) :=
      readFrom fuel outer g (if rest.head? = some 63 then rest.drop 1 else rest)
    match c with
    | 40 => readFrom fuel (g :: outer) .new rest
    | 41 =>
      match outer with
      | [] => none
      | o :: outer => readFrom fuel outer (o.push g.close g.settled.copies) rest
    | 124 => readFrom fuel outer g.bar rest
    | 42 => (g.repeat? 0 none).bind fun g => lazily g rest
    | 43 => (g.repeat? 1 none).bind fun g => lazily g rest
    | 63 => (g.repeat? 0 (some 1)).bind fun g => lazily g rest
    | 0x7b =>
      match readBounds rest with
      | none => readFrom fuel outer (g.pushCode c) rest
      | some (n, m, rest) => (g.count? n m).bind fun g => lazily g rest
    | 94 => test .start rest
    | 36 => test .stop rest
    | 46 => readFrom fuel outer (g.push (.set .line) 1) rest
    | 91 =>
      let (negated, body) := match rest with
        | 94 :: body => (true, body)
        | body => (false, body)
      match readSet (body.length + 1) true body with
      | none => none
      | some (items, rest) => readFrom fuel outer (g.push (.set ⟨negated, items⟩) 1) rest
    | 92 =>
      match rest with
      | 65 :: rest => test .start rest
      | 122 :: rest => test .stop rest
      | 98 :: rest => test .wordEdge rest
      | 66 :: rest => test .noWordEdge rest
      | 81 :: rest =>
        let (literal, rest) := (cut [92, 69] rest).getD (rest, [])
        readFrom fuel outer (literal.foldl Group.pushCode g.apart) rest
      | rest =>
        match escape rest with
        | .item i rest => readFrom fuel outer (g.push (.set ⟨false, [i]⟩) 1) rest
        | .code c rest => readFrom fuel outer (g.pushCode c) rest
        | .unknown => none
    | c => readFrom fuel outer (g.pushCode c) rest

def read? (text : Bytes) : Option Regex :=
  if Bytes.isUtf8 text then
    let codes := (Bytes.pieces text).map Piece.value
    readFrom codes.length [] .new codes
  else none

end Regex

end PrintLang
