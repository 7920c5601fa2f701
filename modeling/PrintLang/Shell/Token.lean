import PrintLang.Shell

set_option autoImplicit false

namespace PrintLang

namespace Shell

inductive Token where
  | word (w : Word)
  | newline
  | semicolon
  | ampersand
  | both
  | either
  | bar
  | left
  | right
  | endArm
  | redirect (stream : Nat) (mode : Mode)
  | here (stream : Nat) (body : Word)
  | fault (message : Bytes)
  | finish
deriving Repr

abbrev Cut := Token × Bytes

structure CutError where
  message : Bytes
  rest : Bytes

def cutFails {α : Type} (message : String) (rest : Bytes) : Except CutError α :=
  .error ⟨bytes message, rest⟩

/-- What the text of a word is enclosed in, which tells where it ends. -/
inductive Frame where
  | bare
  | quotes
  | braces (quoted : Bool)
  | document
deriving DecidableEq, Repr

namespace Frame

def quoted : Frame → Bool
  | .bare => false
  | .quotes => true
  | .braces q => q
  | .document => true

def ends (f : Frame) (b : UInt8) : Bool :=
  match f with
  | .bare => [9, 10, 32, 38, 40, 41, 59, 60, 62, 124].contains b
  | .quotes => b == 34
  | .braces q => b == 125 || (!q && b == 10)
  | .document => false

def plain (f : Frame) (b : UInt8) : Bool :=
  !f.ends b && b != 92 && b != 36 && b != 96 &&
    match f with
    | .document => true
    | _ => b != 34 && (f.quoted || b != 39)

def escapes (f : Frame) (b : UInt8) : Bool :=
  !f.quoted || b == 36 || b == 96 || b == 92 ||
    match f with
    | .document => false
    | .braces _ => b == 34 || b == 125
    | _ => b == 34

end Frame

def joinTexts : Word → Word
  | [] => []
  | .text a q :: rest =>
    match joinTexts rest with
    | .text b r :: rest => if q = r then .text (a ++ b) q :: rest else .text a q :: .text b r :: rest
    | rest => .text a q :: rest
  | p :: rest => p :: joinTexts rest

inductive Quoting where
  | none
  | single
  | double
deriving DecidableEq, Repr

def untilClosed : (depth : Nat) → Quoting → Bytes → Option (Bytes × Bytes)
  | _, _, [] => none
  | d, .single, b :: rest => (untilClosed d (if b = 39 then .none else .single) rest).map (add b)
  | d, q, 92 :: c :: rest => ((untilClosed d q rest).map (add c)).map (add 92)
  | d, .double, b :: rest => (untilClosed d (if b = 34 then .none else .double) rest).map (add b)
  | d, .none, b :: rest =>
    if b = 39 then (untilClosed d .single rest).map (add b)
    else if b = 34 then (untilClosed d .double rest).map (add b)
    else if b = 40 then (untilClosed (d + 1) .none rest).map (add b)
    else if b = 41 then
      match d with
      | 0 => some ([], rest)
      | n + 1 => (untilClosed n .none rest).map (add b)
    else (untilClosed d .none rest).map (add b)
where
  add (b : UInt8) (found : Bytes × Bytes) : Bytes × Bytes := (b :: found.1, found.2)

def untilBackquote : Bytes → Option (Bytes × Bytes)
  | [] => none
  | 96 :: rest => some ([], rest)
  | 92 :: c :: rest =>
    (untilBackquote rest).map fun (inner, rest) =>
      (if c = 36 ∨ c = 92 ∨ c = 96 then c :: inner else 92 :: c :: inner, rest)
  | b :: rest => (untilBackquote rest).map fun (inner, rest) => (b :: inner, rest)

def isSpecial (b : UInt8) : Bool := isDigit b || [33, 35, 36, 42, 45, 63, 64].contains b

def bracedName (s : Bytes) : Bytes × Bytes :=
  match s with
  | [] => ([], [])
  | b :: rest =>
    if startsName b then (s.takeWhile isNameByte, s.dropWhile isNameByte)
    else if isDigit b then (s.takeWhile isDigit, s.dropWhile isDigit)
    else if isSpecial b then ([b], rest)
    else ([], s)

def useOf : Bytes → Use × Bytes
  | 58 :: 45 :: rest => (.orElse true, rest)
  | 58 :: 61 :: rest => (.assign true, rest)
  | 58 :: 63 :: rest => (.demand true, rest)
  | 58 :: 43 :: rest => (.instead true, rest)
  | 45 :: rest => (.orElse false, rest)
  | 61 :: rest => (.assign false, rest)
  | 63 :: rest => (.demand false, rest)
  | 43 :: rest => (.instead false, rest)
  | 35 :: 35 :: rest => (.cutStart true, rest)
  | 35 :: rest => (.cutStart false, rest)
  | 37 :: 37 :: rest => (.cutEnd true, rest)
  | 37 :: rest => (.cutEnd false, rest)
  | 125 :: rest => (.value, 125 :: rest)
  | rest => (.malformed, rest)

def braced (word : Frame → Bytes → Except CutError (Word × Bytes)) (f : Frame) (s : Bytes) :
    Except CutError (Part × Bytes) := do
  let (name, behind) := bracedName s
  let (use, behind) := if name = [] then (.malformed, behind) else useOf behind
  let (w, rest) ← word (.braces f.quoted) behind
  return (.param name use w f.quoted, rest)

def dollar (word : Frame → Bytes → Except CutError (Word × Bytes)) (f : Frame) (s : Bytes) :
    Except CutError (Part × Bytes) :=
  match s with
  | 40 :: 40 :: rest =>
    match untilClosed 0 .none rest with
    | some (inner, 41 :: rest) => do
      let (expression, _) ← word .document inner
      return (.sum expression f.quoted, rest)
    | _ => cutFails "Missing '))'" []
  | 40 :: rest =>
    match untilClosed 0 .none rest with
    | some (script, rest) => .ok (.output script f.quoted, rest)
    | none => cutFails "end of file unexpected (expecting \")\")" []
  | 123 :: 35 :: rest =>
    let (name, behind) := bracedName rest
    match name, behind with
    | _ :: _, 125 :: rest => .ok (.param name .length [] f.quoted, rest)
    | _, _ => braced word f (35 :: rest)
  | 123 :: rest => braced word f rest
  | b :: rest =>
    if startsName b then
      .ok (.param (s.takeWhile isNameByte) .value [] f.quoted, s.dropWhile isNameByte)
    else if isSpecial b then .ok (.param [b] .value [] f.quoted, rest)
    else .ok (.text [36] f.quoted, s)
  | [] => .ok (.text [36] f.quoted, [])

/-- The parts of a word up to the end of its frame, with the text from there on; `done` are those found
so far, in reverse. Every step takes something off the text, so its length bounds the steps. -/
def cutParts : (fuel : Nat) → Frame → (done : Word) → Bytes → Except CutError (Word × Bytes)
  | 0, _, _, s => cutFails "Word too long" s
  | fuel + 1, f, done, s =>
    match s with
    | [] =>
      match f with
      | .quotes => cutFails "Unterminated quoted string" s
      | .braces _ => cutFails "Missing '\x7d'" s
      | _ => .ok (joinTexts done.reverse, s)
    | 92 :: 10 :: rest => cutParts fuel f done rest
    | 92 :: c :: rest =>
      if f.escapes c then cutParts fuel f (.text [c] true :: done) rest
      else cutParts fuel f (.text [92] true :: done) (c :: rest)
    | 92 :: [] => cutParts fuel f (.text [92] true :: done) []
    | 36 :: rest => do
      let (p, rest) ← dollar (fun f s => cutParts fuel f [] s) f rest
      cutParts fuel f (p :: done) rest
    | 96 :: rest =>
      match untilBackquote rest with
      | none => cutFails "EOF in backquote substitution" []
      | some (script, rest) => cutParts fuel f (.output script f.quoted :: done) rest
    | b :: rest =>
      if f.ends b then
        match f with
        | .quotes => .ok (joinTexts done.reverse, rest)
        | .braces _ =>
          if b = 125 then .ok (joinTexts done.reverse, rest) else cutFails "Missing '\x7d'" s
        | _ => .ok (joinTexts done.reverse, s)
      else if f.plain b then
        cutParts fuel f (.text (s.takeWhile f.plain) f.quoted :: done) (s.dropWhile f.plain)
      else if b = 39 then
        if rest.contains 39 then
          cutParts fuel f (.text (rest.takeWhile (· != 39)) true :: done)
            (rest.dropWhile (· != 39)).tail
        else cutFails "Unterminated quoted string" []
      else if f.quoted then cutParts fuel f done rest
      else do
        let (inner, rest) ← cutParts fuel .quotes [] rest
        cutParts fuel f ((if inner.isEmpty then [.text [] true] else inner.reverse) ++ done) rest
def literal (w : Word) : Bytes × Bool :=
  (w.flatMap fun
    | .text s _ => s
    | .param name _ _ _ => 36 :: name
    | _ => [], w.any fun
    | .text _ q => q
    | _ => false)

def untilMark (mark : Bytes) (stripTabs : Bool) : List Bytes → List Bytes × List Bytes
  | [] => ([], [])
  | line :: rest =>
    let line := if stripTabs then line.dropWhile (· == 9) else line
    if line = mark then ([], rest)
    else
      let (body, rest) := untilMark mark stripTabs rest
      (line :: body, rest)

/-- A here document whose operator stands before `s`: its token, the text behind the mark, and how many
of the bytes behind the line now belong to here documents. -/
def cutHere (stream taken : Nat) (s : Bytes) : Except CutError (Token × Bytes × Nat) := do
  let (stripTabs, s) := match s with
    | 45 :: rest => (true, rest)
    | _ => (false, s)
  let (mark, rest) ← cutParts (s.length + 1) .bare [] (s.dropWhile fun b => b == 32 || b == 9)
  if mark.isEmpty then return (.redirect stream .input, rest, taken)
  let (mark, verbatim) := literal mark
  let below := ((rest.dropWhile (· != 10)).drop 1).drop taken
  let (body, after) := untilMark mark stripTabs (Bytes.splitOn 10 below)
  let used := below.length - (Bytes.join [10] after).length
  let text := Bytes.lines body
  let (word, _) ←
    if verbatim then .ok ([Part.text text true], []) else cutParts (text.length + 1) .document [] text
  return (.here stream word, rest, taken + used)

def modeOf : Bytes → Option (Mode × Bytes)
  | 62 :: 62 :: rest => some (.append, rest)
  | 62 :: 38 :: rest => some (.duplicate, rest)
  | 62 :: 124 :: rest => some (.output, rest)
  | 62 :: rest => some (.output, rest)
  | 60 :: 38 :: rest => some (.duplicate, rest)
  | 60 :: 62 :: rest => some (.append, rest)
  | 60 :: rest => some (.input, rest)
  | _ => none

def redirection? (s : Bytes) : Option (Nat × Bytes) :=
  match s with
  | 62 :: _ => some (1, s)
  | 60 :: _ => some (0, s)
  | d :: c :: rest =>
    if isDigit d && (c == 60 || c == 62) then some (d.toNat - 48, c :: rest) else none
  | _ => none

def operator? : Bytes → Option Cut
  | 59 :: 59 :: rest => some (.endArm, rest)
  | 59 :: rest => some (.semicolon, rest)
  | 38 :: 38 :: rest => some (.both, rest)
  | 38 :: rest => some (.ampersand, rest)
  | 124 :: 124 :: rest => some (.either, rest)
  | 124 :: rest => some (.bar, rest)
  | 40 :: rest => some (.left, rest)
  | 41 :: rest => some (.right, rest)
  | _ => none

/-- The tokens of a text, up to its end or to a fault. The first `taken` bytes behind the line belong to
here documents. -/
def cut : (fuel taken : Nat) → Bytes → List Cut
  | 0, _, _ => []
  | fuel + 1, taken, s =>
    match s with
    | [] => [(.finish, [])]
    | 92 :: 10 :: rest => cut fuel taken rest
    | 10 :: rest =>
      let rest := rest.drop taken
      (.newline, rest) :: cut fuel 0 rest
    | b :: rest =>
      if b = 32 ∨ b = 9 then cut fuel taken rest
      else if b = 35 then cut fuel taken (rest.dropWhile (· != 10))
      else match operator? s with
      | some (t, rest) => (t, rest) :: cut fuel taken rest
      | none =>
        match redirection? s with
        | some (stream, 60 :: 60 :: rest) =>
          match cutHere stream taken rest with
          | .error e => [(.fault e.message, e.rest)]
          | .ok (t, rest, taken) => (t, rest) :: cut fuel taken rest
        | some (stream, marked) =>
          match modeOf marked with
          | none => []
          | some (mode, rest) => (.redirect stream mode, rest) :: cut fuel taken rest
        | none =>
          match cutParts (s.length + 1) .bare [] s with
          | .error e => [(.fault e.message, e.rest)]
          | .ok (w, rest) => (.word w, rest) :: cut fuel taken rest

def breaks (s : Bytes) : Nat := s.countP (· == 10)

def tokens (script : Bytes) (line : Nat) : List (Token × Nat) :=
  let all := breaks script
  (cut (script.length + 1) 0 script).map fun (t, rest) => (t, line + all - breaks rest)

end Shell

end PrintLang
