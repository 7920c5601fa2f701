import PrintLang.Yaml.Token.Scalar

set_option autoImplicit false

namespace PrintLang

namespace Yaml

def word (c : Cursor) : Bytes × Cursor :=
  (utf8 (c.rest.takeWhile isWord), c.skipWhile isWord)

def endsAnchor (rest : List Char) : Bool :=
  spaced rest || rest.head?.any fun c =>
    c == '?' || c == ':' || c == ',' || c == ']' || c == '\x7d' || c == '%' || c == '@' || c == '\x60'

def anchorName (c : Cursor) : Except ScanError (Bytes × Cursor) :=
  let (name, last) := word c.skip
  if name.isEmpty || !endsAnchor last.rest then
    last.fail c.mark "did not find expected alphabetic or numeric character"
  else .ok (name, last)

def isTagChar (c : Char) : Bool :=
  isWord c || [';', '/', '?', ':', '@', '&', '=', '+', '$', ',', '.', '!', '~', '*', '\x27', '(',
    ')', '[', ']', '%'].contains c

def byteWidth (b : Nat) : Nat :=
  if b < 0x80 then 1
  else if b / 32 = 6 then 2
  else if b / 16 = 14 then 3
  else if b / 8 = 30 then 4
  else 0

def tagEscapeTail (start : Mark) : Nat → Cursor → Except ScanError (Bytes × Cursor)
  | 0, c => .ok ([], c)
  | n + 1, c =>
    match c.at_ '%', hexValue? 2 (c.rest.drop 1) with
    | true, some b =>
      if b / 64 = 2 then do
        let (more, last) ← tagEscapeTail start n (Cursor.skipMany 3 c)
        return (b.toUInt8 :: more, last)
      else c.fail start "found an incorrect trailing UTF-8 octet"
    | _, _ => c.fail start "did not find URI escaped octet"

def tagEscape (start : Mark) (c : Cursor) : Except ScanError (Bytes × Cursor) :=
  match hexValue? 2 (c.rest.drop 1) with
  | none => c.fail start "did not find URI escaped octet"
  | some b =>
    if byteWidth b = 0 then c.fail start "found an incorrect leading UTF-8 octet"
    else do
      let (more, last) ← tagEscapeTail start (byteWidth b - 1) (Cursor.skipMany 3 c)
      return (b.toUInt8 :: more, last)

def tagChars (start : Mark) : (fuel : Nat) → Cursor → Except ScanError (Bytes × Cursor)
  | 0, c => .ok ([], c)
  | fuel + 1, c =>
    match c.rest with
    | ch :: _ =>
      if ch == '%' then do
        let (s, c) ← tagEscape start c
        let (more, last) ← tagChars start fuel c
        return (s ++ more, last)
      else if isTagChar ch then do
        let (more, last) ← tagChars start fuel c.skip
        return (utf8 [ch] ++ more, last)
      else .ok ([], c)
    | [] => .ok ([], c)

/-- The rest of a tag after `head`, which counts as a part of it but for its first character. -/
def tagRest (start : Mark) (head : Bytes) (c : Cursor) : Except ScanError (Bytes × Cursor) := do
  let (s, last) ← tagChars start c.rounds c
  if s.isEmpty && head.isEmpty then last.fail start "did not find expected tag URI"
  else return (head.drop 1 ++ s, last)

/-- A handle: a name between exclamation marks, or the first of them with the name only. -/
def tagHandle (directive : Bool) (start : Mark) (c : Cursor) : Except ScanError (Bytes × Cursor) :=
  if !c.at_ '!' then c.fail start "did not find expected '!'"
  else
    let (name, last) := word c.skip
    if last.at_ '!' then .ok (33 :: name ++ [33], last.skip)
    else if directive && !name.isEmpty then last.fail start "did not find expected '!'"
    else .ok (33 :: name, last)

def tag (c : Cursor) : Except ScanError (Token × Cursor) := do
  let start := c.mark
  let (handle, suffix, last) ←
    if c.rest[1]? == some '<' then do
      let (suffix, last) ← tagRest start [] c.skip.skip
      if !last.at_ '>' then last.fail start "did not find the expected '>'"
      else pure ([], suffix, last.skip)
    else do
      let (handle, last) ← tagHandle false start c
      if 1 < handle.length && handle.getLast? == some 33 then
        let (suffix, last) ← tagRest start [] last
        pure (handle, suffix, last)
      else
        let (suffix, last) ← tagRest start handle last
        pure (if suffix.isEmpty then ([], [33], last) else ([33], suffix, last))
  if !spaced last.rest then last.fail start "did not find expected whitespace or line break"
  else return (.tag handle suffix, last)

def versionNumber (start : Mark) (c : Cursor) : Except ScanError (Nat × Cursor) :=
  let digits := c.rest.takeWhile Char.isDigit
  if digits.length = 0 then c.fail start "did not find expected version number"
  else if 2 < digits.length then
    (Cursor.skipMany 2 c).fail start "found extremely long version number"
  else .ok (digits.foldl (fun n d => n * 10 + (d.toNat - 48)) 0, Cursor.skipMany digits.length c)

def version (start : Mark) (c : Cursor) : Except ScanError (Token × Cursor) := do
  let (major, c) ← versionNumber start (c.skipWhile isBlank)
  if !c.at_ '.' then c.fail start "did not find expected digit or '.' character"
  else
    let (minor, c) ← versionNumber start c.skip
    return (.version major minor, c)

def handleDirective (start : Mark) (c : Cursor) : Except ScanError (Token × Cursor) := do
  let (name, c) ← tagHandle true start (c.skipWhile isBlank)
  if !c.atBlank then c.fail start "did not find expected whitespace"
  else
    let (expansion, c) ← tagRest start [] (c.skipWhile isBlank)
    if !spaced c.rest then c.fail start "did not find expected whitespace or line break"
    else return (.handle name expansion, c)

def directive (c : Cursor) : Except ScanError (Token × Cursor) := do
  let start := c.mark
  let (name, c) := word c.skip
  if name.isEmpty then c.fail start "could not find expected directive name"
  else if !spaced c.rest then c.fail start "found unexpected non-alphabetical character"
  else
    let (token, c) ←
      if name = bytes "YAML" then version start c
      else if name = bytes "TAG" then handleDirective start c
      else c.fail start "found unknown directive name"
    let c := c.skipWhile isBlank
    let c := if c.at_ '#' then c.toLineEnd else c
    if !ended c.rest then c.fail start "did not find expected comment or line break"
    else return (token, c.skipBreak)

end Yaml

end PrintLang
