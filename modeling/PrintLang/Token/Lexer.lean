import PrintLang.Token

/-!
# From source text to tokens

One forward pass. Blanks between tokens are skipped; at every other byte the longest token that
starts there is taken, and bytes that start none become an `invalid` token together with what is
wrong, after which the pass goes on. The pass ends with one `eof` token.
-/

set_option autoImplicit false

namespace PrintLang

inductive Defect where
  | openMultiLineString
  | openString
  | openChar
  | charLength
  | strayByte
deriving DecidableEq, Repr

def Defect.reason : Defect → Bytes
  | .openMultiLineString => bytes "unterminated multi-line string literal"
  | .openString => bytes "unterminated string literal"
  | .openChar => bytes "unterminated character literal"
  | .charLength => bytes "character literal must contain exactly one byte"
  | .strayByte => bytes "unexpected character"

namespace Lexer

def isBlank (b : UInt8) : Bool := b == 32 || b == 9 || b == 13 || b == 10

def isLetter (b : UInt8) : Bool := (97 ≤ b && b ≤ 122) || (65 ≤ b && b ≤ 90) || b == 95

def isDigit (b : UInt8) : Bool := 48 ≤ b && b ≤ 57

def isWord (b : UInt8) : Bool := isLetter b || isDigit b

/-- The token at the front of the input: its kind, the number of its bytes after the first, and the
defect of an invalid one. -/
structure Scan where
  kind : TokenKind
  extra : Nat
  defect : Option Defect
deriving DecidableEq, Repr

def Scan.valid (kind : TokenKind) (extra : Nat) : Scan := ⟨kind, extra, none⟩

def Scan.invalid (defect : Defect) (extra : Nat) : Scan := ⟨.invalid, extra, some defect⟩

def scanComment (rest : Bytes) : Scan :=
  .valid .comment (rest.takeWhile (· != 10)).length

def scanWord (b : UInt8) (rest : Bytes) : Scan :=
  let tail := rest.takeWhile isWord
  .valid (TokenKind.ofWord (b :: tail)) tail.length

def scanInteger (rest : Bytes) : Scan :=
  let digits := rest.takeWhile isDigit
  match rest.drop digits.length with
  | 76 :: _ => .valid .integer (digits.length + 1)
  | _ => .valid .integer digits.length

def closing? : Bytes → Option Nat
  | 34 :: 34 :: 34 :: _ => some 3
  | _ :: rest => (closing? rest).map (· + 1)
  | [] => none

/-- A literal in double quotes ends on its line; one in triple quotes may span lines. -/
def scanString (rest : Bytes) : Scan :=
  match rest with
  | 34 :: 34 :: body =>
    match closing? body with
    | some n => .valid .string (n + 2)
    | none => .invalid .openMultiLineString rest.length
  | _ =>
    let body := rest.takeWhile fun b => b != 34 && b != 10
    match rest.drop body.length with
    | 34 :: _ => .valid .string (body.length + 1)
    | _ => .invalid .openString body.length

/-- A character literal holds exactly one byte and ends on its line. -/
def scanChar (rest : Bytes) : Scan :=
  let body := rest.takeWhile fun b => b != 39 && b != 10
  match rest.drop body.length with
  | 39 :: _ =>
    if body.length = 1 then .valid .char 2 else .invalid .charLength (body.length + 1)
  | _ => .invalid .openChar body.length

def withEquals (short long : TokenKind) : Bytes → Scan
  | 61 :: _ => .valid long 1
  | _ => .valid short 0

def scanOperator (b : UInt8) (rest : Bytes) : Scan :=
  match b with
  | 0x7b => .valid .lbrace 0
  | 0x7d => .valid .rbrace 0
  | 40 => .valid .lparen 0
  | 41 => .valid .rparen 0
  | 44 => .valid .comma 0
  | 58 => .valid .colon 0
  | 43 => .valid .plus 0
  | 45 => .valid .minus 0
  | 42 => .valid .star 0
  | 47 => .valid .slash 0
  | 37 => .valid .percent 0
  | 61 => withEquals .assign .equals rest
  | 33 => withEquals .bang .bangEq rest
  | 60 => withEquals .less .lessEq rest
  | 62 => withEquals .greater .greaterEq rest
  | _ => .invalid .strayByte 0

def scan (b : UInt8) (rest : Bytes) : Scan :=
  if b = 47 ∧ rest.head? = some 47 then scanComment rest
  else if isLetter b then scanWord b rest
  else if isDigit b then scanInteger rest
  else if b = 34 then scanString rest
  else if b = 39 then scanChar rest
  else scanOperator b rest

structure Position where
  offset : Nat
  line : Nat
  column : Nat
deriving DecidableEq, Repr

namespace Position

def start : Position := ⟨0, 1, 1⟩

def advance (p : Position) (b : UInt8) : Position :=
  if b = 10 then ⟨p.offset + 1, p.line + 1, 1⟩ else ⟨p.offset + 1, p.line, p.column + 1⟩

def after (p : Position) (text : Bytes) : Position := text.foldl advance p

def loc (p : Position) : Location := ⟨p.line, p.column⟩

end Position

structure Lexeme where
  token : Token
  defect : Option Defect
deriving DecidableEq, Repr

def lexemes (p : Position) (input : Bytes) : List Lexeme :=
  match input with
  | [] => [⟨⟨.eof, p.offset, p.offset, p.loc⟩, none⟩]
  | b :: rest =>
    if isBlank b then lexemes (p.advance b) rest
    else
      let s := scan b rest
      let q := p.after (b :: rest.take s.extra)
      ⟨⟨s.kind, p.offset, q.offset, p.loc⟩, s.defect⟩ :: lexemes q (rest.drop s.extra)
termination_by input.length

end Lexer

/-- An invalid token: its index in the stream, its place, its text and what is wrong. -/
structure InvalidToken where
  index : Int
  loc : Location
  text : Bytes
  reason : Bytes
deriving DecidableEq, Repr

structure Lexed where
  stream : TokenStream
  invalid : List InvalidToken
deriving DecidableEq, Repr

def lex (source : Bytes) : Lexed :=
  let all := Lexer.lexemes .start source
  { stream := ⟨source, (all.map (·.token)).toArray⟩
    invalid := all.zipIdx.filterMap fun (l, i) =>
      l.defect.map fun d => ⟨i, l.token.loc, l.token.text source, d.reason⟩ }

end PrintLang
