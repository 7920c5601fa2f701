import PrintLang.Bytes.Quoted
import PrintLang.Token.Lexer

set_option autoImplicit false

namespace PrintLang

inductive Paint where
  | bold
  | redBold
  | greenBold
deriving DecidableEq, Repr

def Paint.apply (p : Paint) (colored : Bool) (s : Bytes) : Bytes :=
  if colored then
    match p with
    | .bold => bytes "\x1b[1m" ++ s ++ bytes "\x1b[22m"
    | .redBold => bytes "\x1b[31;1m" ++ s ++ bytes "\x1b[0;22m"
    | .greenBold => bytes "\x1b[32;1m" ++ s ++ bytes "\x1b[0;22m"
  else s

def shorten (s : Bytes) : Bytes := if s.length ≤ 16 then s else s.take 16 ++ bytes "..."

def InvalidToken.message (t : InvalidToken) : Bytes :=
  bytes "invalid token: " ++ t.reason ++ bytes " " ++ quoted (shorten t.text)

structure LexicalError where
  file : Bytes
  tokens : List InvalidToken
deriving DecidableEq, Repr

namespace LexicalError

def position (e : LexicalError) (t : InvalidToken) : Bytes :=
  if e.file = [] then t.loc.render else e.file ++ bytes ":" ++ t.loc.render

def message (e : LexicalError) : Bytes :=
  Bytes.join [10] (e.tokens.map fun t => e.position t ++ bytes ": " ++ t.message)

def render (e : LexicalError) (colored : Bool) : Bytes :=
  e.tokens.flatMap fun t =>
    Paint.bold.apply colored (e.position t ++ bytes ":") ++ bytes " " ++
      Paint.redBold.apply colored (bytes "error:") ++ bytes " " ++ t.message ++ [10]

end LexicalError

inductive ParseErrorKind where
  | unexpectedToken
  | invalidLiteral
deriving DecidableEq, Repr

def ParseErrorKind.text : ParseErrorKind → Bytes
  | .unexpectedToken => bytes "unexpected token"
  | .invalidLiteral => bytes "invalid literal"

/-- Why a byte cannot be repeated: a negative number of times, or more often than fits in a text. -/
inductive Undrawable where
  | negative
  | tooLong
deriving DecidableEq, Repr

/-- A refused token with its place. `context` is the part of its line that is shown, and `caret` is
the offset of the token in it. A `detail` replaces the message made from `expected` and `got`. -/
structure ParseError where
  kind : ParseErrorKind
  file : Bytes
  loc : Location
  mark : Mark
  got : TokenKind
  expected : List TokenKind
  detail : Bytes
  context : Bytes
  caret : Int
deriving DecidableEq, Repr

namespace ParseError

def text (e : ParseError) : Bytes :=
  if e.detail ≠ [] then e.detail
  else match e.expected with
    | [] => bytes "unexpected " ++ e.got.name
    | [k] => bytes "expected " ++ k.name ++ bytes ", got " ++ e.got.name
    | ks =>
      bytes "expected one of " ++ Bytes.join (bytes ", ") (ks.map TokenKind.name) ++
        bytes ", got " ++ e.got.name

def message (e : ParseError) : Bytes :=
  e.file ++ bytes ":" ++ e.loc.render ++ bytes ": " ++ e.kind.text ++ bytes ": " ++ e.text

def undrawable? (n : Int) : Option Undrawable :=
  if n < 0 then some .negative
  else if (Bytes.maxSize : Int) < n then some .tooLong
  else none

/-- Why the carets cannot be drawn: the offset of the token counts before its length. -/
def caretFault? (e : ParseError) : Option Undrawable :=
  undrawable? e.caret <|> undrawable? e.mark.length

def caretLine (e : ParseError) : Bytes :=
  List.replicate e.caret.toNat 32 ++ List.replicate e.mark.length.toNat 94

def render (e : ParseError) (colored : Bool) : Bytes :=
  Paint.bold.apply colored (e.file ++ bytes ":" ++ e.loc.render ++ bytes ":") ++ bytes " " ++
    Paint.redBold.apply colored (bytes "error:") ++ bytes " " ++ e.text ++ [10] ++
    e.context ++ [10] ++
    Paint.greenBold.apply colored e.caretLine ++ [10]

end ParseError

inductive LoweringErrorKind where
  | unimplemented
  | unreachable
deriving DecidableEq, Repr

def LoweringErrorKind.text : LoweringErrorKind → Bytes
  | .unimplemented => bytes "unimplemented"
  | .unreachable => bytes "unreachable"

structure LoweringError where
  kind : LoweringErrorKind
  node : Int
  what : Bytes
deriving DecidableEq, Repr

def LoweringError.message (e : LoweringError) : Bytes :=
  bytes "codegen: " ++ e.kind.text ++ bytes ": " ++ e.what ++ bytes " (node " ++ decimal e.node ++
    bytes ")"

end PrintLang
