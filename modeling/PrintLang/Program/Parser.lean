import PrintLang.Bytes.Integer
import PrintLang.Diagnostic
import PrintLang.Diagnostic.Context
import PrintLang.Program

/-!
# From tokens to a program

A program is one or more statements `println ( literal )`, then the end of input; comments may stand
anywhere. The grammar is regular, so the reader walks the tokens once and keeps only the phase that
it is in. It stops at the first token that no program could have in that place.
-/

set_option autoImplicit false

namespace PrintLang

/-- Why the reader stops: a token in a phase that wants another, or an integer too large. -/
inductive Rejection where
  | unexpected (token : Nat) (expected : List TokenKind)
  | tooLarge (token : Nat) (type : TypeKind)
deriving DecidableEq, Repr

inductive Phase where
  /-- A statement; `started` says whether one was read already, so that the input may end. -/
  | keyword (started : Bool)
  | opening (first : Nat)
  | argument (first : Nat)
  | closing (first token : Nat) (literal : Literal)
deriving DecidableEq, Repr

namespace Literal

def kinds : List TokenKind := [.kwTrue, .kwFalse, .string, .integer, .char]

def unquote (text : Bytes) : Bytes :=
  let quote := if 6 ≤ text.length ∧ Bytes.startsWith text [34, 34, 34] then 3 else 1
  Bytes.slice text quote (text.length - quote)

/-- The value of an integer token, or the type that it does not fit in. With the suffix `L` it is
long. -/
def ofInteger (text : Bytes) : Except TypeKind Literal :=
  if Bytes.endsWith text [76] then
    match Integer.read .decimal 64 text.dropLast with
    | .ok v => .ok (.long (Int64.ofInt v))
    | .error _ => .error .long
  else
    match Integer.read .decimal 32 text with
    | .ok v => .ok (.int (Int64.ofInt v))
    | .error _ => .error .int

def ofToken (i : Nat) (kind : TokenKind) (text : Bytes) : Except Rejection Literal :=
  match kind with
  | .kwTrue => .ok (.bool true)
  | .kwFalse => .ok (.bool false)
  | .string => .ok (.string (unquote text))
  | .integer =>
    match ofInteger text with
    | .ok l => .ok l
    | .error type => .error (.tooLarge i type)
  | .char => .ok (.char (text.getD 1 0))
  | _ => .error (.unexpected i kinds)

end Literal

namespace Parser

/-- Reads the statements from a phase on; the tokens come with their indices and without comments. -/
def statements (source : Bytes) : Phase → List (Token × Nat) → Except Rejection (List Statement)
  | _, [] => .ok []
  | .keyword started, (t, i) :: rest =>
    if t.kind = .kwPrintln then statements source (.opening i) rest
    else if t.kind = .eof ∧ started then .ok []
    else .error (.unexpected i [.kwPrintln])
  | .opening first, (t, i) :: rest =>
    if t.kind = .lparen then statements source (.argument first) rest
    else .error (.unexpected i [.lparen])
  | .argument first, (t, i) :: rest =>
    match Literal.ofToken i t.kind (t.text source) with
    | .ok l => statements source (.closing first i l) rest
    | .error e => .error e
  | .closing first token literal, (t, i) :: rest =>
    if t.kind = .rparen then
      match statements source (.keyword true) rest with
      | .ok sts => .ok (⟨first, token, literal, i⟩ :: sts)
      | .error e => .error e
    else .error (.unexpected i [.rparen])

end Parser

namespace TokenStream

def significant (ts : TokenStream) : List (Token × Nat) :=
  ts.tokens.toList.zipIdx.filter fun (t, _) => t.kind != .comment

def parseError (ts : TokenStream) (file : Bytes) (kind : ParseErrorKind) (i : Nat)
    (expected : List TokenKind) (detail : Bytes) : ParseError :=
  let t := ts.tokens.getD i ⟨.eof, 0, 0, ⟨0, 0⟩⟩
  let (context, caret) := ts.context i t
  { kind, file, loc := t.loc, mark := t.mark, got := t.kind, expected, detail, context, caret }

def rejected (ts : TokenStream) (file : Bytes) : Rejection → ParseError
  | .unexpected i expected => ts.parseError file .unexpectedToken i expected []
  | .tooLarge i type =>
    ts.parseError file .invalidLiteral i [] (bytes "integer literal " ++ ts.text i ++
      bytes " does not fit in " ++ type.name)

end TokenStream

def parse (file : Bytes) (ts : TokenStream) : Except ParseError Program :=
  match Parser.statements ts.source (.keyword false) ts.significant with
  | .ok sts => .ok ⟨file, ts, Store.ofStatements sts⟩
  | .error e => .error (ts.rejected file e)

end PrintLang
