import PrintLang.Diagnostic

/-!
# Failures

What can go wrong in a run of the tool: a diagnostic of the compiler, the status of a program that
was run, or a plain cause; each may stand in a context, and several may be joined. The exit status
and the report depend on the causes only through their classes and places.
-/

set_option autoImplicit false

namespace PrintLang

/-- The causes that callers tell apart, in the order in which they are looked for. -/
inductive ErrorClass where
  | invalidToken
  | unexpectedToken
  | invalidLiteral
  | unimplemented
  | unreachable
  | divide
  | segfault
  | badReturn
  | badSyscall
  | stepLimit
  | ranOff
  | unknownSymbol
  | outputConflict
  | notFound
deriving DecidableEq, Repr

def ErrorClass.all : List ErrorClass :=
  [.invalidToken, .unexpectedToken, .invalidLiteral, .unimplemented, .unreachable, .divide,
   .segfault, .badReturn, .badSyscall, .stepLimit, .ranOff, .unknownSymbol, .outputConflict,
   .notFound]

/-- A failure. `status` carries the status of a program that was run. -/
inductive Failure where
  | lexical (e : LexicalError)
  | parse (e : ParseError)
  | lowering (e : LoweringError)
  | status (code : Int)
  | plain (cls : Option ErrorClass) (text : Bytes)
  | context (text : Bytes) (of : Failure)
  | join (first second : Failure)
deriving DecidableEq, Repr

namespace Failure

def joinAll? : List Failure → Option Failure
  | [] => none
  | f :: fs =>
    match joinAll? fs with
    | some g => some (.join f g)
    | none => some f

def message : Failure → Bytes
  | .lexical e => e.message
  | .parse e => e.message
  | .lowering e => e.message
  | .status c => bytes "program exited with status " ++ decimal c
  | .plain _ text => text
  | .context text f => text ++ bytes ": " ++ f.message
  | .join f g => f.message ++ [10] ++ g.message

def has (c : ErrorClass) : Failure → Bool
  | .lexical _ => c == .invalidToken
  | .parse e =>
    match e.kind with
    | .unexpectedToken => c == .unexpectedToken
    | .invalidLiteral => c == .invalidLiteral
  | .lowering e =>
    match e.kind with
    | .unimplemented => c == .unimplemented
    | .unreachable => c == .unreachable
  | .status _ => false
  | .plain cls _ => cls == some c
  | .context _ f => f.has c
  | .join f g => f.has c || g.has c

def class? (f : Failure) : Option ErrorClass := ErrorClass.all.find? f.has

def status? : Failure → Option Int
  | .status c => some c
  | .context _ f => f.status?
  | .join f g => f.status?.or g.status?
  | _ => none

def parse? : Failure → Option ParseError
  | .parse e => some e
  | .context _ f => f.parse?
  | .join f g => f.parse?.or g.parse?
  | _ => none

def lexical? : Failure → Option LexicalError
  | .lexical e => some e
  | .context _ f => f.lexical?
  | .join f g => f.lexical?.or g.lexical?
  | _ => none

/-- The exit status of the tool: the program's own, else three for what is not lowered, two for what
the grammar refuses, one for the rest. -/
def exitCode (f : Failure) : Int :=
  match f.status? with
  | some c => c
  | none =>
    if f.has .unimplemented || f.has .unreachable then 3
    else if f.has .unexpectedToken || f.has .invalidLiteral then 2
    else 1

/-- The failures that are joined, from left to right; a context keeps what it holds together. -/
def leaves : Failure → List Failure
  | .join f g => f.leaves ++ g.leaves
  | f => [f]

/-- The report of one failure: a drawn diagnostic, a line for each invalid token, nothing for the
status of a program, or one line with the message. -/
def reportLeaf (f : Failure) (colored : Bool) : Bytes :=
  match f.parse? with
  | some e => e.render colored
  | none =>
    match f.lexical? with
    | some e => e.render colored
    | none =>
      match f.status? with
      | some _ => []
      | none => Paint.redBold.apply colored (bytes "error:") ++ bytes " " ++ f.message ++ [10]

def report (f : Failure) (colored : Bool) : Bytes := f.leaves.flatMap (reportLeaf · colored)

end Failure

def exitCode : Option Failure → Int
  | none => 0
  | some f => f.exitCode

end PrintLang
