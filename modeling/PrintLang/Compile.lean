import PrintLang.Failure
import PrintLang.Lowering
import PrintLang.Machine.Run
import PrintLang.Program.Parser

set_option autoImplicit false

namespace PrintLang

/-- Where compiling stops. A program exists only when its lowering is what failed. -/
inductive CompileError where
  | lexical (e : LexicalError)
  | parse (e : ParseError)
  | generate (e : GenerateError)
deriving DecidableEq, Repr

def CompileError.hasProgram : CompileError → Bool
  | .generate _ => true
  | _ => false

/-- Reads and lowers a source. Invalid tokens are all reported at once, before any parsing. -/
def compile (file source : Bytes) (t : Target) : Except CompileError (Program × Listing) :=
  let lexed := lex source
  if lexed.invalid ≠ [] then .error (.lexical ⟨file, lexed.invalid⟩)
  else match parse file lexed.stream with
    | .error e => .error (.parse e)
    | .ok p =>
      match generate p t with
      | .error e => .error (.generate e)
      | .ok l => .ok (p, l)

/-- The failure for an error of the generator; an index out of range has no message of its own. -/
def GenerateError.failure : GenerateError → Failure
  | .target e => .plain none e.message
  | .node e => .lowering e
  | .badIndex => .plain none (bytes "index out of range")

def CompileError.failure : CompileError → Failure
  | .lexical e => .lexical e
  | .parse e => .parse e
  | .generate e => e.failure

def Fault.class? : Fault → Option ErrorClass
  | .divide => some .divide
  | .wideDividend => some .divide
  | .segfault _ _ => some .segfault
  | .badReturn _ => some .badReturn
  | .badDescriptor _ => some .badSyscall
  | .badSyscall _ => some .badSyscall
  | .unknownSymbol _ => some .unknownSymbol
  | _ => none

def Stop.class? : Stop → Option ErrorClass
  | .stepLimit => some .stepLimit
  | .ranOff => some .ranOff
  | .unknownEntry _ => some .unknownSymbol
  | .fault _ _ f => f.class?

def Stop.failure (s : Stop) : Failure := .plain s.class? s.message

def ListingError.failure (e : ListingError) : Failure := .plain none e.message

def LoadError.failure (e : LoadError) : Failure := .plain none e.message

def Target.syscalls (t : Target) : Syscalls :=
  ⟨UInt64.ofInt t.writeNumber, UInt64.ofInt t.exitNumber⟩

def canceled : Failure := .plain none (bytes "context canceled")

structure RunResult where
  stdout : Bytes
  status : Except Failure Int

def runSource (file source : Bytes) (t : Target) (cancel : Bool) : RunResult :=
  match compile file source t with
  | .error e => ⟨[], .error e.failure⟩
  | .ok (_, listing) =>
    match assemble listing.render with
    | .error e => ⟨[], .error (.context (bytes "reading generated listing") e.failure)⟩
    | .ok image =>
      match Machine.load image with
      | .error e => ⟨[], .error e.failure⟩
      | .ok m =>
        if cancel then ⟨[], .error canceled⟩
        else
          match Machine.run image t.entry { m with syscalls := t.syscalls } with
          | (m, none) => ⟨m.out.toList, .ok m.exitCode⟩
          | (m, some stop) => ⟨m.out.toList, .error (.context file stop.failure)⟩

end PrintLang
