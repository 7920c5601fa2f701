import PrintLang.Bytes.Lower
import PrintLang.CommandLine.Flag

set_option autoImplicit false

namespace PrintLang

inductive Command where
  | build
  | run
  | dump
  | version
  | help
  | completion
deriving DecidableEq, Repr

namespace Command

def name : Command → Bytes
  | .build => bytes "build"
  | .run => bytes "run"
  | .dump => bytes "dump"
  | .version => bytes "version"
  | .help => bytes "help"
  | .completion => bytes "completion"

def all : List Command := [.build, .run, .dump, .version, .help, .completion]

def ofName? (s : Bytes) : Option Command := all.find? (·.name == s)

def commonFlags : List Flag := [.config, .verbose, .color, .target]

def ownFlags : Command → List Flag
  | .build => [.outDir, .link, .jobs]
  | .dump => [.tokens, .nodes, .asm]
  | _ => []

end Command

def editRow (c : UInt8) : (left : Nat) → Bytes → List Nat → List Nat
  | left, b :: t, diagonal :: above :: row =>
    let d := if b = c then diagonal else min left (min diagonal above) + 1
    d :: editRow c d t (above :: row)
  | _, _, _ => []

def editDistance (s t : Bytes) : Nat :=
  let rows := s.foldl (fun row c =>
    let left := row.headD 0 + 1
    left :: editRow c left t row) (List.range (t.length + 1))
  rows.getLastD 0

/-- The commands that a word resembles: it is two edits away at most, or starts the name. -/
def Command.similar (word : Bytes) : List Command :=
  let w := Bytes.mapCodes lowerCode word
  (all.filter (· != .help)).filter fun c =>
    editDistance w c.name ≤ 2 || Bytes.startsWith c.name w

inductive UsageError where
  | flag (e : FlagError)
  | unknownCommand (word : Bytes)
  | notOne (received : Nat)
  | none
deriving DecidableEq, Repr

namespace UsageError

def message : UsageError → Bytes
  | .flag e => e.message
  | .unknownCommand word =>
    let hints := match Command.similar word with
      | [] => []
      | cs => bytes "\n\nDid you mean this?\n" ++ cs.flatMap fun c => 9 :: c.name ++ [10]
    bytes "unknown command " ++ quoted word ++ bytes " for \"kotc\"" ++ hints
  | .notOne n => bytes "accepts 1 arg(s), received " ++ decimalNat n
  | .none => bytes "requires at least 1 arg(s), only received 0"

end UsageError

inductive Request where
  | help
  | perform (c : Command) (o : Options) (args : List Bytes)
deriving DecidableEq, Repr

namespace Request

/-- Whether the argument before a command takes the next one as its value. A flag that is not known
counts as one that does. -/
def takesNext (arg : Bytes) : Bool :=
  !arg.contains 61 && match arg with
    | 45 :: 45 :: name => !Command.commonFlags.any fun f => f.isSwitch && f.name == name
    | [45, c] => !Command.commonFlags.any fun f => f.isSwitch && f.letter? == some c
    | _ => false

/-- The word that names the command. A flag value at the end of the line names none. -/
def commandWord? : List Bytes → Option Bytes
  | [] => none
  | arg :: rest =>
    if arg = bytes "--" then none
    else if takesNext arg then
      match rest with
      | _ :: rest => if rest = [] then none else commandWord? rest
      | [] => none
    else if arg = [] ∨ arg.head? = some 45 then commandWord? rest
    else some arg

def withoutWord (word : Bytes) : List Bytes → List Bytes
  | [] => []
  | arg :: rest =>
    if arg = bytes "--" then arg :: rest
    else if takesNext arg then
      match rest with
      | v :: rest => arg :: v :: withoutWord word rest
      | [] => [arg]
    else if arg = word ∧ arg.head? ≠ some 45 then rest
    else arg :: withoutWord word rest

def checkCount (c : Command) (n : Nat) : Except UsageError Unit :=
  match c with
  | .run | .dump => if n = 1 then .ok () else .error (.notOne n)
  | .build => if n = 0 then .error .none else .ok ()
  | _ => .ok ()

def read (args : List Bytes) : Except UsageError Request :=
  let flagsOf (own : List Flag) := Command.commonFlags ++ .help :: own
  match commandWord? args with
  | none =>
    match Flag.readAll (flagsOf []) {} args with
    | .error e => .error (.flag e)
    | .ok _ => .ok .help
  | some word =>
    match Command.ofName? word with
    | none => .error (.unknownCommand word)
    | some c =>
      match Flag.readAll (flagsOf c.ownFlags) {} (withoutWord word args) with
      | .error e => .error (.flag e)
      | .ok (o, rest) =>
        if o.help || c == .help || c == .completion then .ok .help
        else match checkCount c rest.length with
          | .error e => .error e
          | .ok () => .ok (.perform c o rest)

end Request

end PrintLang
