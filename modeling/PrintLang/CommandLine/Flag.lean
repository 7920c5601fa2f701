import PrintLang.Bytes.Integer
import PrintLang.Bytes.Quoted

/-!
# Flags

The flags of the command line and how arguments set them. A long flag takes its value after `=` or
from the next argument; short ones may stand together, and the last of them may have its value
attached. A switch needs no value. Flags and other arguments may be mixed, and `--` ends the flags.
-/

set_option autoImplicit false

namespace PrintLang

inductive Flag where
  | config
  | verbose
  | color
  | target
  | help
  | outDir
  | link
  | jobs
  | tokens
  | nodes
  | asm
deriving DecidableEq, Repr

/-- The values of all flags. Those that a command does not take keep their defaults. -/
structure Options where
  config : Bytes := []
  verbose : Bool := false
  color : Bytes := []
  target : Bytes := []
  help : Bool := false
  outDir : Bytes := []
  link : Bool := false
  jobs : Int := 0
  tokens : Bool := false
  nodes : Bool := false
  asm : Bool := false
deriving DecidableEq, Repr

inductive FlagValueError where
  | switch (value : Bytes)
  | number (value : Bytes) (e : IntegerError)
deriving DecidableEq, Repr

def FlagValueError.message : FlagValueError → Bytes
  | .switch v => bytes "strconv.ParseBool: parsing " ++ quoted v ++ bytes ": invalid syntax"
  | .number v e => bytes "strconv.ParseInt: parsing " ++ quoted v ++ bytes ": " ++ e.message

namespace Flag

def name : Flag → Bytes
  | .config => bytes "config"
  | .verbose => bytes "verbose"
  | .color => bytes "color"
  | .target => bytes "target"
  | .help => bytes "help"
  | .outDir => bytes "out-dir"
  | .link => bytes "link"
  | .jobs => bytes "jobs"
  | .tokens => bytes "tokens"
  | .nodes => bytes "nodes"
  | .asm => bytes "asm"

def letter? : Flag → Option UInt8
  | .verbose => some 118
  | .help => some 104
  | .outDir => some 111
  | .jobs => some 106
  | _ => none

def isSwitch : Flag → Bool
  | .verbose | .help | .link | .tokens | .nodes | .asm => true
  | _ => false

def shown (f : Flag) : Bytes :=
  match f.letter? with
  | some c => 45 :: c :: bytes ", --" ++ f.name
  | none => bytes "--" ++ f.name

def truth? (v : Bytes) : Option Bool :=
  if [bytes "1", bytes "t", bytes "T", bytes "true", bytes "TRUE", bytes "True"].contains v then
    some true
  else if [bytes "0", bytes "f", bytes "F", bytes "false", bytes "FALSE", bytes "False"].contains v then
    some false
  else none

def set (f : Flag) (o : Options) (v : Bytes) : Except FlagValueError Options :=
  let switch (put : Bool → Options) : Except FlagValueError Options :=
    match truth? v with
    | some b => .ok (put b)
    | none => .error (.switch v)
  match f with
  | .config => .ok { o with config := v }
  | .color => .ok { o with color := v }
  | .target => .ok { o with target := v }
  | .outDir => .ok { o with outDir := v }
  | .verbose => switch fun b => { o with verbose := b }
  | .help => switch fun b => { o with help := b }
  | .link => switch fun b => { o with link := b }
  | .tokens => switch fun b => { o with tokens := b }
  | .nodes => switch fun b => { o with nodes := b }
  | .asm => switch fun b => { o with asm := b }
  | .jobs =>
    match Integer.read .marked 64 v with
    | .ok n => .ok { o with jobs := n }
    | .error e => .error (.number v e)

end Flag

/-- Why arguments cannot be read as flags. A short flag is cited with what stood after it. -/
inductive FlagError where
  | badForm (arg : Bytes)
  | unknown (name : Bytes)
  | unknownLetter (letter : UInt8) (letters : Bytes)
  | noValue (name : Bytes)
  | noLetterValue (letter : UInt8) (letters : Bytes)
  | badValue (flag : Flag) (value : Bytes) (e : FlagValueError)
deriving DecidableEq, Repr

namespace FlagError

/-- A letter beyond ASCII is cited by the first byte of its two-byte form. -/
def cited (c : UInt8) : Bytes :=
  quotedByte (if c < 0x80 then c else if c < 0xc0 then 0xc2 else 0xc3)

def message : FlagError → Bytes
  | .badForm arg => bytes "bad flag syntax: " ++ arg
  | .unknown name => bytes "unknown flag: --" ++ name
  | .unknownLetter c cs => bytes "unknown shorthand flag: " ++ cited c ++ bytes " in -" ++ cs
  | .noValue name => bytes "flag needs an argument: --" ++ name
  | .noLetterValue c cs => bytes "flag needs an argument: " ++ cited c ++ bytes " in -" ++ cs
  | .badValue f v e =>
    bytes "invalid argument " ++ quoted v ++ bytes " for " ++ quoted f.shown ++ bytes " flag: " ++
      e.message

end FlagError

namespace Flag

def assign (o : Options) (f : Flag) (v : Bytes) : Except FlagError Options :=
  match f.set o v with
  | .ok o => .ok o
  | .error e => .error (.badValue f v e)

/-- What an argument leaves: the options, and the flag that takes its value from the next argument
with the error for when there is none. -/
abbrev Pending := Options × Option (Flag × FlagError)

def readLong (flags : List Flag) (o : Options) (body : Bytes) : Except FlagError Pending :=
  if body.head? = some 45 ∨ body.head? = some 61 then .error (.badForm (bytes "--" ++ body))
  else
    let name := body.takeWhile (· != 61)
    match flags.find? (·.name == name), body.drop name.length with
    | none, _ => .error (.unknown name)
    | some f, _ :: v => (f.assign o v).map (·, none)
    | some f, [] =>
      if f.isSwitch then (f.assign o (bytes "true")).map (·, none)
      else .ok (o, some (f, .noValue name))

/-- Sets short flags, given without their dash. Those of a test run are passed over. -/
def readLetters (flags : List Flag) (o : Options) : Bytes → Except FlagError Pending
  | [] => .ok (o, none)
  | c :: rest =>
    if Bytes.startsWith (c :: rest) (bytes "test.") then .ok (o, none)
    else match flags.find? (·.letter? == some c), rest with
    | none, _ => .error (.unknownLetter c (c :: rest))
    | some f, 61 :: v :: vs => (f.assign o (v :: vs)).map (·, none)
    | some f, rest =>
      if f.isSwitch then
        match f.assign o (bytes "true") with
        | .ok o => readLetters flags o rest
        | .error e => .error e
      else if rest = [] then .ok (o, some (f, .noLetterValue c [c]))
      else (f.assign o rest).map (·, none)

def readOne (flags : List Flag) (o : Options) : Bytes → Except FlagError Pending
  | 45 :: 45 :: body => readLong flags o body
  | 45 :: letters => readLetters flags o letters
  | _ => .ok (o, none)

def isFlag : Bytes → Bool
  | 45 :: _ :: _ => true
  | _ => false

def readAll (flags : List Flag) : Options → List Bytes → Except FlagError (Options × List Bytes)
  | o, [] => .ok (o, [])
  | o, arg :: rest =>
    if !isFlag arg then (readAll flags o rest).map fun (o, args) => (o, arg :: args)
    else if arg = bytes "--" then .ok (o, rest)
    else match readOne flags o arg with
      | .error e => .error e
      | .ok (o, none) => readAll flags o rest
      | .ok (o, some (f, missing)) =>
        match rest with
        | [] => .error missing
        | v :: rest =>
          match f.assign o v with
          | .error e => .error e
          | .ok o => readAll flags o rest

end Flag

end PrintLang
