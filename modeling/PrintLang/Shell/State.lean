import PrintLang.FileTree
import PrintLang.Shell

set_option autoImplicit false

namespace PrintLang

namespace Shell

inductive Sink where
  | buffer (number : Nat)
  | file (path : Bytes)
  | nowhere
deriving DecidableEq, Repr

structure Options where
  stopOnFailure : Bool
  refuseUnset : Bool
  trace : Bool
deriving DecidableEq, Repr

/-- The state of a script. Buffer zero gathers what the script writes, and every command whose output is
filled in into a word has one more; `filled` is the status of the last of those. In a function, `locals`
are the values that parameters had outside of it; `loops` counts the loops around the command. -/
structure State where
  tree : FileTree
  name : Bytes
  args : List Bytes
  vars : List (Bytes × Bytes)
  functions : List (Bytes × Command)
  traps : List (Nat × Bytes)
  options : Options
  status : Nat
  line : Nat
  input : Bytes
  sinks : List (Nat × Sink)
  buffers : List Bytes
  filled : Option Nat
  locals : Option (List (Bytes × Option Bytes))
  loops : Nat

inductive Stop where
  | exit
  | killed (signal : Nat)
  | leave (loops : Nat)
  | again (loops : Nat)
  | back

/-- The part of a script that is still to run may be left; what it has done so far stays. -/
abbrev Run (α : Type) := ExceptT Stop (StateM State) α

def ownNumber : Bytes := bytes "2"

def valueOf? {α β : Type} [DecidableEq α] (key : α) (table : List (α × β)) : Option β :=
  (table.find? fun (k, _) => k = key).map (·.2)

def without {α β : Type} [DecidableEq α] (key : α) (table : List (α × β)) : List (α × β) :=
  table.filter fun (k, _) => k ≠ key

namespace State

def start (t : FileTree) (name : Bytes) (args : List Bytes) : State :=
  { tree := t
    name := name
    args := args
    vars := [(bytes "IFS", [32, 9, 10]), (bytes "PWD", t.absolute Path.dot), (bytes "OPTIND", bytes "1")]
    functions := []
    traps := []
    options := ⟨false, false, false⟩
    status := 0
    line := 1
    input := []
    sinks := [(1, .buffer 0), (2, .buffer 0)]
    buffers := [[]]
    filled := none
    locals := none
    loops := 0 }

def letters (o : Options) : Bytes :=
  (if o.stopOnFailure then [101] else []) ++ (if o.refuseUnset then [117] else []) ++
    if o.trace then [120] else []

def value? (s : State) (name : Bytes) : Option Bytes :=
  match name with
  | [35] => some (decimalNat s.args.length)
  | [63] => some (decimalNat s.status)
  | [36] => some ownNumber
  | [45] => some (letters s.options)
  | [33] => none
  | [48] => some s.name
  | _ =>
    if name.all isDigit then
      s.args[(name.foldl (fun n d => 10 * n + (d.toNat - 48)) 0) - 1]?
    else if name = bytes "LINENO" then some (decimalNat s.line)
    else valueOf? name s.vars

def assign (s : State) (name value : Bytes) : State :=
  { s with vars := (name, value) :: without name s.vars }

def emit (s : State) (stream : Nat) (text : Bytes) : State :=
  match valueOf? stream s.sinks with
  | some (.buffer n) => { s with buffers := s.buffers.modify n (· ++ text) }
  | some (.file path) =>
    match s.tree.readFile path with
    | .error _ => s
    | .ok old =>
      match s.tree.writeFile path (old ++ text) with
      | .ok t => { s with tree := t }
      | .error _ => s
  | _ => s

end State

namespace Run

def out (text : Bytes) : Run PUnit := modify (·.emit 1 text)

def err (text : Bytes) : Run PUnit := modify (·.emit 2 text)

def succeed : Run PUnit := modify fun s => { s with status := 0 }

def finish (status : Nat) : Run PUnit := modify fun s => { s with status := status }

def warn (message : Bytes) : Run PUnit := do
  let s ← get
  err (s.name ++ bytes ": " ++ decimalNat s.line ++ bytes ": " ++ message ++ [10])

def refuse (message : Bytes) (status : Nat) : Run PUnit := do
  warn message
  finish status

def abort {α : Type} (message : Bytes) : Run α := do
  warn message
  finish 2
  throw .exit

def caught (r : Run PUnit) : Run (Option Stop) := fun s =>
  match r s with
  | (.ok _, s) => (.ok none, s)
  | (.error stop, s) => (.ok (some stop), s)

end Run

end Shell

end PrintLang
