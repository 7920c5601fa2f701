import PrintLang.Shell.Format
import PrintLang.Shell.Reader
import PrintLang.Shell.Redirect
import PrintLang.Shell.Test
import PrintLang.Signal

set_option autoImplicit false

namespace PrintLang

namespace Shell

namespace Run

def number (command arg : Bytes) : Run Nat := do
  match Integer.read .decimal 32 (Bytes.trimBy (fun b => b == 32 || (9 ≤ b && b ≤ 13)) arg) with
  | .ok (.ofNat n) => return n
  | _ => abort (command ++ bytes ": Illegal number: " ++ arg)

def firstNumber (command : Bytes) (usual : Nat) : List Bytes → Run Nat
  | [] => return usual
  | a :: _ => number command a

def setLetter (on : Bool) (b : UInt8) : Run PUnit := do
  let o := (← get).options
  let set (o : Options) : Run PUnit := modify fun s => { s with options := o }
  match b with
  | 101 => set { o with stopOnFailure := on }
  | 117 => set { o with refuseUnset := on }
  | 120 => set { o with trace := on }
  | _ =>
    if (bytes "abCfhImnvVEi").contains b then pure ()
    else abort (bytes "set: Illegal option -" ++ [b])

def longNames : List (String × UInt8) :=
  [("errexit", 101), ("nounset", 117), ("xtrace", 120), ("noglob", 102), ("noclobber", 67),
    ("allexport", 97), ("verbose", 118), ("notify", 98), ("monitor", 109)]

def setOptions : List Bytes → Run PUnit
  | [] => pure ()
  | [45, 45] :: rest => modify fun s => { s with args := rest }
  | [[45, 111]] => pure ()
  | [sign, 111] :: name :: rest => do
    match longNames.find? fun (n, _) => bytes n == name with
    | some (_, b) => setLetter (sign == 45) b
    | none => abort (bytes "set: Illegal option -o " ++ name)
    setOptions rest
  | (45 :: b :: letters) :: rest => do
    for c in b :: letters do
      setLetter true c
    setOptions rest
  | (43 :: b :: letters) :: rest => do
    for c in b :: letters do
      setLetter false c
    setOptions rest
  | words => modify fun s => { s with args := words }

def trap (args : List Bytes) : Run PUnit := do
  let (action, signals) := match args with
    | action :: s :: rest => (some action, s :: rest)
    | rest => (none, rest)
  for name in signals do
    match Signal.ofName? name with
    | none =>
      err (bytes "trap: " ++ name ++ bytes ": bad trap\n")
      finish 1
    | some n =>
      modify fun s => { s with traps := without n s.traps }
      match action with
      | some a => if a ≠ [45] then modify fun s => { s with traps := (n, a) :: s.traps }
      | none => pure ()

def signal (runner : Runner) (n : Nat) : Run PUnit := do
  let traps := (← get).traps
  match if n = 0 ∨ n = 9 then none else valueOf? n traps with
  | some [] => pure ()
  | some action =>
    let status := (← get).status
    runner.script action
    finish status
  | none => if Signal.ignored n then pure () else throw (.killed n)

def kill (runner : Runner) (args : List Bytes) : Run PUnit := do
  let (signal?, rest) : Except Bytes Nat × List Bytes := match args with
    | [45, 115] :: name :: rest => (named name, rest)
    | (45 :: 115 :: b :: name) :: rest => (named (b :: name), rest)
    | [45, 45] :: rest => (.ok 15, rest)
    | (45 :: b :: name) :: rest =>
      ((named (b :: name)).mapError fun _ => bytes "Illegal option -" ++ [b], rest)
    | rest => (.ok 15, rest)
  match signal?, rest with
  | .error message, _ => refuse (bytes "kill: " ++ message) 2
  | .ok _, [] =>
    refuse (bytes "kill: Usage: kill [-s sigspec | -signum | -sigspec] [pid | job]... or\n" ++
      bytes "kill -l [exitstatus]") 2
  | .ok n, targets =>
    succeed
    for target in targets do
      if target = ownNumber then signal runner n
      else refuse (bytes "kill: No such process\n") 1
where
  named (name : Bytes) : Except Bytes Nat :=
    match Signal.ofName? name with
    | some n => .ok n
    | none => .error (bytes "invalid signal number or name: " ++ name)

def readLine (args : List Bytes) : Run PUnit := do
  let names := args.filter fun a => a != bytes "-r"
  let s ← get
  let line := s.input.takeWhile (· != 10)
  let behind := s.input.dropWhile (· != 10)
  set { s with input := behind.drop 1 }
  assignAll line names
  finish (if behind.isEmpty then 1 else 0)
where
  isBlank (b : UInt8) : Bool := b == 32 || b == 9 || b == 10
  assignAll (text : Bytes) : List Bytes → Run PUnit
    | [] => pure ()
    | [name] => modify (·.assign name (Bytes.trimBy isBlank text))
    | name :: rest => do
      let text := text.dropWhile isBlank
      modify (·.assign name (text.takeWhile fun b => !isBlank b))
      assignAll (text.dropWhile fun b => !isBlank b) rest

def changeDir (args : List Bytes) : Run PUnit := do
  let s ← get
  let previous := (s.value? (bytes "OLDPWD")).getD []
  match args with
  | [] => succeed
  | path :: _ =>
    let target := if path = [45] then previous else path
    match s.tree.resolve true target with
    | .ok (p, some .directory) =>
      let s := s.assign (bytes "OLDPWD") ((s.value? (bytes "PWD")).getD [])
      set ({ s with tree := { s.tree with workDir := p } }.assign (bytes "PWD")
        (s.tree.absolute target))
      succeed
      if path = [45] then out (previous ++ [10])
    | _ => refuse (bytes "cd: can't cd to " ++ path) 2

def declare (args : List Bytes) : Run PUnit := do
  for a in args do
    match a.dropWhile (· != 61) with
    | 61 :: value => modify (·.assign (a.takeWhile (· != 61)) value)
    | _ => pure ()

def makeLocal (args : List Bytes) : Run PUnit := do
  for a in args do
    let name := a.takeWhile (· != 61)
    modify fun s => { s with locals := s.locals.map ((name, valueOf? name s.vars) :: ·) }
  declare args

/-- Writes what a format makes of the arguments behind it. What is wrong with them comes first. -/
def printf (args : List Bytes) : Run PUnit := do
  match args with
  | [45, 45] :: format :: rest => go format rest
  | (45 :: b :: _) :: _ => refuse (bytes "printf: Illegal option -" ++ [b]) 2
  | format :: rest => go format rest
  | [] => refuse (bytes "printf: usage: printf format [arg ...]") 2
where
  go (format : Bytes) (args : List Bytes) : Run PUnit := do
    let (f, problem) := Formatting.run format args
    for w in f.warnings do
      warn (bytes "printf: " ++ w)
    match problem with
    | some p => refuse (bytes "printf: " ++ p) 2
    | none => finish (if f.warnings.isEmpty then 0 else 1)
    out f.written

def test (name : Bytes) (args : List Bytes) : Run PUnit := do
  match Test.eval (← get).tree args with
  | .ok b => finish (if b then 0 else 1)
  | .error message => refuse (name ++ bytes ": " ++ message) 2

def regular? (runner : Runner) (name : Bytes) (args : List Bytes) : Option (Run PUnit) :=
  if name = bytes "true" then some succeed
  else if name = bytes "false" then some (finish 1)
  else if name = bytes "echo" then some do
    succeed
    if (valueOf? 1 (← get).sinks).isSome then out (echoed args)
    else refuse (bytes "echo: echo: I/O error") 1
  else if name = bytes "printf" then some (printf args)
  else if name = bytes "test" then some (test name args)
  else if name = bytes "[" then
    some (if args.getLast? = some [93] then test name args.dropLast
      else refuse (bytes "[: missing ]") 2)
  else if name = bytes "kill" then some (kill runner args)
  else if name = bytes "cd" then some (changeDir args)
  else if name = bytes "pwd" then some do
    succeed
    out ((← get).tree.absolute Path.dot ++ [10])
  else if name = bytes "read" then some (readLine args)
  else if name = bytes "wait" then some (finish (if args.isEmpty then 0 else 127))
  else if name = bytes "local" then some do
    if (← get).locals.isNone then abort (bytes "local: not in a function")
    succeed
    makeLocal args
  else if ["umask", "ulimit", "hash", "alias", "unalias", "jobs"].any fun n => bytes n == name then
    some succeed
  else none

/-- The commands that change how the script goes on. -/
def special? (runner : Runner) (name : Bytes) (args : List Bytes) : Option (Run PUnit) :=
  if name = bytes ":" ∨ name = bytes "times" then some succeed
  else if name = bytes "exit" then some do
    finish (← firstNumber name (← get).status args)
    throw .exit
  else if name = bytes "return" then some do
    finish (← firstNumber name (← get).status args)
    throw .back
  else if name = bytes "break" then some do
    let n ← firstNumber name 1 args
    succeed
    let loops := (← get).loops
    if loops ≠ 0 then throw (.leave (min n loops))
  else if name = bytes "continue" then some do
    let n ← firstNumber name 1 args
    succeed
    let loops := (← get).loops
    if loops ≠ 0 then throw (.again (min n loops))
  else if name = bytes "shift" then some do
    let n ← firstNumber name 1 args
    let s ← get
    if s.args.length < n then abort (bytes "shift: can't shift that many")
    set { s with args := s.args.drop n, status := 0 }
  else if name = bytes "set" then some do
    succeed
    setOptions args
  else if name = bytes "unset" then some do
    succeed
    for a in args do
      modify fun s => { s with vars := without a s.vars, functions := without a s.functions }
  else if name = bytes "export" ∨ name = bytes "readonly" then some do
    succeed
    declare args
  else if name = bytes "trap" then some do
    succeed
    trap args
  else if name = bytes "eval" then some do
    succeed
    runner.script (Bytes.join [32] args)
  else if name = bytes "." then some do
    match args with
    | [] => succeed
    | path :: _ =>
      match (← get).tree.readFile path with
      | .ok script =>
        succeed
        match ← caught (runner.script script) with
        | none | some .back => pure ()
        | some stop => throw stop
      | .error e => abort (bytes ".: " ++ openError false path e.errno)
  else none

end Run

end Shell

end PrintLang
