import PrintLang.Shell.Builtin

set_option autoImplicit false

namespace PrintLang

namespace Shell

inductive Ending where
  | exited (status : Nat)
  | killed (signal : Nat)
deriving DecidableEq, Repr

namespace Run

def program (runner : Runner) (name : Bytes) (args : List Bytes) (letters script : Bytes) :
    Run PUnit := do
  let stop ← caught <| apart runner do
    modify fun s =>
      { State.start s.tree name args with
        vars := s.vars
        input := s.input
        sinks := s.sinks
        buffers := s.buffers }
    for b in letters do
      setLetter true b
    runner.script script
  match stop with
  | some (.killed n) =>
    let report := Signal.report n
    if report ≠ [] then err (report ++ [10])
    finish (128 + n)
  | _ => pure ()

inductive Request where
  | text (letters name : Bytes) (args : List Bytes) (script : Bytes)
  | file (letters path : Bytes) (args : List Bytes)
  | input (letters : Bytes)
  | refused (message : Bytes)

def request (called letters : Bytes) : List Bytes → Request
  | [] => .input letters
  | [45, 45] :: rest => operands rest
  | [45] :: rest => operands rest
  | [45, 99] :: script :: rest => .text letters (rest.headD called) rest.tail script
  | [45, 111] :: name :: rest =>
    match longNames.find? fun (n, _) => bytes n == name with
    | some (_, b) => request called (letters ++ [b]) rest
    | none => .refused (bytes "Illegal option -o " ++ name)
  | (45 :: b :: more) :: rest =>
    match (b :: more).find? fun c => !(bytes "euxabCfhImnvVEis").contains c with
    | some c => .refused (bytes "Illegal option -" ++ [c])
    | none => request called (letters ++ b :: more) rest
  | words => operands words
where
  operands : List Bytes → Request
    | [] => .input letters
    | path :: rest => .file letters path rest

def shell (runner : Runner) (called : Bytes) (args : List Bytes) : Run PUnit := do
  let refuse (message : Bytes) : Run PUnit := do
    err (called ++ bytes ": 0: " ++ message ++ [10])
    finish 2
  match request called [] args with
  | .refused message => refuse message
  | .text letters name args script => program runner name args letters script
  | .file letters path args =>
    match (← get).tree.readFile path with
    | .ok script => program runner path args letters script
    | .error e => refuse (openError false path e.errno)
  | .input letters =>
    let s ← get
    set { s with input := [] }
    program runner called [] letters s.input

def outer (runner : Runner) (how name : Bytes) (args : List Bytes) : Run PUnit := do
  let inSystem := [bytes "/bin", bytes "/usr/bin"].contains (Path.dir name)
  let short := if inSystem then Path.base name else name
  match if short = bytes "sh" then some (shell runner name args) else Files.command? short name args with
  | some r => r
  | none =>
    if name = [] then refuse (how ++ name ++ bytes ": Permission denied") 127
    else if name.contains Path.slash then
      match (← get).tree.stat name with
      | .error _ => refuse (how ++ name ++ bytes ": not found") 127
      | .ok (.file script true) => program runner name args [] script
      | .ok _ => refuse (how ++ name ++ bytes ": Permission denied") 126
    else refuse (how ++ name ++ bytes ": not found") 127

def call (runner : Runner) (body : Command) (tested : Bool) (args : List Bytes) : Run PUnit := do
  let keep (before after : State) : State :=
    let vars := (after.locals.getD []).foldl (fun vars (name, old) =>
      match old with
      | some v => (name, v) :: without name vars
      | none => without name vars) after.vars
    { after with args := before.args, locals := before.locals, loops := before.loops, vars := vars }
  restoring keep do
    modify fun s => { s with args := args, locals := some [], loops := 0, status := 0 }
    match ← caught (runner.command tested body) with
    | none | some .back => pure ()
    | some stop => throw stop

def dispatch (runner : Runner) (tested functions : Bool) (name : Bytes) (args : List Bytes) :
    Run PUnit := do
  let known := (← get).functions
  match special? runner name args with
  | some r => r
  | none =>
  match if functions then valueOf? name known else none with
  | some body => call runner body tested args
  | none =>
  match regular? runner name args with
  | some r => r
  | none => outer runner [] name args

def byName (runner : Runner) (tested : Bool) : List Bytes → Run PUnit
  | [] => succeed
  | [45, 118] :: name :: _ => do
    let s ← get
    if (valueOf? name s.functions).isSome || (special? runner name []).isSome ||
        (regular? runner name []).isSome then
      succeed
      out (name ++ [10])
    else if (Files.command? name name []).isSome || name = bytes "sh" then
      succeed
      out (bytes "/usr/bin/" ++ name ++ [10])
    else finish 127
  | name :: args => dispatch runner tested false name args

def assignAll (runner : Runner) (as : List (Bytes × Word)) : Run (List Bytes) := do
  let mut shown := []
  for (name, w) in as do
    let v ← Word.text (capture runner) w
    modify (·.assign name v)
    shown := shown ++ [name ++ 61 :: v]
  return shown

def trace (words : List Bytes) : Run PUnit := do
  if (← get).options.trace then err (bytes "+ " ++ Bytes.join [32] words ++ [10])

def simple (runner : Runner) (tested : Bool) (c : Simple) : Run PUnit := do
  modify fun s => { s with line := c.line, filled := none }
  let mut fields : List Bytes := []
  for w in c.words do
    fields := fields ++ (← Word.fields (capture runner) w)
  match fields with
  | [] =>
    redirected runner c.redirects do
      let shown ← assignAll runner c.assignments
      if !shown.isEmpty then trace shown
      modify fun s => { s with status := s.filled.getD 0 }
  | name :: args =>
    let before := (← get).vars
    let shown ← assignAll runner c.assignments
    trace (shown ++ fields)
    let stays := (specialCommands.map bytes).contains name
    let undo (s : State) : State := if stays || shown.isEmpty then s else { s with vars := before }
    restoring (fun _ s => undo s) do
      if name = bytes "exec" then
        match ← redirectAll runner c.redirects with
        | some problem => abort problem
        | none => succeed
        match args with
        | [] => pure ()
        | name :: args =>
          outer runner (bytes "exec: ") name args
          modify fun s => { s with traps := [] }
          throw .exit
      else redirected runner c.redirects <|
        if name = bytes "command" then byName runner tested args
        else dispatch runner tested true name args

def round (body : Run PUnit) : Run Bool := do
  match ← caught body with
  | none => return true
  | some (.leave n) => if n ≤ 1 then return false else throw (.leave (n - 1))
  | some (.again n) => if n ≤ 1 then return true else throw (.again (n - 1))
  | some stop => throw stop

def inLoop (r : Run PUnit) : Run PUnit :=
  restoring (fun before after => { after with loops := before.loops }) do
    modify fun s => { s with loops := s.loops + 1 }
    r

/-- Runs a loop; `last` is the status of its last round. -/
def rounds (test body : Run PUnit) (whileFails : Bool) : (fuel last : Nat) → Run PUnit
  | 0, last => finish last
  | fuel + 1, last => do
    let goes ← round test
    if goes && ((← get).status == 0) != whileFails then
      let goes ← round body
      if goes then rounds test body whileFails fuel (← get).status
    else finish last

def eachValue (name : Bytes) (body : Run PUnit) : List Bytes → Run PUnit
  | [] => pure ()
  | v :: rest => do
    modify (·.assign name v)
    if ← round body then eachValue name body rest

def fits (runner : Runner) (s : Bytes) : List Word → Run Bool
  | [] => return false
  | w :: rest => do
    let p := Pattern.ofText (← Word.field (capture runner) w)
    if p.accepts s then return true else fits runner s rest

def armFor (runner : Runner) (s : Bytes) : List (List Word × Command) → Run (Option Command)
  | [] => return none
  | (ps, body) :: rest => do
    if ← fits runner s ps then return some body else armFor runner s rest

/-- Ends a script that wants to end when a command fails; not where the status is tested. -/
def check (tested : Bool) : Run PUnit := do
  let s ← get
  if s.options.stopOnFailure && s.status != 0 && !tested then throw .exit

def orElse (c : Command) (r : Run PUnit) : Run PUnit :=
  match c with
  | .skip => succeed
  | _ => r

def all (command : Command → Run PUnit) : (fuel : Nat) → List (Token × Nat) → Run PUnit
  | 0, _ => pure ()
  | fuel + 1, ts =>
    match readCommand ts with
    | .error f => do
      modify fun s => { s with line := f.line }
      abort (bytes "Syntax error: " ++ f.message)
    | .ok (none, _) => pure ()
    | .ok (some c, rest) => do
      command c
      all command fuel rest

def script (command : Command → Run PUnit) (text : Bytes) (line : Nat) : Run PUnit :=
  let ts := tokens text line
  all command (ts.length + 1) ts

def eval : (fuel : Nat) → (tested : Bool) → Command → Run PUnit
  | 0, _, _ => throw .exit
  | fuel + 1, tested, c => do
    let runner : Runner :=
      { command := fun tested c => eval fuel tested c
        script := fun text => do
          let line := (← get).line
          script (fun c => eval fuel false c) text line }
    match c with
    | .skip => pure ()
    | .simple c =>
      simple runner tested c
      check tested
    | .next a b =>
      eval fuel tested a
      eval fuel tested b
    | .both a b =>
      eval fuel true a
      if (← get).status = 0 then eval fuel tested b
    | .either a b =>
      eval fuel true a
      if (← get).status ≠ 0 then eval fuel tested b
    | .negated c =>
      eval fuel true c
      finish (if (← get).status = 0 then 1 else 0)
    | .pipe a b =>
      let text ← gathered runner (eval fuel tested a)
      let input := (← get).input
      modify fun s => { s with input := text }
      restoring (fun _ s => { s with input := input }) (apart runner (eval fuel tested b))
      check tested
    | .background c =>
      apart runner (eval fuel tested c)
      succeed
    | .group c line rs =>
      modify fun s => { s with line := line }
      redirected runner rs (eval fuel tested c)
    | .inside c line rs =>
      modify fun s => { s with line := line }
      redirected runner rs (apart runner (eval fuel tested c))
      check tested
    | .choose test yes no =>
      eval fuel true test
      if (← get).status = 0 then eval fuel tested yes else orElse no (eval fuel tested no)
    | .repeated whileFails test body =>
      inLoop (rounds (eval fuel true test) (eval fuel tested body) whileFails fuel 0)
    | .each line name words body =>
      modify fun s => { s with line := line }
      let mut values : List Bytes := []
      for w in words do
        values := values ++ (← Word.fields (capture runner) w)
      succeed
      inLoop (eachValue name (eval fuel tested body) values)
    | .select line word arms =>
      modify fun s => { s with line := line }
      match ← armFor runner (← Word.text (capture runner) word) arms with
      | some body => orElse body (eval fuel tested body)
      | none => succeed
    | .define name body =>
      modify fun s => { s with functions := (name, body) :: without name s.functions }
      succeed

end Run

/-- How deep commands may stand in each other and how often a loop may go round. -/
def bound : Nat := 20000

def finishing (r : Runner → Run PUnit) (start : State) : State × Ending :=
  let runner : Runner :=
    { command := fun tested c => Run.eval bound tested c
      script := fun text => Run.script (fun c => Run.eval bound false c) text 1 }
  match Run.atEnd runner (r runner) start with
  | (.error (.killed n), s) => (s, .killed n)
  | (_, s) => (s, .exited (s.status % 256))

def run (t : FileTree) (called : Bytes) (args : List Bytes) : State × Ending :=
  let refuse (message : Bytes) : Run PUnit := do
    Run.err (called ++ bytes ": 0: " ++ message ++ [10])
    Run.finish 2
  let go (letters script : Bytes) (runner : Runner) : Run PUnit := do
    for b in letters do
      Run.setLetter true b
    runner.script script
  match Run.request called [] args with
  | .refused message => finishing (fun _ => refuse message) (.start t called [])
  | .text letters name args script => finishing (go letters script) (.start t name args)
  | .file letters path args =>
    match t.readFile path with
    | .ok script => finishing (go letters script) (.start t path args)
    | .error e => finishing (fun _ => refuse (Run.openError false path e.errno)) (.start t called [])
  | .input _ => (.start t called [], .exited 0)

end Shell

end PrintLang
