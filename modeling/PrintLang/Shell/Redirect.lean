import PrintLang.Shell.Expand
import PrintLang.Shell.Files

set_option autoImplicit false

namespace PrintLang

namespace Shell

structure Runner where
  command : (tested : Bool) → Command → Run PUnit
  script : Bytes → Run PUnit

namespace Run

/-- Runs commands, and puts back what `restore` takes from before them, however they are left. -/
def restoring (restore : State → State → State) (r : Run PUnit) : Run PUnit := do
  let before ← get
  let stop ← caught r
  modify (restore before)
  match stop with
  | some s => throw s
  | none => pure ()

def atEnd (runner : Runner) (r : Run PUnit) : Run PUnit := do
  let stop ← caught r
  match stop, valueOf? 0 (← get).traps with
  | some (.killed n), _ => throw (.killed n)
  | _, some action =>
    let status := (← get).status
    modify fun s => { s with traps := without 0 s.traps }
    match ← caught (runner.script action) with
    | none => finish status
    | some (.killed n) => throw (.killed n)
    | some _ => pure ()
  | _, none => pure ()

/-- Runs commands by themselves: of what they do only their output and what they do to files stays. -/
def apart (runner : Runner) (r : Run PUnit) : Run PUnit := do
  let keep (before after : State) : State :=
    { before with
      tree := { after.tree with workDir := before.tree.workDir }
      buffers := after.buffers
      input := after.input
      status := after.status }
  restoring keep do
    modify fun s => { s with traps := s.traps.filter fun (_, action) => action.isEmpty }
    atEnd runner r

def gathered (runner : Runner) (r : Run PUnit) : Run Bytes := do
  let before ← get
  let number := before.buffers.length
  let stop ← caught do
    modify fun s =>
      { s with buffers := s.buffers ++ [[]], sinks := (1, .buffer number) :: without 1 s.sinks }
    apart runner r
  let text := ((← get).buffers[number]?).getD []
  modify fun s => { s with buffers := s.buffers.take number, sinks := before.sinks }
  match stop with
  | some s => throw s
  | none => return text

def capture (runner : Runner) (script : Bytes) : Run Bytes := do
  let text ← gathered runner (runner.script script)
  modify fun s => { s with filled := some s.status }
  return text

def openError (creates : Bool) (path : Bytes) (e : Errno) : Bytes :=
  let reason := match e with
    | .notFound | .notDirectory => bytes (if creates then "Directory nonexistent" else "No such file")
    | _ => Files.reason e
  bytes (if creates then "cannot create " else "cannot open ") ++ path ++ bytes ": " ++ reason

def redirect (runner : Runner) (r : Redirect) : Run (Option Bytes) := do
  match r with
  | .here _ body =>
    let text ← Word.text (capture runner) body
    modify fun s => { s with input := text }
    return none
  | .file n mode target =>
    let path ← Word.text (capture runner) target
    let s ← get
    let lead (sink : Sink) : Run (Option Bytes) := do
      modify fun s => { s with sinks := (n, sink) :: without n s.sinks }
      return none
    match mode with
    | .duplicate =>
      if path = [45] then
        set { s with sinks := without n s.sinks }
        return none
      else match path with
      | [d] =>
        if !isDigit d then noStream
        else
          let source := d.toNat - 48
          match valueOf? source s.sinks with
          | some sink => lead sink
          | none => return if source = 0 then none else some (path ++ bytes ": Bad file descriptor")
      | _ => noStream
    | .input =>
      if path = bytes "/dev/null" then
        set { s with input := [] }
        return none
      match s.tree.readFile path with
      | .ok content =>
        set { s with input := content }
        return none
      | .error e =>
        if e.errno = .isDirectory then
          set { s with input := [] }
          return none
        return some (openError false path e.errno)
    | _ =>
      if path = bytes "/dev/null" then lead .nowhere
      else if path = bytes "/dev/stdout" then lead ((valueOf? 1 s.sinks).getD .nowhere)
      else if path = bytes "/dev/stderr" then lead ((valueOf? 2 s.sinks).getD .nowhere)
      else
        let old := (s.tree.readFile path).toOption.getD []
        match s.tree.writeFile path (if mode = .append then old else []) with
        | .ok t =>
          set { s with tree := t }
          lead (.file (t.absolute path))
        | .error e => return some (openError true path e.errno)
where
  /-- A word that names no stream is found when the command has been read to the end of its line. -/
  noStream : Run (Option Bytes) := do
    modify fun s => { s with line := s.line + 1 }
    abort (bytes "Syntax error: Bad fd number")

def redirectAll (runner : Runner) : List Redirect → Run (Option Bytes)
  | [] => return none
  | r :: rest => do
    match ← redirect runner r with
    | some problem => return some problem
    | none => redirectAll runner rest

def readsInput : Redirect → Bool
  | .here _ _ => true
  | .file _ mode _ => mode == .input

def redirected (runner : Runner) (rs : List Redirect) (body : Run PUnit) : Run PUnit := do
  let keep (before after : State) : State :=
    { after with
      sinks := before.sinks
      input := if rs.any readsInput then before.input else after.input }
  restoring keep do
    match ← redirectAll runner rs with
    | some problem => refuse problem 2
    | none => body

end Run

end Shell

end PrintLang
