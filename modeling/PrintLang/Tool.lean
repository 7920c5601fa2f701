import PrintLang.Bytes.Blank
import PrintLang.Bytes.Quoted
import PrintLang.Shell.Run

set_option autoImplicit false

namespace PrintLang

structure ToolCall where
  name : Bytes
  args : List Bytes
deriving DecidableEq, Repr

/-- What a call does to the files, and its failure if it fails. -/
abbrev Toolbox := FileTree → ToolCall → FileTree × Option Failure

inductive StartError where
  | refused (e : Errno)
  | denied
  | notProgram
deriving DecidableEq, Repr

def StartError.text : StartError → Bytes
  | .refused e => e.text
  | .denied => bytes "permission denied"
  | .notProgram => bytes "exec format error"

inductive ToolError where
  | noCommand
  | notInPath (name : Bytes)
  | notStarted (path : Bytes) (reason : StartError)
  | exited (status : Nat)
  | killed (signal : Nat)
deriving DecidableEq, Repr

namespace ToolError

def message : ToolError → Bytes
  | .noCommand => bytes "exec: no command"
  | .notInPath name => bytes "exec: " ++ quoted name ++ bytes ": executable file not found in $PATH"
  | .notStarted path reason => bytes "fork/exec " ++ path ++ bytes ": " ++ reason.text
  | .exited status => bytes "exit status " ++ decimalNat status
  | .killed signal => bytes "signal: " ++ Signal.text signal

def failure (e : ToolError) (name output : Bytes) : Failure :=
  let missing : Bool := match e with
    | .notStarted _ reason => reason = .refused .notFound
    | _ => false
  let shown := Bytes.trim output
  .plain (if missing then some .notFound else none)
    (name ++ bytes ": " ++ e.message ++ if shown = [] then [] else 10 :: shown)

end ToolError

namespace Toolbox

structure Finished where
  tree : FileTree
  output : Bytes
  ending : Shell.Ending

def Finished.of (result : Shell.State × Shell.Ending) : Finished :=
  ⟨result.1.tree, result.1.buffers.headD [], result.2⟩

def isShell (name : Bytes) : Bool :=
  name == bytes "sh" || name == bytes "dash" || name == bytes "bash"

/-- Runs a program of the system by its name; `called` is what it was called as. -/
def system? (t : FileTree) (name called : Bytes) (args : List Bytes) : Option Finished :=
  if isShell name then some (.of (Shell.run t called args))
  else (Shell.Files.command? name called args).map fun r =>
    .of (Shell.finishing (fun _ => r) (.start t called []))

def env (t : FileTree) (called : Bytes) (args : List Bytes) : Finished :=
  match args with
  | [] => ⟨t, [], .exited 0⟩
  | name :: rest =>
    (system? t name name rest).getD
      ⟨t, called ++ bytes ": '" ++ name ++ bytes "': No such file or directory\n" ++
        (if name.contains 32 then
          called ++ bytes ": use -[v]S to pass options in shebang lines\n" else []), .exited 127⟩

def headSize : Nat := 256

def isSeparator (b : UInt8) : Bool := b == 32 || b == 9

def interpreter? (content : Bytes) : Option (Bytes × Option Bytes) :=
  match content with
  | 35 :: 33 :: _ =>
    let head := content.take headSize
    let ends (b : UInt8) : Bool := isSeparator b || b == 0
    let named := ((head.drop 2).takeWhile (· != 10)).dropWhile isSeparator
    let cut := !head.contains 10 && headSize ≤ content.length && !named.any ends
    let line := Bytes.trimRightBy isSeparator (named.takeWhile (· != 0))
    let name := line.takeWhile fun b => !isSeparator b
    let arg := (line.drop name.length).dropWhile isSeparator
    if cut || name = [] then none else some (name, if arg = [] then none else some arg)
  | _ => none

def furniture : List Bytes :=
  [bytes "/bin", bytes "/usr", bytes "/usr/bin", bytes "/etc", bytes "/tmp", bytes "/dev",
    bytes "/dev/null"]

def inSystem (path : Bytes) : Bool := [bytes "/bin", bytes "/usr/bin"].contains (Path.dir path)

/-- Runs the program at a path. A program may name another as its interpreter, `depth` times over. -/
def runFile : (depth : Nat) → FileTree → (path : Bytes) → (args : List Bytes) →
    Except StartError Finished
  | depth, t, path, args =>
    let ofSystem :=
      if !inSystem path then none
      else if Path.base path = bytes "env" then some (env t path args)
      else system? t (Path.base path) path args
    match ofSystem with
    | some f => .ok f
    | none =>
      if furniture.contains path then .error .denied
      else match t.stat path with
      | .error e => .error (.refused e.errno)
      | .ok (.file content true) =>
        match interpreter? content, depth with
        | none, _ => .error .notProgram
        | some _, 0 => .error (.refused .tooManyLinks)
        | some (name, arg), depth + 1 => runFile depth t name (arg.toList ++ path :: args)
      | .ok _ => .error .denied

def maxInterpreters : Nat := 5

def ended (name : Bytes) (f : Finished) : FileTree × Option Failure :=
  (f.tree, match f.ending with
    | .exited 0 => none
    | .exited status => some ((ToolError.exited status).failure name f.output)
    | .killed signal => some ((ToolError.killed signal).failure name f.output))

def host : Toolbox := fun t call =>
  if call.name = [] then (t, some (ToolError.noCommand.failure call.name []))
  else if call.name.contains Path.slash then
    match runFile maxInterpreters t call.name call.args with
    | .ok f => ended call.name f
    | .error reason => (t, some ((ToolError.notStarted call.name reason).failure call.name []))
  else match system? t call.name call.name call.args with
    | some f => ended call.name f
    | none => (t, some ((ToolError.notInPath call.name).failure call.name []))

end Toolbox

end PrintLang
