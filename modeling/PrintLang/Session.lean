import PrintLang.Build
import PrintLang.CommandLine
import PrintLang.Dump
import PrintLang.Sources

set_option autoImplicit false

namespace PrintLang

structure Session where
  settings : Settings
  target : Target

namespace Session

def start (tree : FileTree) (o : Options) : Except Failure Session :=
  let loaded := if o.config = [] then Settings.discover tree Path.dot else Settings.load tree o.config
  match loaded with
  | .error e => .error e.failure
  | .ok s =>
    let s := if o.color = [] then s else { s with color := o.color }
    let s := if o.target = [] then s else { s with os := o.target }
    match s.fault? with
    | some e => .error (.plain none e.message)
    | none =>
      match s.target with
      | .error e => .error (.plain none e.message)
      | .ok target => .ok ⟨s, target⟩

end Session

structure Effects where
  stdout : Bytes
  tree : FileTree
  failure : Option Failure

def readSource (tree : FileTree) (file : Bytes) : Except Failure Bytes :=
  match tree.readFile file with
  | .ok text => .ok text
  | .error e => .error (.context (bytes "failed to read source") e.failure)

/-- Runs a program; a status other than zero is a failure that carries it. -/
def performRun (s : Session) (tree : FileTree) (file : Bytes) : Effects :=
  match readSource tree file with
  | .error f => ⟨[], tree, some f⟩
  | .ok text =>
    let r := runSource file text s.target false
    match r.status with
    | .error f => ⟨r.stdout, tree, some f⟩
    | .ok 0 => ⟨r.stdout, tree, none⟩
    | .ok code => ⟨r.stdout, tree, some (.status code)⟩

structure DumpStages where
  tokens : Bool
  nodes : Bool
  asm : Bool
deriving DecidableEq, Repr

def DumpStages.ofOptions (o : Options) : DumpStages :=
  if o.tokens || o.nodes || o.asm then ⟨o.tokens, o.nodes, o.asm⟩ else ⟨true, true, true⟩

/-- The stages of a source up to the first that fails; its tokens are shown even if some are
invalid. -/
def dumpSource (stages : DumpStages) (file source : Bytes) (t : Target) : Bytes × Option Failure :=
  let lexed := lex source
  let tokens := if stages.tokens then lexed.stream.dump else []
  if lexed.invalid ≠ [] then (tokens, some (.lexical ⟨file, lexed.invalid⟩))
  else match parse file lexed.stream with
    | .error e => (tokens, some (.parse e))
    | .ok p =>
      let nodes := if stages.nodes then p.store.dump?.getD [] else []
      if !stages.asm then (tokens ++ nodes, none)
      else match generate p t with
        | .error e => (tokens ++ nodes, some e.failure)
        | .ok l => (tokens ++ nodes ++ bytes "Generated Assembly\n" ++ l.render ++ [10], none)

def performDump (s : Session) (tree : FileTree) (o : Options) (file : Bytes) : Effects :=
  match readSource tree file with
  | .error f => ⟨[], tree, some f⟩
  | .ok text =>
    let (out, failure) := dumpSource (.ofOptions o) file text s.target
    ⟨out, tree, failure⟩

def announce (link : Bool) (units : List BuildUnit) : Bytes :=
  (units.filter (·.compiled)).flatMap fun u =>
    u.source ++ bytes " -> " ++ (if link then u.exe else u.asm) ++ [10]

def performBuild (s : Session) (tools : Toolbox) (tree : FileTree) (o : Options)
    (args : List Bytes) : Effects :=
  match tree.collectSources args with
  | .error e => ⟨[], tree, some e.failure⟩
  | .ok sources =>
    let r := build ⟨s.target, s.settings.toolchain, o.outDir, o.link⟩ tools tree sources false
    ⟨announce o.link r.units, r.world.tree, r.failure⟩

def versionText : Bytes := bytes "kotc vdev\nCommit: unknown\n"

def usageText : Bytes := Bytes.lines [
  bytes "kotc compiles a small Kotlin-like language to x86-64 assembly in AT&T syntax.",
  [],
  bytes "Usage:",
  bytes "  kotc build <file.kt|dir>...  compile source files to assembly",
  bytes "  kotc run <file.kt>           compile and execute a program",
  bytes "  kotc dump <file.kt>          print the tokens, nodes and assembly of a source file",
  bytes "  kotc version                 show version information"]

def perform (s : Session) (tools : Toolbox) (tree : FileTree) (c : Command) (o : Options)
    (args : List Bytes) : Effects :=
  match c with
  | .run => performRun s tree (args.headD [])
  | .dump => performDump s tree o (args.headD [])
  | .build => performBuild s tools tree o args
  | .version => ⟨versionText, tree, none⟩
  | .help | .completion => ⟨usageText, tree, none⟩

structure Outcome where
  exit : Int
  stdout : Bytes
  stderr : Bytes
  tree : FileTree

def Effects.outcome (e : Effects) (colored : Bool) : Outcome :=
  let report := match e.failure with
    | none => []
    | some f => f.report colored
  ⟨exitCode e.failure, e.stdout, report, e.tree⟩

/-- One call of the tool. The settings decide on colour once they are known. -/
def invoke (tools : Toolbox) (tree : FileTree) (args : List Bytes) : Outcome :=
  match Request.read args with
  | .error e => Effects.outcome ⟨[], tree, some (.plain none e.message)⟩ false
  | .ok .help => Effects.outcome ⟨usageText, tree, none⟩ false
  | .ok (.perform c o rest) =>
    match Session.start tree o with
    | .error f => Effects.outcome ⟨[], tree, some f⟩ false
    | .ok s =>
      (perform s tools tree c o rest).outcome (s.settings.color == bytes "always")

end PrintLang
