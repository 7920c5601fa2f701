import PrintLang.Settings
import PrintLang.Site

/-!
# Builds

A build turns every source into a listing and, when asked to, into an executable. Each unit goes
through its stages one step at a time, so that the steps of several units may be interleaved; the
sequential build takes all steps of a unit before those of the next. An error in a source stops its
own unit only. A failure of the system or of a tool stops every unit that has not started.
-/

set_option autoImplicit false

namespace PrintLang

structure BuildOptions where
  target : Target
  toolchain : Toolchain
  outDir : Bytes
  link : Bool
deriving DecidableEq, Repr

inductive Stage where
  | waiting
  | loaded (text : Bytes)
  | compiled (listing : Listing)
  | written
  | assembled
  | finished

structure BuildUnit where
  source : Bytes
  asm : Bytes
  obj : Bytes
  exe : Bytes
  outcome : Option (Except CompileError (Program × Listing))
  stage : Stage

namespace BuildUnit

def ofSource (outDir source : Bytes) : BuildUnit :=
  { source
    asm := Path.asmPath source outDir
    obj := Path.objPath source outDir
    exe := Path.exePath source outDir
    outcome := none
    stage := .waiting }

def error? (u : BuildUnit) : Option CompileError :=
  match u.outcome with
  | some (.error e) => some e
  | _ => none

def hasProgram (u : BuildUnit) : Bool :=
  match u.outcome with
  | none => false
  | some (.ok _) => true
  | some (.error e) => e.hasProgram

def compiled (u : BuildUnit) : Bool :=
  match u.outcome with
  | some (.ok _) => true
  | _ => false

def assemblerCall (u : BuildUnit) (o : BuildOptions) : ToolCall :=
  ⟨o.toolchain.assembler, [bytes "-o", u.obj, u.asm]⟩

def linkerCall (u : BuildUnit) (o : BuildOptions) : ToolCall :=
  ⟨o.toolchain.linker,
    [bytes "-o", u.exe, bytes "-e", o.target.entry, u.obj] ++
      (if o.toolchain.runtime = [] then [] else [o.toolchain.runtime]) ++ o.toolchain.linkFlags⟩

end BuildUnit

structure World where
  tree : FileTree
  calls : List ToolCall
deriving DecidableEq, Repr

namespace World

def call (w : World) (tools : Toolbox) (c : ToolCall) : World × Option Failure :=
  let (tree, failure) := tools w.tree c
  (⟨tree, w.calls ++ [c]⟩, failure)

def writeListing (w : World) (disk : Disk) (outDir path content : Bytes) : World × Option Failure :=
  match if outDir = [] then (w.tree, none) else disk.makeDirs w.tree outDir with
  | (tree, some f) =>
    ({ w with tree }, some (.context (bytes "failed to create output directory") f))
  | (tree, none) =>
    match disk.write tree path content with
    | (tree, some f) =>
      ({ w with tree }, some (.context (bytes "failed to write listing " ++ path) f))
    | (tree, none) => ({ w with tree }, none)

end World

def BuildUnit.step (o : BuildOptions) (site : Site) (u : BuildUnit) (w : World) :
    BuildUnit × World × Option Failure :=
  match u.stage with
  | .waiting =>
    match (site.disk u.source).read w.tree u.source with
    | .ok text => ({ u with stage := .loaded text }, w, none)
    | .error f =>
      ({ u with stage := .finished }, w,
        some (.context (bytes "failed to read source " ++ u.source) f))
  | .loaded text =>
    let r := compile u.source text o.target
    match r with
    | .ok (_, listing) => ({ u with outcome := some r, stage := .compiled listing }, w, none)
    | .error _ => ({ u with outcome := some r, stage := .finished }, w, none)
  | .compiled listing =>
    match w.writeListing (site.disk u.source) o.outDir u.asm listing.render with
    | (w, none) => ({ u with stage := if o.link then .written else .finished }, w, none)
    | (w, some f) => ({ u with stage := .finished }, w, some f)
  | .written =>
    match w.call site.tools (u.assemblerCall o) with
    | (w, none) => ({ u with stage := .assembled }, w, none)
    | (w, some f) =>
      ({ u with stage := .finished }, w, some (.context (bytes "assembling " ++ u.asm) f))
  | .assembled =>
    match w.call site.tools (u.linkerCall o) with
    | (w, none) => ({ u with stage := .finished }, w, none)
    | (w, some f) =>
      ({ u with stage := .finished }, w, some (.context (bytes "linking " ++ u.exe) f))
  | .finished => (u, w, none)

def stepsPerUnit : Nat := 5

/-- A build under way. Once it is called off, by the caller or by a failure, no unit starts; the
group keeps a failure. -/
structure BuildState where
  units : List BuildUnit
  world : World
  calledOff : Bool
  failure : Option Failure

namespace BuildState

def start (outDir : Bytes) (sources : List Bytes) (tree : FileTree) (cancel : Bool) : BuildState :=
  ⟨sources.map (BuildUnit.ofSource outDir), ⟨tree, []⟩, cancel, none⟩

def mayStep (b : BuildState) (u : BuildUnit) : Bool :=
  match u.stage with
  | .waiting => !b.calledOff
  | _ => true

def advance (o : BuildOptions) (site : Site) (b : BuildState) (i : Nat) : BuildState :=
  match b.units[i]? with
  | none => b
  | some u =>
    if b.mayStep u then
      let (u, world, failure) := u.step o (site.now b.calledOff) b.world
      { units := b.units.set i u
        world
        calledOff := b.calledOff || failure.any site.group.callsOff
        failure := site.group.after b.failure failure }
    else
      { b with
        units := b.units.set i { u with stage := .finished }
        failure := site.group.after b.failure (some canceled) }

def run (o : BuildOptions) (site : Site) (b : BuildState) (schedule : List Nat) : BuildState :=
  schedule.foldl (advance o site) b

def sequential (n : Nat) : List Nat := (List.range n).flatMap (List.replicate stepsPerUnit)

/-- The failure of the whole build: the one that called it off, else the errors of the sources. -/
def result (b : BuildState) : Option Failure :=
  match b.failure with
  | some f => some f
  | none => Failure.joinAll? (b.units.filterMap fun u => u.error?.map CompileError.failure)

end BuildState

/-- The group that keeps the first failure, calls the build off with it, and runs unit after unit. -/
def Group.host : Group where
  keep kept f := kept.getD f
  callsOff _ := true
  order := BuildState.sequential

/-- Tools on the disk and in the group of the system. Once the build is called off, none is started. -/
@[coe]
def Toolbox.site (tools : Toolbox) : Site := ⟨fun _ => .host, tools, .refused, .host⟩

instance : Coe Toolbox Site := ⟨Toolbox.site⟩

@[simp]
theorem Toolbox.disk_site (tools : Toolbox) (source : Bytes) : tools.site.disk source = .host := rfl

@[simp]
theorem Toolbox.tools_site (tools : Toolbox) : tools.site.tools = tools := rfl

structure OutputConflict where
  first : Bytes
  second : Bytes
  path : Bytes
deriving DecidableEq, Repr

namespace OutputConflict

def message (c : OutputConflict) : Bytes :=
  bytes "output paths collide: " ++ c.first ++ bytes " and " ++ c.second ++ bytes " both write " ++
    c.path

def failure (c : OutputConflict) : Failure := .plain (some .outputConflict) c.message

/-- The first unit whose listing an earlier one writes; `owners` are the earlier ones. -/
def find? (t : FileTree) (owners : List (Place × Bytes)) : List BuildUnit → Option OutputConflict
  | [] => none
  | u :: us =>
    let key := t.identity u.asm
    match owners.lookup key with
    | some owner => some ⟨owner, u.source, u.asm⟩
    | none => find? t ((key, u.source) :: owners) us

end OutputConflict

structure BuildResult where
  units : List BuildUnit
  world : World
  failure : Option Failure

/-- Builds the sources one after another. Without a fit target, or when two units would write one
listing, nothing is done. -/
def build (o : BuildOptions) (site : Site) (tree : FileTree) (sources : List Bytes)
    (cancel : Bool) : BuildResult :=
  let start := BuildState.start o.outDir sources tree cancel
  match o.target.fault? with
  | some e => ⟨[], start.world, some (.plain none e.message)⟩
  | none =>
    match OutputConflict.find? tree [] start.units with
    | some c => ⟨[], start.world, some c.failure⟩
    | none =>
      let b := start.run o site (site.group.order sources.length)
      ⟨b.units, b.world, b.result⟩

end PrintLang
