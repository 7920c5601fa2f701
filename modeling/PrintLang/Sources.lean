import PrintLang.FileTree
import PrintLang.Ignore

set_option autoImplicit false

namespace PrintLang

inductive SourcesError where
  | file (e : FileError)
  | ignoreFile (path : Bytes) (e : FileError)
  | none (dir : Bytes)
deriving DecidableEq, Repr

namespace SourcesError

def failure : SourcesError → Failure
  | .file e => e.failure
  | .ignoreFile path e => .context (bytes "reading " ++ path) e.failure
  | .none dir =>
    .plain Option.none (bytes "no " ++ Path.sourceExt ++ bytes " files under " ++ dir)

end SourcesError

namespace FileTree

def ignored (t : FileTree) (rule : IgnoreRule) (root : Bytes) :
    Except SourcesError (Bytes → Bool) :=
  let path := Path.join root ignoreFile
  match t.stat path with
  | .error _ => .ok fun _ => false
  | .ok _ =>
    match t.readFile path with
    | .ok content => .ok (rule content)
    | .error e => .error (.ignoreFile path e)

def isHidden (name : Bytes) : Bool := name.head? == some 46

/-- The files below the directory at a path, with their paths from `rel`, which is where the walk has
come to. A hidden name is passed over, and a path is cleaned by its text alone. -/
def filesBelow (t : FileTree) : (fuel : Nat) → (path : Bytes) → (rel : List Bytes) →
    Except FileError (List (Bytes × List Bytes))
  | 0, _, _ => .ok []
  | fuel + 1, path, rel => do
    let names ← t.listDir path
    let found ← (names.filter fun (name, _) => !isHidden name).mapM fun (name, isDir) =>
      let below := Path.join path name
      if isDir then t.filesBelow fuel below (rel ++ [name]) else .ok [(below, rel ++ [name])]
    return found.flatten

/-- The files below a directory with their paths from there, or the argument itself when it is a
link. -/
def candidates (t : FileTree) (root : Bytes) : Except FileError (List (Bytes × Bytes)) :=
  match t.resolve false root with
  | .ok (_, some .directory) => do
    let found ← t.filesBelow (t.depth + 2) root []
    return found.map fun (path, rel) => (path, Bytes.join [Path.slash] rel)
  | .ok (_, some _) => .ok [(root, Path.dot)]
  | _ => .ok []

def sourcesBelow (t : FileTree) (rule : IgnoreRule) (root : Bytes) :
    Except SourcesError (List Bytes) :=
  match t.ignored rule root with
  | .error e => .error e
  | .ok ignored =>
    match t.candidates root with
    | .error e => .error (.file e)
    | .ok candidates =>
      let found := candidates.filter fun (path, rel) => Path.isSource path && !ignored rel
      if found.isEmpty then .error (.none root)
      else .ok ((found.map (·.1)).mergeSort Bytes.le)

def sourcesOf (t : FileTree) (rule : IgnoreRule) (arg : Bytes) : Except SourcesError (List Bytes) :=
  match t.stat arg with
  | .error e => .error (.file e)
  | .ok .directory => t.sourcesBelow rule arg
  | .ok _ => .ok [arg]

def firstPaths (t : FileTree) (seen : List Place) : List Bytes → List Bytes
  | [] => []
  | p :: ps =>
    let key := t.identity p
    if seen.contains key then t.firstPaths seen ps else p :: t.firstPaths (key :: seen) ps

def collect (t : FileTree) (rule : IgnoreRule) (args : List Bytes) : Except SourcesError (List Bytes) :=
  match args.mapM (t.sourcesOf rule) with
  | .ok found => .ok (t.firstPaths [] found.flatten)
  | .error e => .error e

def collectSources (t : FileTree) (args : List Bytes) : Except SourcesError (List Bytes) :=
  t.collect IgnorePattern.rule args

end FileTree

end PrintLang
