import PrintLang.Failure
import PrintLang.Path

/-!
# File trees

The files, directories and symbolic links below a working directory, and what a program can do to
them: look, read, write, and make directories. Paths are resolved one component after another, and
links are followed on the way.
-/

set_option autoImplicit false

namespace PrintLang

inductive Entry where
  | file (content : Bytes) (executable : Bool)
  | directory
  | link (target : Bytes)
deriving DecidableEq, Repr

abbrev Place := List Bytes

/-- The entries of a tree by their places, and the place of the working directory. A place above an
entry or above the working directory is a directory. Every file has one place: two names of one file,
hard links, are not represented, so whatever is written at a place changes that place alone. -/
structure FileTree where
  workDir : Place
  entries : List (Place × Entry)
deriving DecidableEq, Repr

inductive Errno where
  | notFound
  | notDirectory
  | isDirectory
  | fileExists
  | tooManyLinks
  | nameTooLong
  | invalidArgument
deriving DecidableEq, Repr

def Errno.text : Errno → Bytes
  | .notFound => bytes "no such file or directory"
  | .notDirectory => bytes "not a directory"
  | .isDirectory => bytes "is a directory"
  | .fileExists => bytes "file exists"
  | .tooManyLinks => bytes "too many levels of symbolic links"
  | .nameTooLong => bytes "file name too long"
  | .invalidArgument => bytes "invalid argument"

structure FileError where
  op : Bytes
  path : Bytes
  errno : Errno
deriving DecidableEq, Repr

namespace FileError

def message (e : FileError) : Bytes := e.op ++ bytes " " ++ e.path ++ bytes ": " ++ e.errno.text

def failure (e : FileError) : Failure :=
  .plain (if e.errno = .notFound then some .notFound else none) e.message

end FileError

namespace FileTree

def entry? (t : FileTree) (p : Place) : Option Entry :=
  match t.entries.lookup p with
  | some e => some e
  | none =>
    if p.isPrefixOf t.workDir || t.entries.any (fun (q, _) => p.isPrefixOf q) then some .directory
    else none

def put (t : FileTree) (p : Place) (e : Entry) : FileTree :=
  { t with entries := (t.entries.filter fun (q, _) => q != p) ++ [(p, e)] }

def maxLinks : Nat := 40

/-- The links that may be followed when files are told apart. -/
def maxIdentityLinks : Nat := 255

def maxName : Nat := 255

def maxPath : Nat := 4095

def isHere (c : Bytes) : Bool := c == [] || c == Path.dot

def startOf (path : Bytes) (here : Place) : Place := if Path.isAbsolute path then [] else here

/-- Where a path leads: the place, and whether the path names a directory that is not there, by a slash
at its end. -/
structure Spot where
  place : Place
  slashed : Bool
deriving DecidableEq, Repr

/-- The place that the components lead to from the directory `here`. The last component may name
nothing yet; whether a link there is followed is up to `follow`. Behind a link, `jump` goes on. -/
def walkOver (t : FileTree) (follow : Bool) (jump : Place → List Bytes → Except Errno Spot)
    (here : Place) : List Bytes → Except Errno Spot
  | [] => .ok ⟨here, false⟩
  | c :: rest =>
    if isHere c then walkOver t follow jump here rest
    else if c = Path.dotDot then walkOver t follow jump here.dropLast rest
    else if maxName < c.length then .error .nameTooLong
    else
      let p := here ++ [c]
      match t.entry? p with
      | none => if rest.all (· == []) then .ok ⟨p, rest != []⟩ else .error .notFound
      | some .directory => walkOver t follow jump p rest
      | some (.file _ _) => if rest = [] then .ok ⟨p, false⟩ else .error .notDirectory
      | some (.link target) =>
        if rest = [] ∧ ¬follow then .ok ⟨p, false⟩
        else jump (startOf target here) (Bytes.splitOn Path.slash target ++ rest)

def walk (t : FileTree) (follow : Bool) : (links : Nat) → Place → List Bytes → Except Errno Spot
  | 0 => walkOver t follow fun _ _ => .error .tooManyLinks
  | links + 1 => walkOver t follow (walk t follow links)

def locate (t : FileTree) (follow : Bool) (links : Nat) (path : Bytes) : Except Errno Spot :=
  if path = [] then .error .notFound
  else if path.contains 0 then .error .invalidArgument
  else if maxPath < path.length then .error .nameTooLong
  else t.walk follow links (startOf path t.workDir) (Bytes.splitOn Path.slash path)

def resolve (t : FileTree) (follow : Bool) (path : Bytes) : Except Errno (Place × Option Entry) := do
  let spot ← t.locate follow maxLinks path
  return (spot.place, t.entry? spot.place)

def stat (t : FileTree) (path : Bytes) : Except FileError Entry :=
  match t.resolve true path with
  | .ok (_, some e) => .ok e
  | .ok (_, none) => .error ⟨bytes "stat", path, .notFound⟩
  | .error e => .error ⟨bytes "stat", path, e⟩

def readFile (t : FileTree) (path : Bytes) : Except FileError Bytes :=
  match t.resolve true path with
  | .ok (_, some (.file content _)) => .ok content
  | .ok (_, some .directory) => .error ⟨bytes "read", path, .isDirectory⟩
  | .ok (_, _) => .error ⟨bytes "open", path, .notFound⟩
  | .error e => .error ⟨bytes "open", path, e⟩

/-- Replaces the content of a file, which is made when its directory exists. -/
def writeFile (t : FileTree) (path content : Bytes) : Except FileError FileTree :=
  match t.locate true maxLinks path with
  | .error e => .error ⟨bytes "open", path, e⟩
  | .ok spot =>
    match t.entry? spot.place with
    | some (.file _ x) => .ok (t.put spot.place (.file content x))
    | some .directory => .error ⟨bytes "open", path, .isDirectory⟩
    | some (.link _) => .error ⟨bytes "open", path, .tooManyLinks⟩
    | none =>
      if spot.slashed then .error ⟨bytes "open", path, .isDirectory⟩
      else .ok (t.put spot.place (.file content false))

/-- Makes one directory. Slashes at the end of its path do not count, and a link there stands in the
way. -/
def makeDir (t : FileTree) (path : Bytes) : Except FileError FileTree :=
  match t.resolve false (if path.length ≤ maxPath then Path.trimSlashes path else path) with
  | .ok (p, none) => .ok (t.put p .directory)
  | .ok (_, some _) => .error ⟨bytes "mkdir", path, .fileExists⟩
  | .error e => .error ⟨bytes "mkdir", path, e⟩

def isDirAt (t : FileTree) (path : Bytes) : Bool :=
  match t.resolve false path with
  | .ok (_, some .directory) => true
  | _ => false

/-- Makes a directory and those above it that are missing, as far as the system allows: the tree after
that, and what is refused. Each path above is shorter, so `fuel` is the length of the path. -/
def makeDirsFor : (fuel : Nat) → FileTree → Bytes → FileTree × Option FileError
  | 0, t, _ => (t, none)
  | fuel + 1, t, path =>
    match t.stat path with
    | .ok .directory => (t, none)
    | .ok _ => (t, some ⟨bytes "mkdir", path, .notDirectory⟩)
    | .error _ =>
      let above := Path.parent path
      match if above = [] then (t, none) else makeDirsFor fuel t above with
      | (t, some e) => (t, some e)
      | (t, none) =>
        match t.makeDir path with
        | .ok t => (t, none)
        | .error e => (t, if t.isDirAt path then none else some e)

def withDirs (t : FileTree) (path : Bytes) : FileTree := (makeDirsFor (path.length + 1) t path).1

def makeDirs (t : FileTree) (path : Bytes) : Except FileError FileTree :=
  match (makeDirsFor (path.length + 1) t path).2 with
  | none => .ok (t.withDirs path)
  | some e => .error e

def absolute (t : FileTree) (path : Bytes) : Bytes :=
  if Path.isAbsolute path then Path.clean path
  else Path.clean (Path.slash :: Bytes.join [Path.slash] t.workDir ++ Path.slash :: path)

/-- The place that stands for a path when files are told apart: with the links followed when it leads
to something, and by its text otherwise. -/
def identity (t : FileTree) (path : Bytes) : Place :=
  let full := t.absolute path
  match t.locate true maxIdentityLinks full with
  | .ok spot => if (t.entry? spot.place).isSome then spot.place else Path.components full
  | .error _ => Path.components full

def places (t : FileTree) : List Place := t.workDir :: t.entries.map (·.1)

/-- The names in a directory, in byte order, each with whether it is a directory itself. -/
def namesIn (t : FileTree) (p : Place) : List (Bytes × Bool) :=
  let names := t.places.filterMap fun q => if p.isPrefixOf q then q[p.length]? else none
  (names.mergeSort Bytes.le).eraseDups.map fun n => (n, t.entry? (p ++ [n]) == some .directory)

def listDir (t : FileTree) (path : Bytes) : Except FileError (List (Bytes × Bool)) :=
  match t.resolve true path with
  | .ok (p, some .directory) => .ok (t.namesIn p)
  | .ok (_, some _) => .error ⟨bytes "open", path, .notDirectory⟩
  | .ok (_, none) => .error ⟨bytes "open", path, .notFound⟩
  | .error e => .error ⟨bytes "open", path, e⟩

def depth (t : FileTree) : Nat := (t.places.map List.length).foldl max 0

end FileTree

end PrintLang
