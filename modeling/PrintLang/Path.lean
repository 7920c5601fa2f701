import PrintLang.Bytes

set_option autoImplicit false

namespace PrintLang

namespace Path

def slash : UInt8 := 47

def dot : Bytes := [46]

def dotDot : Bytes := [46, 46]

def isAbsolute (p : Bytes) : Bool := p.head? == some slash

/-- Adds a component to the reversed components before it: empty and `.` components vanish, and `..`
takes back a name. Above the root there is only the root. -/
def normalize (absolute : Bool) (done : List Bytes) (c : Bytes) : List Bytes :=
  if c = [] ∨ c = dot then done
  else if c = dotDot then
    match done with
    | [] => if absolute then [] else [dotDot]
    | d :: rest => if d = dotDot then dotDot :: done else rest
  else c :: done

def components (p : Bytes) : List Bytes :=
  ((Bytes.splitOn slash p).foldl (normalize (isAbsolute p)) []).reverse

/-- The shortest path with the same meaning, by its text alone. -/
def clean (p : Bytes) : Bytes :=
  let body := Bytes.join [slash] (components p)
  if isAbsolute p then slash :: body else if body = [] then dot else body

/-- Joins two paths and cleans the result; empty ones do not count. -/
def join (a b : Bytes) : Bytes :=
  if a ≠ [] then clean (a ++ slash :: b) else if b ≠ [] then clean b else []

def afterSlash (p : Bytes) : Bytes := (p.reverse.takeWhile (· != slash)).reverse

def trimSlashes (p : Bytes) : Bytes := (p.reverse.dropWhile (· == slash)).reverse

def base (p : Bytes) : Bytes :=
  if p = [] then dot
  else
    let name := afterSlash (trimSlashes p)
    if name = [] then [slash] else name

def parent (p : Bytes) : Bytes :=
  let q := trimSlashes p
  q.take (q.length - (afterSlash q).length - 1)

def ext (p : Bytes) : Bytes :=
  let name := afterSlash p
  match Bytes.lastIndexOf? 46 name with
  | some i => name.drop i
  | none => []

def dir (p : Bytes) : Bytes := clean (p.take (p.length - (afterSlash p).length))

def stem (p : Bytes) : Bytes := Bytes.withoutTail (base p) (ext (base p))

def sourceExt : Bytes := bytes ".kt"

def isSource (p : Bytes) : Bool := ext p == sourceExt

/-- The file with the stem of a source and another extension, in `outDir` or, when that is empty,
beside the source. -/
def sibling (source outDir extension : Bytes) : Bytes :=
  join (if outDir = [] then dir source else outDir) (stem source ++ extension)

def asmPath (source outDir : Bytes) : Bytes := sibling source outDir (bytes ".asm")

def objPath (source outDir : Bytes) : Bytes := sibling source outDir (bytes ".o")

def exePath (source outDir : Bytes) : Bytes := sibling source outDir []

end Path

end PrintLang
