import PrintLang.FileTree

set_option autoImplicit false

namespace PrintLang

namespace Shell

/-- A text whose bytes are marked when they were quoted. -/
abbrev Field := List (UInt8 × Bool)

def Field.text (f : Field) : Bytes := f.map (·.1)

inductive Atom where
  | byte (b : UInt8)
  | any
  | many
  | oneOf (negated : Bool) (ranges : List (UInt8 × UInt8))
deriving DecidableEq, Repr

def Atom.accepts (a : Atom) (b : UInt8) : Bool :=
  match a with
  | .byte c => b == c
  | .any => true
  | .many => false
  | .oneOf negated ranges => negated != ranges.any fun (low, high) => low ≤ b && b ≤ high

abbrev Pattern := List Atom

namespace Pattern

def ranges : (first : Bool) → Field → Option (List (UInt8 × UInt8) × Field)
  | _, [] => none
  | first, (93, false) :: rest =>
    if first then (ranges false rest).map fun (rs, rest) => ((93, 93) :: rs, rest)
    else some ([], rest)
  | _, (low, _) :: (45, false) :: (high, q) :: rest =>
    if high = 93 ∧ ¬q then some ([(low, low), (45, 45)], rest)
    else (ranges false rest).map fun (rs, rest) => ((low, high) :: rs, rest)
  | _, (b, _) :: rest => (ranges false rest).map fun (rs, rest) => ((b, b) :: rs, rest)

/-- The pattern that a text is. Every step takes something off the text, so its length bounds them. -/
def ofField : (fuel : Nat) → Field → Pattern
  | 0, _ => []
  | _, [] => []
  | fuel + 1, (42, false) :: rest => .many :: ofField fuel rest
  | fuel + 1, (63, false) :: rest => .any :: ofField fuel rest
  | fuel + 1, (91, false) :: rest =>
    let (negated, inner) := match rest with
      | (33, false) :: inner => (true, inner)
      | _ => (false, rest)
    match ranges true inner with
    | some (rs, rest) => .oneOf negated rs :: ofField fuel rest
    | none => .byte 91 :: ofField fuel rest
  | fuel + 1, (b, _) :: rest => .byte b :: ofField fuel rest

def ofText (f : Field) : Pattern := ofField f.length f

def accepts (p : Pattern) (s : Bytes) : Bool :=
  match p, s with
  | [], s => s.isEmpty
  | .many :: p, [] => accepts p []
  | .many :: p, b :: s => accepts p (b :: s) || accepts (.many :: p) s
  | _ :: _, [] => false
  | a :: p, b :: s => a.accepts b && accepts p s
termination_by p.length + s.length

def cutStart (p : Pattern) (longest : Bool) (s : Bytes) : Bytes :=
  let sizes := (List.range (s.length + 1)).filter fun n => p.accepts (s.take n)
  match if longest then sizes.getLast? else sizes.head? with
  | some n => s.drop n
  | none => s

def cutEnd (p : Pattern) (longest : Bool) (s : Bytes) : Bytes :=
  let sizes := (List.range (s.length + 1)).filter fun n => p.accepts (s.drop n)
  match if longest then sizes.head? else sizes.getLast? with
  | some n => s.take n
  | none => s

end Pattern

namespace Field

def isPattern (f : Field) : Bool := f.any fun (b, q) => !q && (b == 42 || b == 63 || b == 91)

def components : Field → List Field
  | [] => [[]]
  | (b, q) :: rest =>
    if b = 47 then [] :: components rest
    else match components rest with
      | [] => [[(b, q)]]
      | c :: cs => ((b, q) :: c) :: cs

/-- The paths below `start` whose components match. A name that starts with a dot is matched by a dot
only. -/
def paths (t : FileTree) (start : Bytes) : List Field → List Bytes
  | [] => []
  | [c] => step c
  | c :: cs => (step c).flatMap fun path => paths t (path ++ [47]) cs
where
  step (c : Field) : List Bytes :=
    if c.isPattern then
      match t.listDir (if start = [] then Path.dot else start) with
      | .error _ => []
      | .ok names =>
        (names.filter fun (n, _) =>
          (n.head? != some 46 || (c.head?.map (·.1)) == some 46) && (Pattern.ofText c).accepts n).map
          fun (n, _) => start ++ n
    else
      let path := start ++ c.text
      if c = [] ∨ (t.resolve false path).toOption.bind (·.2) ≠ none then [path] else []

/-- The paths that a field stands for; one that stands for none is a text. -/
def expand (t : FileTree) (f : Field) : List Bytes :=
  if f.isPattern then
    match paths t [] f.components with
    | [] => [f.text]
    | found => found
  else [f.text]

end Field

end Shell

end PrintLang
