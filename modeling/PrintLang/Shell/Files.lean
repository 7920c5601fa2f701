import PrintLang.Shell.State

set_option autoImplicit false

namespace PrintLang

namespace FileTree

def remove (t : FileTree) (p : Place) : FileTree :=
  let around := p.dropLast
  let t := if around.isPrefixOf t.workDir then t else t.put around .directory
  { t with entries := t.entries.filter fun (q, _) => !p.isPrefixOf q }

end FileTree

namespace Shell

namespace Files

def reason (e : Errno) : Bytes :=
  match e.text with
  | b :: rest => (if 97 ≤ b && b ≤ 122 then b - 32 else b) :: rest
  | [] => []

def inQuotes (s : Bytes) : Bytes := 39 :: s ++ [39]

def options : List Bytes → Bytes × List Bytes
  | [] => ([], [])
  | [45, 45] :: rest => ([], rest)
  | (45 :: b :: letters) :: rest =>
    let (more, operands) := options rest
    (b :: letters ++ more, operands)
  | w :: rest =>
    let (letters, operands) := options rest
    (letters, w :: operands)

def complain (name message : Bytes) (status : Nat) : Run PUnit := do
  Run.err (name ++ bytes ": " ++ message ++ [10])
  Run.finish status

def misuse (name message : Bytes) : Run PUnit := do
  Run.err (name ++ bytes ": " ++ message ++ bytes "\nTry '" ++ name ++
    bytes " --help' for more information.\n")
  Run.finish 1

def targetOf (t : FileTree) (source target : Bytes) : Bytes :=
  match t.stat target with
  | .ok .directory => target ++ 47 :: Path.base source
  | _ => target

def cat (operands : List Bytes) : Run PUnit := do
  for path in if operands.isEmpty then [[45]] else operands do
    if path = [45] then
      let s ← get
      set { s with input := [] }
      Run.out s.input
    else match (← get).tree.readFile path with
      | .ok content => Run.out content
      | .error e => complain (bytes "cat") (path ++ bytes ": " ++ reason e.errno) 1

def touch (operands : List Bytes) : Run PUnit := do
  for path in operands do
    let t := (← get).tree
    if (t.stat path).toOption.isNone then
      match t.writeFile path [] with
      | .ok t => modify fun s => { s with tree := t }
      | .error e =>
        complain (bytes "touch")
          (bytes "cannot touch " ++ inQuotes path ++ bytes ": " ++ reason e.errno) 1

def copy (source target : Bytes) : Run Bool := do
  let t := (← get).tree
  let target := targetOf t source target
  match t.stat source with
  | .error e =>
    complain (bytes "cp") (bytes "cannot stat " ++ inQuotes source ++ bytes ": " ++ reason e.errno) 1
    return false
  | .ok (.file content executable) =>
    match t.writeFile target content, t.locate true FileTree.maxLinks target with
    | .ok u, .ok spot =>
      let made := (t.stat target).toOption.isNone
      modify fun s =>
        { s with tree := if made then u.put spot.place (.file content executable) else u }
      return true
    | .error e, _ =>
      complain (bytes "cp")
        (bytes "cannot create regular file " ++ inQuotes target ++ bytes ": " ++ reason e.errno) 1
      return false
    | _, _ => return false
  | .ok _ =>
    complain (bytes "cp") (bytes "-r not specified; omitting directory " ++ inQuotes source) 1
    return false

def move (source target : Bytes) : Run PUnit := do
  let t := (← get).tree
  let target := targetOf t source target
  match t.resolve false source with
  | .ok (p, some e) =>
    match t.resolve false target with
    | .ok (q, _) =>
      let below := t.entries.filter fun (r, _) => p.isPrefixOf r
      let u := if p = q then t else t.remove p
      let u := below.foldl (fun u (r, e) => u.put (q ++ r.drop p.length) e) (u.put q e)
      modify fun s => { s with tree := u }
    | .error e =>
      complain (bytes "mv") (bytes "cannot move " ++ inQuotes source ++ bytes " to " ++
        inQuotes target ++ bytes ": " ++ reason e) 1
  | .ok (_, none) =>
    complain (bytes "mv")
      (bytes "cannot stat " ++ inQuotes source ++ bytes ": " ++ reason .notFound) 1
  | .error e =>
    complain (bytes "mv") (bytes "cannot stat " ++ inQuotes source ++ bytes ": " ++ reason e) 1

def remove (letters : Bytes) (operands : List Bytes) : Run PUnit := do
  let refuse (path reason : Bytes) : Run PUnit :=
    complain (bytes "rm") (bytes "cannot remove " ++ inQuotes path ++ bytes ": " ++ reason) 1
  for path in operands do
    let t := (← get).tree
    match t.resolve false path with
    | .ok (p, some e) =>
      if e = .directory && !letters.contains 114 && !letters.contains 82 then
        refuse path (reason .isDirectory)
      else modify fun s => { s with tree := t.remove p }
    | .ok (_, none) => if !letters.contains 102 then refuse path (reason .notFound)
    | .error e => if !letters.contains 102 then refuse path (reason e)

def removeDir (operands : List Bytes) : Run PUnit := do
  for path in operands do
    let t := (← get).tree
    let refuse (reason : Bytes) : Run PUnit :=
      complain (bytes "rmdir")
        (bytes "failed to remove " ++ inQuotes path ++ bytes ": " ++ reason) 1
    match t.resolve false path with
    | .ok (p, some .directory) =>
      if t.namesIn p = [] then modify fun s => { s with tree := t.remove p }
      else refuse (bytes "Directory not empty")
    | .ok (_, some _) => refuse (reason .notDirectory)
    | .ok (_, none) => refuse (reason .notFound)
    | .error e => refuse (reason e)

def makeDir (letters : Bytes) (operands : List Bytes) : Run PUnit := do
  for path in operands do
    let t := (← get).tree
    match if letters.contains 112 then t.makeDirs path else t.makeDir path with
    | .ok t => modify fun s => { s with tree := t }
    | .error e =>
      if letters.contains 112 then modify fun s => { s with tree := t.withDirs path }
      complain (bytes "mkdir")
        (bytes "cannot create directory " ++ inQuotes path ++ bytes ": " ++ reason e.errno) 1

def list (operands : List Bytes) : Run PUnit := do
  let t := (← get).tree
  let shown (path : Bytes) : Bytes :=
    match t.listDir path with
    | .ok names => Bytes.lines ((names.map (·.1)).filter fun n => n.head? != some 46)
    | .error _ => []
  let operands := if operands.isEmpty then [Path.dot] else operands.mergeSort Bytes.le
  for path in operands do
    match t.stat path with
    | .error e =>
      complain (bytes "ls") (bytes "cannot access " ++ inQuotes path ++ bytes ": " ++ reason e.errno) 2
    | .ok _ => pure ()
  let isDir (path : Bytes) : Bool := (t.stat path).toOption == some .directory
  let present := operands.filter fun path => (t.stat path).toOption.isSome
  Run.out (Bytes.lines (present.filter fun path => !isDir path))
  let dirs := present.filter isDir
  match operands with
  | [_] => Run.out (dirs.flatMap shown)
  | _ =>
    let blocks := dirs.map fun path => path ++ bytes ":\n" ++ shown path
    let files := present.length != dirs.length
    Run.out ((if files && !dirs.isEmpty then [10] else []) ++ Bytes.join [10] blocks)

def executable? (mode : Bytes) : Option Bool :=
  if mode.all isDigit then some (mode.any fun d => d.toNat % 2 == 1)
  else if !mode.contains 120 then none
  else some (!mode.contains 45)

def changeMode (operands : List Bytes) : Run PUnit := do
  match operands with
  | [] => misuse (bytes "chmod") (bytes "missing operand")
  | mode :: paths =>
    for path in paths do
      let t := (← get).tree
      match t.resolve true path with
      | .ok (p, some (.file content old)) =>
        modify fun s =>
          { s with tree := t.put p (.file content ((executable? mode).getD old)) }
      | .ok (_, some _) => pure ()
      | .ok (_, none) =>
        complain (bytes "chmod")
          (bytes "cannot access " ++ inQuotes path ++ bytes ": " ++ reason .notFound) 1
      | .error e =>
        complain (bytes "chmod")
          (bytes "cannot access " ++ inQuotes path ++ bytes ": " ++ reason e) 1

def known : List (String × String) :=
  [("true", ""), ("false", ""), ("echo", ""), ("cat", "u"), ("touch", "acm"), ("cp", "fp"),
    ("mv", "f"), ("rm", "fRr"), ("rmdir", ""), ("mkdir", "p"), ("ls", "1"), ("sleep", ""),
    ("basename", ""), ("dirname", ""), ("chmod", "fR")]

/-- The commands to which an option is a text as any other. -/
def withoutOptions : List String := ["true", "false", "echo"]

def needed : List (String × Nat) :=
  [("touch", 1), ("cp", 2), ("mv", 2), ("rm", 1), ("rmdir", 1), ("mkdir", 1), ("sleep", 1),
    ("basename", 1), ("dirname", 1)]

def lacking (name : String) (operands : List Bytes) : Bytes :=
  match name, operands with
  | "cp", [a] | "mv", [a] => bytes "missing destination file operand after " ++ inQuotes a
  | "cp", _ | "mv", _ | "touch", _ => bytes "missing file operand"
  | _, _ => bytes "missing operand"

def perform (name : String) (letters : Bytes) (operands : List Bytes) : Run PUnit := do
  match name, operands with
  | "false", _ => Run.finish 1
  | "echo", _ => Run.out (Bytes.join [32] operands ++ [10])
  | "cat", _ => cat operands
  | "touch", _ => touch operands
  | "cp", _ =>
    for source in operands.dropLast do
      let _ ← copy source (operands.getLastD [])
  | "mv", _ =>
    for source in operands.dropLast do
      move source (operands.getLastD [])
  | "rm", _ => remove letters operands
  | "rmdir", _ => removeDir operands
  | "mkdir", _ => makeDir letters operands
  | "ls", _ => list operands
  | "basename", path :: tails =>
    let base := Path.base path
    let tail := tails.headD []
    Run.out ((if base = tail then base else Bytes.withoutTail base tail) ++ [10])
  | "dirname", _ => Run.out (Bytes.lines (operands.map Path.dir))
  | "chmod", _ => changeMode operands
  | _, _ => pure ()

def command? (name called : Bytes) (args : List Bytes) : Option (Run PUnit) :=
  (known.find? fun (n, _) => bytes n == name).map fun (n, accepted) => do
    Run.succeed
    if withoutOptions.contains n then perform n [] args
    else
      let (letters, operands) := options args
      match letters.find? fun b => !(bytes accepted).contains b with
      | some b => misuse called (bytes "invalid option -- " ++ inQuotes [b])
      | none =>
        match needed.find? fun (m, k) => m = n && operands.length < k with
        | some _ =>
          if n = "rm" && letters.contains 102 then pure ()
          else misuse called (lacking n operands)
        | none => perform n letters operands

end Files

end Shell

end PrintLang
