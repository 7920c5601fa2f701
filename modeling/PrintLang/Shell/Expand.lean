import PrintLang.Shell.Pattern
import PrintLang.Shell.State
import PrintLang.Shell.Sum

set_option autoImplicit false

namespace PrintLang

namespace Shell

structure Fields where
  done : List Field
  current : Option Field

namespace Fields

def close (fs : Fields) : Fields := ⟨fs.done ++ fs.current.toList, none⟩

def add (fs : Fields) (s : Bytes) (quoted : Bool) : Fields :=
  { fs with current := some (fs.current.getD [] ++ s.map fun b => (b, quoted)) }

/-- Adds a text that is split where one of the separators stands. Blanks that separate count once. -/
def addSplit (fs : Fields) (separators s : Bytes) : Fields :=
  s.foldl (fun fs b =>
    if !separators.contains b then fs.add [b] false
    else if b == 32 || b == 9 || b == 10 then fs.close
    else (fs.add [] false).close) fs

def addEach (add : Fields → Bytes → Fields) (fs : Fields) : List Bytes → Fields
  | [] => fs
  | [s] => add fs s
  | s :: rest => addEach add (add fs s).close rest

end Fields

abbrev Capture := Bytes → Run Bytes

namespace Word

def valueOf (name : Bytes) : Run (Option (List Bytes)) := do
  let s ← get
  if name = [64] ∨ name = [42] then return if s.args.isEmpty then none else some s.args
  return (s.value? name).map ([·])

def separators : Run Bytes := do return ((← get).value? (bytes "IFS")).getD [32, 9, 10]

def addValue (split quoted : Bool) (name : Bytes) (vs : List Bytes) (fs : Fields) : Run Fields := do
  let seps ← separators
  if quoted && name == [64] && split then return fs.addEach (fun fs s => fs.add s true) vs
  else if quoted || !split then
    let between := if name = [42] then seps.take 1 else [32]
    return fs.add (Bytes.join between vs) quoted
  else return fs.addEach (fun fs s => fs.addSplit seps s) vs

/-- Adds the parts of a word; `capture` runs the commands in it, `split` tells whether it is split, and
`inside` whether it stands in for a parameter, so that its text is split too. The nesting of the word
bounds `fuel`. -/
def addParts (capture : Capture) :
    (fuel : Nat) → (split inside : Bool) → Word → Fields → Run Fields
  | 0, _, _, _, fs => return fs
  | _, _, _, [], fs => return fs
  | fuel + 1, split, inside, p :: rest, fs => do
    let fs ← match p with
      | .text s quoted =>
        if split && inside && !quoted then do return fs.addSplit (← separators) s
        else pure (fs.add s quoted)
      | .output script quoted => do
        let text := (Bytes.trimRightBy (· == 10) (← capture script)).filter (· != 0)
        addValue split quoted [] [text] fs
      | .sum expression quoted => do
        let inner ← addParts capture fuel false false expression ⟨[], none⟩
        let text := (inner.current.getD []).text
        let s ← get
        match Sum.eval (fun name => (s.value? name).getD []) text with
        | .ok n => addValue split quoted [] [decimal n] fs
        | .error e => Run.abort (e.message text)
      | .param name use word quoted => do
        let found ← valueOf name
        let missing (empty : Bool) : Bool := match found with
          | none => true
          | some vs => empty && vs.all (· == [])
        let single : Run Bytes := do
          let inner ← addParts capture fuel false false word ⟨[], none⟩
          return (inner.current.getD []).text
        let whole : Run Fields := do
          match found with
          | some vs => addValue split quoted name vs fs
          | none =>
            if (← get).options.refuseUnset && name != [64] && name != [42] then
              Run.abort (name ++ bytes ": parameter not set")
            else if quoted && name != [64] then return fs.add [] true
            else return fs
        match use with
        | .value => whole
        | .length => addValue split quoted [] [decimalNat (Bytes.join [32] (found.getD [])).length] fs
        | .orElse empty => if missing empty then addParts capture fuel split true word fs else whole
        | .instead empty => if missing empty then pure fs else addParts capture fuel split true word fs
        | .assign empty =>
          if missing empty then do
            let v ← single
            modify (·.assign name v)
            addValue split quoted name [v] fs
          else whole
        | .demand empty =>
          if missing empty then do
            let v ← single
            let usual := bytes (if empty then "parameter not set or null" else "parameter not set")
            Run.abort (name ++ bytes ": " ++ if v = [] then usual else v)
          else whole
        | .cutStart longest => do
          let inner ← addParts capture fuel false false word ⟨[], none⟩
          let p := Pattern.ofText (inner.current.getD [])
          addValue split quoted name ((found.getD [[]]).map (p.cutStart longest)) fs
        | .cutEnd longest => do
          let inner ← addParts capture fuel false false word ⟨[], none⟩
          let p := Pattern.ofText (inner.current.getD [])
          addValue split quoted name ((found.getD [[]]).map (p.cutEnd longest)) fs
        | .malformed => Run.abort (bytes "Bad substitution")
    addParts capture fuel split inside rest fs

def size : Word → Nat
  | [] => 0
  | .text _ _ :: rest => 1 + size rest
  | .param _ _ word _ :: rest => 1 + size word + size rest
  | .output _ _ :: rest => 1 + size rest
  | .sum word _ :: rest => 1 + size word + size rest

def fields (capture : Capture) (w : Word) : Run (List Bytes) := do
  let fs ← addParts capture (size w + 1) true false w ⟨[], none⟩
  let t := (← get).tree
  return fs.close.done.flatMap (·.expand t)

def field (capture : Capture) (w : Word) : Run Field := do
  let fs ← addParts capture (size w + 1) false false w ⟨[], none⟩
  return fs.current.getD []

def text (capture : Capture) (w : Word) : Run Bytes := do return (← field capture w).text

end Word

end Shell

end PrintLang
