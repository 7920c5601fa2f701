import PrintLang.Bytes.Quoted
import PrintLang.Yaml.Value

set_option autoImplicit false

namespace PrintLang

namespace Yaml

structure Decoding where
  problems : List Bytes
  nodes : Nat
  aliased : Nat
deriving DecidableEq, Repr

abbrev Decode (α : Type) := StateT Decoding (Except YamlError) α

/-- The document that is decoded and the places of the aliases that lead to the node at hand. -/
structure Scope where
  document : YamlDocument
  within : List Nat

namespace Decode

def problem (p : Bytes) : Decode PUnit :=
  modify fun d => { d with problems := d.problems ++ [p] }

def atLine (n : Nat) (what : Bytes) : Bytes := bytes "line " ++ decimalNat n ++ bytes ": " ++ what

def unfit (n : Nat) (tag s type : Bytes) : Bytes :=
  let shown := if 10 < s.length then s.take 7 ++ bytes "..." else s
  let what := if tag = Tag.seq.name ∨ tag = Tag.map.name then []
    else bytes " \x60" ++ shown ++ bytes "\x60"
  atLine n (bytes "cannot unmarshal " ++ tag ++ what ++ bytes " into " ++ type)

def repeatedKeys : List (Yaml × Yaml) → List Bytes
  | [] => []
  | (k, _) :: rest =>
    (rest.filterMap fun (other, _) =>
      if sameKey k other then
        some (atLine other.line (bytes "mapping key " ++ quoted other.text ++
          bytes " already defined at line " ++ decimalNat k.line))
      else none) ++ repeatedKeys rest

/-- Whether so much of a document comes from aliases that it must be meant to exhaust the reader: more
than 99 of 100 nodes, when there are many. -/
def isExcessive (d : Decoding) : Bool :=
  100 < d.aliased && 1000 < d.nodes && 99 * d.nodes < 100 * d.aliased

def meet (s : Scope) : Decode PUnit := do
  modify fun d => { d with
    nodes := d.nodes + 1
    aliased := if s.within = [] then d.aliased else d.aliased + 1 }
  if isExcessive (← get) then throw ⟨0, bytes "document contains excessive aliasing"⟩

def follow (s : Scope) (n : Yaml) : Decode (Scope × Yaml) := do
  meet s
  match n with
  | .alias _ place name target =>
    if s.within.contains place then
      throw ⟨0, bytes "anchor '" ++ name ++ bytes "' value contains itself"⟩
    else
      let s := { s with within := place :: s.within }
      meet s
      return (s, s.document.anchored[target]?.getD n)
  | _ => return (s, n)

def reject (type : Bytes) : Yaml → Decode PUnit
  | .scalar n tag text => problem (unfit n tag text type)
  | .seq n tag _ => problem (unfit n tag [] type)
  | .map n tag entries =>
    match repeatedKeys entries with
    | [] => problem (unfit n tag [] type)
    | ps => ps.forM problem
  | .alias .. => pure ⟨⟩

def refuse {α : Type} (type : Bytes) (n : Yaml) : Decode (Option α) := do
  reject type n
  return none

/-- A text. Numbers and truth values count by their spelling, and null gives nothing. -/
def text (s : Scope) (n : Yaml) : Decode (Option Bytes) := do
  let (_, n) ← follow s n
  match n with
  | .scalar _ tag text =>
    match ← Value.ofScalar tag text with
    | .null => return none
    | .str s => return some s
    | _ => return some text
  | n => refuse (bytes "string") n

def int (s : Scope) (n : Yaml) : Decode (Option Int) := do
  let (_, n) ← follow s n
  match n with
  | .scalar _ tag text =>
    match ← Value.ofScalar tag text with
    | .null => return none
    | .int v => if v ≤ 9223372036854775807 then return some v else refuse (bytes "int") n
    | .float (some v) => return some v
    | _ => refuse (bytes "int") n
  | n => refuse (bytes "int") n

def texts (s : Scope) (n : Yaml) : Decode (Option (List Bytes)) := do
  let (s, n) ← follow s n
  match n with
  | .scalar _ tag t =>
    match ← Value.ofScalar tag t with
    | .null => return some []
    | _ => refuse (bytes "[]string") n
  | .seq _ _ items => return some ((← items.mapM (text s)).filterMap id)
  | n => refuse (bytes "[]string") n

abbrev Fields (α : Type) := Bytes → Option (Scope → α → Yaml → Decode α)

def set {α β : Type} (read : Scope → Yaml → Decode (Option β)) (put : α → β → α) :
    Scope → α → Yaml → Decode α :=
  fun s a n => do return ((← read s n).map (put a)).getD a

def isMergeKey : Yaml → Bool
  | .scalar _ tag text => tag == Tag.merge.name && text == bytes "<<"
  | _ => false

def mergeName (s : Scope) (key : Yaml) : Decode (Option Bytes) := do
  let (_, n) ← follow s key
  match n with
  | .scalar _ tag text =>
    match ← Value.ofScalar tag text with
    | .str s => return some s
    | _ => return none
  | _ => return none

/-- Reads an entry of a record. A name in `merged` was set by a mapping that counts more, and a name
in `done` by this one. -/
def entry {α : Type} (type : Bytes) (field? : Fields α) (s : Scope) (a : α) (key value : Yaml)
    (merged : Option (List Bytes)) (done : List Bytes) :
    Decode (α × Option (List Bytes) × List Bytes) := do
  match ← text s key with
  | none => return (a, merged, done)
  | some name =>
    if merged.any (·.contains name) then return (a, merged, done)
    else
      let merged := merged.map (name :: ·)
      match field? name with
      | none =>
        problem (atLine key.line (bytes "field " ++ name ++ bytes " not found in type " ++ type))
        return (a, merged, done)
      | some field =>
        if done.contains name then
          problem (atLine key.line (bytes "field " ++ name ++ bytes " already set in type " ++ type))
          return (a, merged, done)
        else return (← field s a value, merged, name :: done)

def entries {α : Type} (type : Bytes) (field? : Fields α) (s : Scope) :
    α → Option (List Bytes) → List Bytes → List (Yaml × Yaml) →
    Decode (α × Option (List Bytes))
  | a, merged, _, [] => return (a, merged)
  | a, merged, done, (key, value) :: rest => do
    if isMergeKey key then entries type field? s a merged done rest
    else
      let (a, merged, done) ← entry type field? s a key value merged done
      entries type field? s a merged done rest

def standsForMap (s : Scope) : Yaml → Bool
  | .alias _ _ _ target => s.document.anchored[target]?.any isMap
  | n => n.isMap

/-- Reads a record on top of `a`: every entry with a known name is handed to its field, the other
names are problems, and the mappings under the merge key give the entries that are not there.
`merged` holds the names that are set, when this mapping is itself merged into another. -/
def recordFrom {α : Type} (type : Bytes) (field? : Fields α) : (fuel : Nat) → Scope →
    Option (List Bytes) → α → Yaml → Decode (α × Option (List Bytes))
  | 0, _, merged, a, _ => return (a, merged)
  | fuel + 1, s, merged, a, n => do
    let (s, n) ← follow s n
    match n with
    | .scalar _ tag text =>
      match ← Value.ofScalar tag text with
      | .null => return (a, merged)
      | _ =>
        reject type n
        return (a, merged)
    | .map _ _ es =>
      match repeatedKeys es with
      | [] =>
        let (a, merged) ← entries type field? s a merged [] es
        match (es.filter fun e => isMergeKey e.1).getLast? with
        | none => return (a, merged)
        | some (_, source) =>
          let names ← match merged with
            | some names => pure names
            | none => do pure ((← es.mapM fun e => mergeName s e.1).filterMap id)
          let sources := match source with
            | .seq _ _ items => items
            | source => [source]
          let (a, names) ← sources.foldlM (fun (a, names) source => do
            if !standsForMap s source then
              throw ⟨0, bytes "map merge requires map or sequence of maps as the value"⟩
            let (a, names) ← recordFrom type field? fuel s (some names) a source
            return (a, names.getD [])) (a, names)
          return (a, if merged.isSome then some names else none)
      | ps =>
        ps.forM problem
        return (a, merged)
    | n =>
      reject type n
      return (a, merged)

def record {α : Type} (type : Bytes) (field? : Fields α) (s : Scope) (a : α) (n : Yaml) :
    Decode α := do
  let size := s.document.size
  return (← recordFrom type field? (size * size) s none a n).1

end Decode

end Yaml

end PrintLang
