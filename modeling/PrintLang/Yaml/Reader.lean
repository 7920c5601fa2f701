import PrintLang.Yaml.Token.Stream
import PrintLang.Yaml.Value

set_option autoImplicit false

namespace PrintLang

namespace Yaml

/-- The tokens to come, what the handles of tags stand for, and the nodes with an anchor: their names
with their positions, the last use of a name first, and the table. A node is in the table from its
start on, but empty until its end. -/
structure Reading where
  stream : Stream
  handles : List (Bytes × Bytes)
  names : List (Bytes × Nat)
  anchored : List Yaml

abbrev Read (α : Type) := StateT Reading (Except YamlError) α

namespace Read

def knownHandles : List (Bytes × Bytes) := [(bytes "!", bytes "!"), (bytes "!!", Tag.longForm)]

def peek : Read Located := do
  let r ← get
  let (t, stream) ← r.stream.peek
  set { r with stream := stream }
  return t

def skip : Read PUnit := modify fun r => { r with stream := r.stream.skip }

/-- A token stands where it must not. Of the lines before the start of what it breaks and before the
token, the first that is not zero is named. -/
def fail {α : Type} (start place : Mark) (problem : String) : Read α :=
  throw ⟨if start.line ≠ 0 then start.line else place.line, bytes problem⟩

def failAt {α : Type} (place : Mark) (problem : String) : Read α := fail ⟨0, 0, 0⟩ place problem

def missing (m : Mark) : Yaml := .scalar (m.line + 1) Tag.null.name []

structure Properties where
  mark : Mark
  anchor : Option Bytes
  tag : Option (Mark × Bytes × Bytes)

def properties : Read Properties := do
  let t ← peek
  match t.token with
  | .anchor name =>
    skip
    let u ← peek
    match u.token with
    | .tag handle suffix =>
      skip
      return ⟨t.mark, some name, some (u.mark, handle, suffix)⟩
    | _ => return ⟨t.mark, some name, none⟩
  | .tag handle suffix =>
    skip
    let u ← peek
    match u.token with
    | .anchor name =>
      skip
      return ⟨t.mark, some name, some (t.mark, handle, suffix)⟩
    | _ => return ⟨t.mark, none, some (t.mark, handle, suffix)⟩
  | _ => return ⟨t.mark, none, none⟩

def fullTag (p : Properties) : Read Bytes := do
  match p.tag with
  | none => return []
  | some (m, handle, suffix) =>
    if handle = [] then return suffix
    else match (← get).handles.lookup handle with
      | some expansion => return expansion ++ suffix
      | none => fail p.mark m "found undefined tag handle"

def tagOr (given : Bytes) (tag : Tag) : Bytes :=
  if given = [] ∨ given = [33] then tag.name else Tag.short given

def anchorStart (p : Properties) : Read (Option Nat) := do
  match p.anchor with
  | none => return none
  | some name =>
    let r ← get
    let n := r.anchored.length
    set { r with names := (name, n) :: r.names, anchored := r.anchored ++ [missing p.mark] }
    return some n

def anchorEnd (place : Option Nat) (node : Yaml) : Read Yaml := do
  match place with
  | none => return node
  | some n =>
    modify fun r => { r with anchored := r.anchored.set n node }
    return node

def scalarNode (p : Properties) (given : Bytes) (plain : Bool) (text : Bytes) : Read Yaml := do
  let place ← anchorStart p
  let tag := tagOr given (if plain then Value.plainTag text else .str)
  anchorEnd place (.scalar (p.mark.line + 1) tag text)

def aliasNode (m : Mark) (name : Bytes) : Read Yaml := do
  match (← get).names.lookup name with
  | some target => return .alias (m.line + 1) m.index name target
  | none => throw ⟨0, bytes "unknown anchor '" ++ name ++ bytes "' referenced"⟩

def endsBlockNode : Token → Bool
  | .key => true
  | .value => true
  | .blockEnd => true
  | _ => false

mutual

/-- Reads a node. Blocks may only stand in blocks, and only the value or the key of a mapping may be a
sequence that is not indented. -/
def node : (fuel : Nat) → (block flush : Bool) → Read Yaml
  | 0, _, _ => throw ⟨0, bytes "did not find expected node content"⟩
  | fuel + 1, block, flush => do
    let t ← peek
    match t.token with
    | .alias name =>
      let a ← aliasNode t.mark name
      skip
      return a
    | _ =>
      let p ← properties
      let t ← peek
      let given ← fullTag p
      let seq (items : Read (List Yaml)) : Read Yaml := do
        let place ← anchorStart p
        let items ← items
        anchorEnd place (.seq (p.mark.line + 1) (tagOr given .seq) items)
      let map (entries : Read (List (Yaml × Yaml))) : Read Yaml := do
        let place ← anchorStart p
        let entries ← entries
        anchorEnd place (.map (p.mark.line + 1) (tagOr given .map) entries)
      match t.token with
      | .scalar plain text =>
        skip
        scalarNode p given plain text
      | .flowSeqStart => seq do skip; flowItems fuel true t.mark
      | .flowMapStart => map do skip; flowEntries fuel true t.mark
      | .blockSeqStart =>
        if block then seq do skip; blockItems fuel t.mark
        else contentMissing p given t
      | .blockMapStart =>
        if block then map do skip; blockEntries fuel t.mark
        else contentMissing p given t
      | .blockEntry =>
        if flush then seq (flushItems fuel) else contentMissing p given t
      | _ => contentMissing p given t

def contentMissing (p : Properties) (given : Bytes) (t : Located) : Read Yaml :=
  if p.anchor.isSome || !given.isEmpty then scalarNode p given true []
  else fail p.mark t.mark "did not find expected node content"

def blockItems : (fuel : Nat) → (start : Mark) → Read (List Yaml)
  | 0, start => failAt start "did not find expected '-' indicator"
  | fuel + 1, start => do
    let t ← peek
    match t.token with
    | .blockEntry =>
      skip
      let next ← peek
      let item ← match next.token with
        | .blockEntry => pure (missing t.mark)
        | .blockEnd => pure (missing t.mark)
        | _ => node fuel true false
      return item :: (← blockItems fuel start)
    | .blockEnd =>
      skip
      return []
    | _ => fail start t.mark "did not find expected '-' indicator"

/-- Reads the items of a sequence that is not indented; what follows it ends it. -/
def flushItems : (fuel : Nat) → Read (List Yaml)
  | 0 => throw ⟨0, bytes "did not find expected '-' indicator"⟩
  | fuel + 1 => do
    let t ← peek
    match t.token with
    | .blockEntry =>
      skip
      let next ← peek
      let item ←
        if next.token = .blockEntry ∨ endsBlockNode next.token then pure (missing t.mark)
        else node fuel true false
      return item :: (← flushItems fuel)
    | _ => return []

def blockEntries : (fuel : Nat) → (start : Mark) → Read (List (Yaml × Yaml))
  | 0, start => failAt start "did not find expected key"
  | fuel + 1, start => do
    let t ← peek
    match t.token with
    | .key =>
      skip
      let next ← peek
      let key ← if endsBlockNode next.token then pure (missing t.mark) else node fuel true true
      let value ← blockValue fuel
      return (key, value) :: (← blockEntries fuel start)
    | .blockEnd =>
      skip
      return []
    | _ => fail start t.mark "did not find expected key"

def blockValue : (fuel : Nat) → Read Yaml
  | 0 => throw ⟨0, bytes "did not find expected key"⟩
  | fuel + 1 => do
    let t ← peek
    match t.token with
    | .value =>
      skip
      let next ← peek
      if endsBlockNode next.token then return missing t.mark else node fuel true true
    | _ => return missing t.mark

def flowItems : (fuel : Nat) → (first : Bool) → (start : Mark) → Read (List Yaml)
  | 0, _, start => failAt start "did not find expected ',' or ']'"
  | fuel + 1, first, start => do
    let t ← peek
    if t.token = .flowSeqEnd then
      skip
      return []
    else
      if !first then
        if t.token = .flowEntry then skip
        else fail start t.mark "did not find expected ',' or ']'"
      let t ← peek
      match t.token with
      | .flowSeqEnd =>
        skip
        return []
      | .key =>
        skip
        let key ← flowPairKey fuel
        let value ← flowPairValue fuel
        let item := Yaml.map (t.mark.line + 1) Tag.map.name [(key, value)]
        return item :: (← flowItems fuel false start)
      | _ =>
        let item ← node fuel false false
        return item :: (← flowItems fuel false start)

/-- Reads the key of a pair in a flow sequence. If it is missing, the token in its place goes with
it. -/
def flowPairKey : (fuel : Nat) → Read Yaml
  | 0 => throw ⟨0, bytes "did not find expected node content"⟩
  | fuel + 1 => do
    let t ← peek
    match t.token with
    | .value =>
      skip
      return missing t.mark
    | .flowEntry =>
      skip
      return missing t.mark
    | .flowSeqEnd =>
      skip
      return missing t.mark
    | _ => node fuel false false

def flowPairValue : (fuel : Nat) → Read Yaml
  | 0 => throw ⟨0, bytes "did not find expected node content"⟩
  | fuel + 1 => do
    let t ← peek
    match t.token with
    | .value =>
      skip
      let next ← peek
      match next.token with
      | .flowEntry => return missing t.mark
      | .flowSeqEnd => return missing t.mark
      | _ => node fuel false false
    | _ => return missing t.mark

def flowEntries : (fuel : Nat) → (first : Bool) → (start : Mark) → Read (List (Yaml × Yaml))
  | 0, _, start => failAt start "did not find expected ',' or '\x7d'"
  | fuel + 1, first, start => do
    let t ← peek
    if t.token = .flowMapEnd then
      skip
      return []
    else
      if !first then
        if t.token = .flowEntry then skip
        else fail start t.mark "did not find expected ',' or '\x7d'"
      let t ← peek
      match t.token with
      | .flowMapEnd =>
        skip
        return []
      | .key =>
        skip
        let next ← peek
        let key ← match next.token with
          | .value => pure (missing next.mark)
          | .flowEntry => pure (missing next.mark)
          | .flowMapEnd => pure (missing next.mark)
          | _ => node fuel false false
        let value ← flowValue fuel
        return (key, value) :: (← flowEntries fuel false start)
      | _ =>
        let key ← node fuel false false
        let next ← peek
        return (key, missing next.mark) :: (← flowEntries fuel false start)

def flowValue : (fuel : Nat) → Read Yaml
  | 0 => throw ⟨0, bytes "did not find expected node content"⟩
  | fuel + 1 => do
    let t ← peek
    match t.token with
    | .value =>
      skip
      let next ← peek
      match next.token with
      | .flowEntry => return missing next.mark
      | .flowMapEnd => return missing next.mark
      | _ => node fuel false false
    | _ => return missing t.mark

end

def directives : (fuel : Nat) → (versioned : Bool) → Read PUnit
  | 0, _ => pure ⟨⟩
  | fuel + 1, versioned => do
    let t ← peek
    match t.token with
    | .version major minor =>
      if versioned then failAt t.mark "found duplicate %YAML directive"
      else if major ≠ 1 ∨ minor ≠ 1 then failAt t.mark "found incompatible YAML document"
      else
        skip
        directives fuel true
    | .handle name expansion =>
      if ((← get).handles.lookup name).isSome then failAt t.mark "found duplicate %TAG directive"
      else
        modify fun r => { r with handles := r.handles ++ [(name, expansion)] }
        skip
        directives fuel versioned
    | _ =>
      modify fun r => { r with handles := r.handles ++ knownHandles }

def isOutside : Token → Bool
  | .version _ _ => true
  | .handle _ _ => true
  | .documentStart => true
  | .streamEnd => true
  | _ => false

def document (fuel : Nat) : Read (Option Yaml) := do
  let _ ← peek
  skip
  let t ← peek
  if t.token = .streamEnd then return none
  else
    directives fuel false
    let root ←
      if !isOutside t.token then node fuel true false
      else
        let t ← peek
        if t.token ≠ .documentStart then failAt t.mark "did not find expected <document start>"
        else
          skip
          let t ← peek
          if isOutside t.token ∨ t.token = .documentEnd then pure (missing t.mark)
          else node fuel true false
    let _ ← peek
    return some root

end Read

def read (text : Bytes) : Except YamlError (Option YamlDocument) := do
  let stream := Stream.ofText (Text.ofBytes text)
  let size := 8 * text.length + 16
  let (root, last) ← (Read.document size).run ⟨stream, [], [], []⟩
  return root.map fun root => ⟨root, last.anchored, size⟩

end Yaml

end PrintLang
