import PrintLang.Bytes

/-!
# YAML documents

A document is a tree of mappings, sequences and scalars. Every node has the line that it starts on
and a tag, which names its type. A node with an anchor is kept in a table, where aliases refer to it;
so a node may refer to itself.
-/

set_option autoImplicit false

namespace PrintLang

/-- A node of a document. A mapping keeps its entries in order, repeated keys included. The place of
an alias tells it from the other aliases of its target, which is a position in the table. -/
inductive Yaml where
  | scalar (line : Nat) (tag text : Bytes)
  | seq (line : Nat) (tag : Bytes) (items : List Yaml)
  | map (line : Nat) (tag : Bytes) (entries : List (Yaml × Yaml))
  | alias (line place : Nat) (name : Bytes) (target : Nat)

/-- A document: its topmost node, the nodes with an anchor, and a bound on the number of nodes. -/
structure YamlDocument where
  root : Yaml
  anchored : List Yaml
  size : Nat

/-- Why a text is no document. Line zero stands for no line. -/
structure YamlError where
  line : Nat
  problem : Bytes
deriving DecidableEq, Repr

def YamlError.message (e : YamlError) : Bytes :=
  let place := if e.line = 0 then [] else bytes "line " ++ decimalNat e.line ++ bytes ": "
  bytes "yaml: " ++ place ++ e.problem

namespace Yaml

def failure {α : Type} (problem : Bytes) : Except YamlError α := .error ⟨0, problem⟩

def line : Yaml → Nat
  | .scalar n _ _ => n
  | .seq n _ _ => n
  | .map n _ _ => n
  | .alias n _ _ _ => n

def isMap : Yaml → Bool
  | .map .. => true
  | _ => false

def text : Yaml → Bytes
  | .scalar _ _ s => s
  | .alias _ _ name _ => name
  | _ => []

def sameKey : Yaml → Yaml → Bool
  | .scalar _ _ s, .scalar _ _ t => s == t
  | .alias _ _ s _, .alias _ _ t _ => s == t
  | .seq .., .seq .. => true
  | .map .., .map .. => true
  | _, _ => false

inductive Tag where
  | null
  | bool
  | int
  | float
  | timestamp
  | str
  | binary
  | merge
  | seq
  | map
deriving DecidableEq, Repr

namespace Tag

def name : Tag → Bytes
  | .null => bytes "!!null"
  | .bool => bytes "!!bool"
  | .int => bytes "!!int"
  | .float => bytes "!!float"
  | .timestamp => bytes "!!timestamp"
  | .str => bytes "!!str"
  | .binary => bytes "!!binary"
  | .merge => bytes "!!merge"
  | .seq => bytes "!!seq"
  | .map => bytes "!!map"

def longForm : Bytes := bytes "tag:yaml.org,2002:"

def short (tag : Bytes) : Bytes :=
  if Bytes.startsWith tag longForm then bytes "!!" ++ tag.drop longForm.length else tag

end Tag

end Yaml

end PrintLang
