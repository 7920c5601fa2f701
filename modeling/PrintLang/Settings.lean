import PrintLang.Bytes.Quoted
import PrintLang.FileTree
import PrintLang.Target
import PrintLang.Yaml.Decode
import PrintLang.Yaml.Reader

set_option autoImplicit false

namespace PrintLang

structure Toolchain where
  assembler : Bytes
  linker : Bytes
  linkFlags : List Bytes
  runtime : Bytes
deriving DecidableEq, Repr

/-- Settings. An empty entry and a stack size of zero stand for those of the preset. -/
structure Settings where
  os : Bytes
  entry : Bytes
  stackSize : Int
  toolchain : Toolchain
  color : Bytes
deriving DecidableEq, Repr

inductive SettingsError where
  | malformed (e : YamlError)
  | mismatched (problems : List Bytes)
  | target (e : TargetError)
  | color (mode : Bytes)
  | toolchain
deriving DecidableEq, Repr

namespace SettingsError

def message : SettingsError → Bytes
  | .malformed e => bytes "failed to parse YAML: " ++ e.message
  | .mismatched ps =>
    bytes "failed to parse YAML: yaml: unmarshal errors:" ++ ps.flatMap fun p => bytes "\n  " ++ p
  | .target e => e.message
  | .color mode => bytes "diagnostics.color must be auto, always or never, got " ++ quoted mode
  | .toolchain => bytes "toolchain.assembler and toolchain.linker must be set"

end SettingsError

inductive SettingsFailure where
  | unreadable (path : Bytes) (e : FileError)
  | invalid (path : Bytes) (e : SettingsError)
deriving DecidableEq, Repr

def SettingsFailure.failure : SettingsFailure → Failure
  | .unreadable path e => .context (bytes "failed to read config " ++ path) e.failure
  | .invalid path e => .context path (.plain none e.message)

namespace Settings

def fileName : Bytes := bytes "kotc.yaml"

def default : Settings :=
  { os := Target.linux.name
    entry := []
    stackSize := Target.linux.stackSize
    toolchain := ⟨bytes "as", bytes "ld", [], []⟩
    color := bytes "auto" }

open Yaml.Decode in
def targetField? : Fields Settings := fun name =>
  if name = bytes "os" then some (set text fun s v => { s with os := v })
  else if name = bytes "entry" then some (set text fun s v => { s with entry := v })
  else if name = bytes "stack_size" then some (set int fun s v => { s with stackSize := v })
  else none

open Yaml.Decode in
def toolchainField? : Fields Toolchain := fun name =>
  if name = bytes "assembler" then some (set text fun t v => { t with assembler := v })
  else if name = bytes "linker" then some (set text fun t v => { t with linker := v })
  else if name = bytes "link_flags" then some (set texts fun t v => { t with linkFlags := v })
  else if name = bytes "runtime" then some (set text fun t v => { t with runtime := v })
  else none

open Yaml.Decode in
def diagnosticsField? : Fields Settings := fun name =>
  if name = bytes "color" then some (set text fun s v => { s with color := v })
  else none

open Yaml.Decode in
def field? : Fields Settings := fun name =>
  if name = bytes "target" then some (record (bytes "config.TargetConfig") targetField?)
  else if name = bytes "toolchain" then
    some fun scope s n => do
      let t ← record (bytes "config.ToolchainConfig") toolchainField? scope s.toolchain n
      return { s with toolchain := t }
  else if name = bytes "diagnostics" then
    some (record (bytes "config.DiagnosticsConfig") diagnosticsField?)
  else none

def target (s : Settings) : Except TargetError Target :=
  match Target.ofOs s.os with
  | .error e => .error e
  | .ok t =>
    let t := if s.entry = [] then t else { t with entry := s.entry }
    let t := if s.stackSize = 0 then t else { t with stackSize := s.stackSize }
    match t.fault? with
    | some e => .error e
    | none => .ok t

/-- The first fault: the operating system, the colour, the tools, then the rest of the target. -/
def fault? (s : Settings) : Option SettingsError :=
  match Target.ofOs s.os with
  | .error e => some (.target e)
  | .ok _ =>
    if s.color ≠ bytes "auto" ∧ s.color ≠ bytes "always" ∧ s.color ≠ bytes "never" then
      some (.color s.color)
    else if s.toolchain.assembler = [] ∨ s.toolchain.linker = [] then some .toolchain
    else match s.target with
      | .error e => some (.target e)
      | .ok _ => none

def ofDocument (d : YamlDocument) : Except SettingsError Settings :=
  match (Yaml.Decode.record (bytes "config.Config") field? ⟨d, []⟩ default d.root).run ⟨[], 1, 0⟩ with
  | .error e => .error (.malformed e)
  | .ok (s, decoding) =>
    if decoding.problems = [] then .ok s else .error (.mismatched decoding.problems)

def read (text : Bytes) : Except SettingsError Settings := do
  let s ← match Yaml.read text with
    | .error e => .error (.malformed e)
    | .ok none => .ok default
    | .ok (some d) => ofDocument d
  match s.fault? with
  | some e => .error e
  | none => .ok s

def load (t : FileTree) (path : Bytes) : Except SettingsFailure Settings :=
  match t.readFile path with
  | .error e => .error (.unreadable path e)
  | .ok text =>
    match read text with
    | .error e => .error (.invalid path e)
    | .ok s => .ok s

def discover (t : FileTree) (dir : Bytes) : Except SettingsFailure Settings :=
  let path := Path.join dir fileName
  match t.stat path with
  | .error ⟨_, _, .notFound⟩ => .ok default
  | _ => load t path

end Settings

end PrintLang
