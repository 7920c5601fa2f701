import PrintLang.Session

set_option autoImplicit false

namespace PrintLang

def textOf (s : Bytes) : String := (String.fromUTF8? ⟨s.toArray⟩).getD ""

def maxDepth : Nat := 64

def loadPath : (depth : Nat) → FileTree → Place → String → IO FileTree
  | 0, tree, _, _ => return tree
  | depth + 1, tree, place, path => do
    let full := (← IO.currentDir) / path
    match ← full.readDir.toBaseIO with
    | .ok found =>
      found.foldlM (fun tree e =>
        loadPath depth tree (place ++ [bytes e.fileName]) (path ++ "/" ++ e.fileName))
        (tree.put place .directory)
    | .error _ =>
      match ← (IO.FS.readBinFile full).toBaseIO with
      | .ok content => return tree.put place (.file content.data.toList false)
      | .error _ => return tree

def namedPaths (args : List Bytes) : List Bytes :=
  match Request.read args with
  | .ok (.perform _ o rest) =>
    (if o.config = [] then Settings.fileName else o.config) :: o.outDir :: rest
  | _ => []

def loadAll (tree : FileTree) (paths : List Bytes) : IO FileTree :=
  (paths.filter (· != [])).foldlM (fun tree path =>
    loadPath maxDepth tree (Path.components (tree.absolute path)) (textOf path)) tree

def storeAll (before after : FileTree) : IO Unit :=
  after.entries.forM fun (place, e) => do
    let path := textOf (Path.slash :: Bytes.join [Path.slash] place)
    if before.entries.lookup place != some e then
      match e with
      | .file content _ => IO.FS.writeBinFile path ⟨content.toArray⟩
      | .directory => IO.FS.createDirAll path
      | .link _ => pure ()

end PrintLang

open PrintLang in
def main (args : List String) : IO UInt32 := do
  let args := args.map bytes
  let here := Path.components (bytes (← IO.currentDir).toString)
  let before ← loadAll ⟨here, []⟩ (namedPaths args)
  let r := invoke Toolbox.host before args
  storeAll before r.tree
  (← IO.getStdout).write ⟨r.stdout.toArray⟩
  (← IO.getStderr).write ⟨r.stderr.toArray⟩
  return (r.exit % 256).toNat.toUInt32
