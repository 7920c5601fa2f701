import PrintLang.Compile
import PrintLang.Tool

/-!
# Where a build takes place

What a build relies on and does not do itself: a disk, the tools, and the group in which its units run.
All of them are parameters of the build, so that whatever they may answer is covered.
-/

set_option autoImplicit false

namespace PrintLang

/-- How reading, making directories and writing turn out. What is refused may have been done in part. -/
structure Disk where
  read : FileTree → (path : Bytes) → Except Failure Bytes
  makeDirs : FileTree → (path : Bytes) → FileTree × Option Failure
  write : FileTree → (path content : Bytes) → FileTree × Option Failure

/-- The disk on which everything turns out as the tree has it. -/
def Disk.host : Disk where
  read t path := (t.readFile path).mapError FileError.failure
  makeDirs t path :=
    match t.makeDirs path with
    | .ok u => (u, none)
    | .error e => (t.withDirs path, some e.failure)
  write t path content :=
    match t.writeFile path content with
    | .ok u => (u, none)
    | .error e => (t, some e.failure)

/-- The group in which units run: which failure it keeps when one comes in, which failures call the
build off, and in which order it has the steps of units taken when it lets one run at a time. -/
structure Group where
  keep : (kept : Option Failure) → Failure → Failure
  callsOff : Failure → Bool
  order : (units : Nat) → List Nat

def Group.after (g : Group) (kept : Option Failure) : (new : Option Failure) → Option Failure
  | none => kept
  | some f => some (g.keep kept f)

/-- The disk may answer otherwise to every unit. A call of a tool may be made although the build has
been called off, and `late` is what becomes of it. -/
structure Site where
  disk : (source : Bytes) → Disk
  tools : Toolbox
  late : Toolbox
  group : Group

def Site.now (site : Site) (calledOff : Bool) : Site :=
  { site with tools := if calledOff then site.late else site.tools }

@[simp]
theorem Site.now_false (site : Site) : site.now false = site := rfl

/-- Tools that are not started any more. -/
def Toolbox.refused : Toolbox := fun t c => (t, some (.context c.name canceled))

end PrintLang
