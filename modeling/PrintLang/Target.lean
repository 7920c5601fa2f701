import PrintLang.Bytes.Quoted

set_option autoImplicit false

namespace PrintLang

structure Target where
  name : Bytes
  entry : Bytes
  stackSize : Int
  writeNumber : Int
  exitNumber : Int
deriving DecidableEq, Repr

inductive TargetError where
  | unsupportedOs (os : Bytes)
  | emptyEntry (name : Bytes)
  | stackSize (name : Bytes) (size : Int)
deriving DecidableEq, Repr

def TargetError.message : TargetError → Bytes
  | .unsupportedOs os => bytes "unsupported target os " ++ quoted os
  | .emptyEntry name => bytes "target " ++ name ++ bytes ": empty entry symbol"
  | .stackSize name size =>
    bytes "target " ++ name ++ bytes ": stack size " ++ decimal size ++
      bytes " must be a non-negative multiple of 16"

namespace Target

def linux : Target := ⟨bytes "linux", bytes "_start", 16, 1, 60⟩

/-- The system calls of this platform belong to the class `0x2000000`. -/
def darwin : Target := ⟨bytes "darwin", bytes "_main", 16, 0x2000004, 0x2000001⟩

def ofOs (os : Bytes) : Except TargetError Target :=
  if os = [] ∨ os = bytes "linux" then .ok linux
  else if os = bytes "darwin" ∨ os = bytes "macos" then .ok darwin
  else .error (.unsupportedOs os)

/-- The first of the generator's requirements that the target misses. -/
def fault? (t : Target) : Option TargetError :=
  if t.entry = [] then some (.emptyEntry t.name)
  else if t.stackSize < 0 ∨ t.stackSize % 16 ≠ 0 then some (.stackSize t.name t.stackSize)
  else none

end Target

end PrintLang
