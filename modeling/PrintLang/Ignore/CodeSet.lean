import PrintLang.Bytes
import PrintLang.Bytes.Category
import PrintLang.Bytes.Script

set_option autoImplicit false

namespace PrintLang

/-- A part of a set; the ranges are closed. -/
inductive CodePart where
  | ranges (rs : List (Nat × Nat))
  | category (name : String)
  | script (name : String)
deriving DecidableEq, Repr

namespace CodePart

def contains (code : Nat) : CodePart → Bool
  | .ranges rs => rs.any fun (lo, hi) => lo ≤ code && code ≤ hi
  | .category name => Category.holds name code
  | .script name => Script.holds name code

def digits : CodePart := .ranges [(48, 57)]

def wordChars : CodePart := .ranges [(48, 57), (65, 90), (95, 95), (97, 122)]

def blanks : CodePart := .ranges [(9, 10), (12, 13), (32, 32)]

def words : List (String × CodePart) :=
  [("alnum", .ranges [(48, 57), (65, 90), (97, 122)]),
   ("alpha", .ranges [(65, 90), (97, 122)]),
   ("ascii", .ranges [(0, 0x7f)]),
   ("blank", .ranges [(9, 9), (32, 32)]),
   ("cntrl", .ranges [(0, 31), (127, 127)]),
   ("digit", digits),
   ("graph", .ranges [(33, 126)]),
   ("lower", .ranges [(97, 122)]),
   ("print", .ranges [(32, 126)]),
   ("punct", .ranges [(33, 47), (58, 64), (91, 96), (123, 126)]),
   ("space", .ranges [(9, 13), (32, 32)]),
   ("upper", .ranges [(65, 90)]),
   ("word", wordChars),
   ("xdigit", .ranges [(48, 57), (65, 70), (97, 102)])]

end CodePart

structure CodeItem where
  negated : Bool
  part : CodePart
deriving DecidableEq, Repr

namespace CodeItem

def contains (code : Nat) (i : CodeItem) : Bool := i.negated != i.part.contains code

def range (lo hi : Nat) : CodeItem := ⟨false, .ranges [(lo, hi)]⟩

def negateIf (b : Bool) (i : CodeItem) : CodeItem := ⟨b != i.negated, i.part⟩

/-- The group with a letter of its own; the capital stands for all but the group. -/
def ofLetter? (c : Nat) : Option CodeItem :=
  match c with
  | 100 => some ⟨false, .digits⟩
  | 68 => some ⟨true, .digits⟩
  | 119 => some ⟨false, .wordChars⟩
  | 87 => some ⟨true, .wordChars⟩
  | 115 => some ⟨false, .blanks⟩
  | 83 => some ⟨true, .blanks⟩
  | _ => none

/-- The name as it is looked up: in small letters and without the signs between words. -/
def plainName (name : List Nat) : String :=
  let kept := name.filter fun c => c != 95 && c != 45 && c != 32
  String.ofList (kept.map fun c => Char.ofNat (if 65 ≤ c && c ≤ 90 then c + 32 else c))

def ofName? (name : List Nat) : Option CodeItem :=
  let name := plainName name
  if name == "any" then some (range 0 0x10ffff)
  else if name == "ascii" then some (range 0 0x7f)
  else if name == "assigned" then some ⟨true, .category "cn"⟩
  else match Category.short? name with
    | some c => some ⟨false, .category c⟩
    | none => if Script.names.contains name then some ⟨false, .script name⟩ else none

end CodeItem

structure CodeSet where
  negated : Bool
  items : List CodeItem
deriving DecidableEq, Repr

namespace CodeSet

def contains (s : CodeSet) (code : Nat) : Bool := s.negated != s.items.any (·.contains code)

def one (c : Nat) : CodeSet := ⟨false, [.range c c]⟩

def line : CodeSet := ⟨true, [.range 10 10]⟩

end CodeSet

end PrintLang
