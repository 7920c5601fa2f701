import PrintLang.Bytes.Base64
import PrintLang.Bytes.Double
import PrintLang.Bytes.Integer
import PrintLang.Yaml
import PrintLang.Yaml.Timestamp

set_option autoImplicit false

namespace PrintLang

namespace Yaml

/-- What a scalar stands for. A float keeps the 64-bit integer that it converts to, if it is not above
all of them. -/
inductive Value where
  | null
  | bool (value : Bool)
  | int (value : Int)
  | float (whole : Option Int)
  | timestamp
  | str (text : Bytes)
deriving DecidableEq, Repr

namespace Value

def tag : Value → Tag
  | .null => .null
  | .bool _ => .bool
  | .int _ => .int
  | .float _ => .float
  | .timestamp => .timestamp
  | .str _ => .str

def isDigit (b : UInt8) : Bool := Timestamp.isDigit b

/-- The least 64-bit integer, which also stands for what is out of range. -/
def least : Int := -9223372036854775808

def words : List (Bytes × Value) :=
  [([], .null), (bytes "~", .null), (bytes "null", .null), (bytes "Null", .null),
   (bytes "NULL", .null), (bytes "true", .bool true), (bytes "True", .bool true),
   (bytes "TRUE", .bool true), (bytes "false", .bool false), (bytes "False", .bool false),
   (bytes "FALSE", .bool false), (bytes ".nan", .float none), (bytes ".NaN", .float none),
   (bytes ".NAN", .float none), (bytes ".inf", .float none), (bytes ".Inf", .float none),
   (bytes ".INF", .float none), (bytes "+.inf", .float none), (bytes "+.Inf", .float none),
   (bytes "+.INF", .float none), (bytes "-.inf", .float (some least)),
   (bytes "-.Inf", .float (some least)), (bytes "-.INF", .float (some least))]

def ofWhole (negative : Bool) (n : Nat) : Value :=
  if negative then .float (some (if n ≤ 9223372036854775808 then -n else least))
  else if n < 9223372036854775808 then .float (some n)
  else .float (if n = 9223372036854775808 then some least else none)

def splitSign : Bytes → Bool × Bytes
  | 45 :: rest => (true, rest)
  | 43 :: rest => (false, rest)
  | s => (false, s)

def exponent? (s : Bytes) : Option Int :=
  let (negative, digits) := splitSign s
  if digits ≠ [] ∧ digits.all isDigit then
    let e : Nat := digits.foldl (fun e b => if e < 10000 then e * 10 + (b.toNat - 48) else e) 0
    some (if negative then -e else e)
  else none

/-- A decimal number: digits with an optional point, and an optional exponent. A number that is too
large is none. -/
def float? (s : Bytes) : Option Value :=
  let (negative, s) := splitSign s
  let before := s.takeWhile isDigit
  let s := s.drop before.length
  let (after, s) := match s with
    | 46 :: rest => (rest.takeWhile isDigit, rest.dropWhile isDigit)
    | _ => ([], s)
  if before = [] ∧ after = [] then none
  else
    let e : Option Int := match s with
      | [] => some 0
      | b :: rest => if b = 101 ∨ b = 69 then exponent? rest else none
    do
      let e ← e
      let m := Timestamp.digitsValue (before ++ after)
      let n ← Double.wholeOfDecimal? m (e - after.length)
      return ofWhole negative n

def intIn? (base : Base) (s : Bytes) : Option Value :=
  match Integer.read base 64 s with
  | .ok v => some (.int v)
  | .error _ =>
    match Integer.readUnsigned base 64 s with
    | .ok n => some (.int n)
    | .error _ => none

def markedInt? (s : Bytes) : Option Value :=
  match s with
  | 48 :: 98 :: rest => intIn? (.fixed 2) rest
  | 48 :: 111 :: rest => intIn? (.fixed 8) rest
  | _ => none

def number? (s : Bytes) : Option Value :=
  let plain := s.filter (· != 95)
  ((intIn? .marked plain).or (float? plain)).or (markedInt? plain)

def fraction? (s : Bytes) : Option Value :=
  if s.contains 95 && !Integer.underscoresOk s then none else float? (s.filter (· != 95))

/-- The value that a text looks like; `dated` says whether it may be a point in time. -/
def ofText (dated : Bool) (s : Bytes) : Value :=
  match words.lookup s with
  | some v => v
  | none =>
    match s with
    | [] => .null
    | b :: _ =>
      if b = 46 then (fraction? s).getD (.str s)
      else if isDigit b ∨ b = 45 ∨ b = 43 then
        if dated && Timestamp.isTimestamp s then .timestamp else (number? s).getD (.str s)
      else .str s

def plainTag (s : Bytes) : Tag := if s = bytes "<<" then .merge else (ofText true s).tag

def ofScalar (tag s : Bytes) : Except YamlError Value :=
  if tag = Tag.str.name then .ok (.str s)
  else if tag = Tag.binary.name then
    match Base64.decode? s with
    | some data => .ok (.str data)
    | none => failure (bytes "!!binary value contains invalid base64 data")
  else if [Tag.null, .bool, .int, .float, .timestamp].all fun t => tag != t.name then .ok (.str s)
  else
    let v := ofText (tag = Tag.timestamp.name) s
    if v.tag.name = tag then .ok v
    else
      let wrong := failure (bytes "cannot decode " ++ v.tag.name ++ bytes " \x60" ++ s ++
        bytes "\x60 as a " ++ tag)
      match v with
      | .int n =>
        if tag = Tag.float.name ∧ n ≤ 9223372036854775807 then
          match Double.whole? n.natAbs 1 with
          | some w => .ok (ofWhole (n < 0) w)
          | none => wrong
        else wrong
      | _ => wrong

end Value

end Yaml

end PrintLang
