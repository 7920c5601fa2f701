import PrintLang.Bytes
import PrintLang.Yaml

set_option autoImplicit false

namespace PrintLang

namespace Yaml

structure Text where
  chars : List Char
  fault : Option Bytes

inductive Encoding where
  | utf8
  | utf16 (bigEndian : Bool)
deriving DecidableEq, Repr

/-- What stands at the start of some bytes: a character of a number of bytes, the first part of one,
or none. -/
inductive Coded where
  | code (value width : Nat)
  | part (problem : String)
  | fault (problem : String)
deriving DecidableEq, Repr

namespace Coded

def utf8Width? (b : UInt8) : Option Nat :=
  if b < 0x80 then some 1
  else if b < 0xc0 then none
  else if b < 0xe0 then some 2
  else if b < 0xf0 then some 3
  else if b < 0xf8 then some 4
  else none

def leastOfWidth : Nat → Nat
  | 2 => 0x80
  | 3 => 0x800
  | 4 => 0x10000
  | _ => 0

def ofUtf8 (b : UInt8) (rest : Bytes) : Coded :=
  match utf8Width? b with
  | none => .fault "invalid leading UTF-8 octet"
  | some width =>
    let tail := rest.take (width - 1)
    if tail.length < width - 1 then .part "incomplete UTF-8 octet sequence"
    else if tail.any fun t => t < 0x80 || 0xc0 ≤ t then .fault "invalid trailing UTF-8 octet"
    else
      let lead := match width with
        | 1 => b.toNat
        | 2 => b.toNat % 32
        | 3 => b.toNat % 16
        | _ => b.toNat % 8
      let value := tail.foldl (fun v t => v * 64 + t.toNat % 64) lead
      if value < leastOfWidth width then .fault "invalid length of a UTF-8 sequence"
      else if (0xd800 ≤ value && value ≤ 0xdfff) || 0x10ffff < value then
        .fault "invalid Unicode character"
      else .code value width

def word (bigEndian : Bool) (a b : UInt8) : Nat :=
  if bigEndian then a.toNat * 256 + b.toNat else b.toNat * 256 + a.toNat

def isLowSurrogate (v : Nat) : Bool := 0xdc00 ≤ v && v ≤ 0xdfff

def isHighSurrogate (v : Nat) : Bool := 0xd800 ≤ v && v ≤ 0xdbff

def ofUtf16 (bigEndian : Bool) (a : UInt8) : Bytes → Coded
  | [] => .part "incomplete UTF-16 character"
  | b :: rest =>
    let high := word bigEndian a b
    if isLowSurrogate high then .fault "unexpected low surrogate area"
    else if isHighSurrogate high then
      match rest with
      | c :: d :: _ =>
        let low := word bigEndian c d
        if isLowSurrogate low then .code (0x10000 + (high - 0xd800) * 1024 + (low - 0xdc00)) 4
        else .fault "expected low surrogate area"
      | _ => .part "incomplete UTF-16 surrogate pair"
    else .code high 2

def first : Encoding → UInt8 → Bytes → Coded
  | .utf8, b, rest => ofUtf8 b rest
  | .utf16 bigEndian, b, rest => ofUtf16 bigEndian b rest

end Coded

def isAllowed (c : Nat) : Bool :=
  c == 9 || c == 10 || c == 13 || (0x20 ≤ c && c ≤ 0x7e) || c == 0x85 ||
    (0xa0 ≤ c && c ≤ 0xd7ff) || (0xe000 ≤ c && c ≤ 0xfffd) || (0x10000 ≤ c && c ≤ 0x10ffff)

/-- What the reading of a portion comes to: its characters and the bytes of a character that it cuts,
with what is wrong if no more follow. -/
structure Portion where
  chars : List Char
  left : Bytes
  cut : Option Bytes

namespace Portion

def read (e : Encoding) : (fuel : Nat) → Bytes → Except Bytes Portion
  | 0, left => .ok ⟨[], left, none⟩
  | _, [] => .ok ⟨[], [], none⟩
  | fuel + 1, b :: rest =>
    match Coded.first e b rest with
    | .fault problem => .error (bytes problem)
    | .part problem => .ok ⟨[], b :: rest, some (bytes problem)⟩
    | .code value width =>
      if !isAllowed value then .error (bytes "control characters are not allowed")
      else match read e fuel (rest.drop (width - 1)) with
        | .error problem => .error problem
        | .ok p => .ok { p with chars := Char.ofNat value :: p.chars }

end Portion

namespace Text

def portionSize : Nat := 512

/-- Reads bytes portion by portion; `size` is the size of the next one. -/
def ofPortions (e : Encoding) : (fuel size : Nat) → Bytes → Text
  | 0, _, _ => ⟨[], none⟩
  | fuel + 1, size, s =>
    match Portion.read e size (s.take size) with
    | .error problem => ⟨[], some problem⟩
    | .ok p =>
      if s.length ≤ size then ⟨p.chars, p.cut⟩
      else
        let more := ofPortions e fuel portionSize (p.left ++ s.drop size)
        ⟨p.chars ++ more.chars, more.fault⟩

def ofBytes (s : Bytes) : Text :=
  match s with
  | 0xff :: 0xfe :: rest => ofPortions (.utf16 false) (s.length + 1) (portionSize - 2) rest
  | 0xfe :: 0xff :: rest => ofPortions (.utf16 true) (s.length + 1) (portionSize - 2) rest
  | 0xef :: 0xbb :: 0xbf :: rest => ofPortions .utf8 (s.length + 1) (portionSize - 3) rest
  | _ => ofPortions .utf8 (s.length + 1) portionSize s

end Text

end Yaml

end PrintLang
