import PrintLang.Bytes.Utf8
import PrintLang.Ignore.CodeSet

/-!
# Regular expressions

Expressions over code points with conditions on the place between two of them, and matching by partial
derivatives: what is left to match after a code point is a set of expressions, each a part of the
first one.
-/

set_option autoImplicit false

namespace PrintLang

/-- A place in a text: the code points before and after it, if there are any. -/
structure Between where
  before : Option Nat
  after : Option Nat
deriving DecidableEq, Repr

inductive PlaceTest where
  | start
  | stop
  | wordEdge
  | noWordEdge
deriving DecidableEq, Repr

namespace PlaceTest

def isWord (c : Option Nat) : Bool := c.any (CodePart.wordChars.contains ·)

def holds (p : Between) : PlaceTest → Bool
  | .start => p.before.isNone
  | .stop => p.after.isNone
  | .wordEdge => isWord p.before != isWord p.after
  | .noWordEdge => isWord p.before == isWord p.after

end PlaceTest

inductive Regex where
  | never
  | empty
  | set (codes : CodeSet)
  | test (t : PlaceTest)
  | seq (a b : Regex)
  | alt (a b : Regex)
  | star (a : Regex)
deriving DecidableEq, Repr

namespace Regex

def nullable (p : Between) : Regex → Bool
  | .never => false
  | .empty => true
  | .set _ => false
  | .test t => t.holds p
  | .seq a b => a.nullable p && b.nullable p
  | .alt a b => a.nullable p || b.nullable p
  | .star _ => true

def mkSeq : Regex → Regex → Regex
  | .never, _ => .never
  | .empty, b => b
  | a, b => .seq a b

/-- What may be left to match after the code point `c`, which comes after `before`. -/
def derivs (before : Option Nat) (c : Nat) : Regex → List Regex
  | .never => []
  | .empty => []
  | .set s => if s.contains c then [.empty] else []
  | .test _ => []
  | .seq a b =>
    let left := (a.derivs before c).map (mkSeq · b)
    if a.nullable ⟨before, some c⟩ then left ++ b.derivs before c else left
  | .alt a b => a.derivs before c ++ b.derivs before c
  | .star a => (a.derivs before c).map (mkSeq · (.star a))

/-- Whether one of the expressions matches from here, or `r` from here or later. -/
def searchFrom (r : Regex) : (before : Option Nat) → List Regex → List Nat → Bool
  | before, live, [] => (r :: live).any (nullable ⟨before, none⟩)
  | before, live, c :: rest =>
    (r :: live).any (nullable ⟨before, some c⟩) ||
      searchFrom r (some c) ((r :: live).flatMap (derivs before c)).eraseDups rest

def search (r : Regex) (text : Bytes) : Bool :=
  searchFrom r none [] ((Bytes.pieces text).map Piece.value)

def power (r : Regex) : Nat → Regex
  | 0 => .empty
  | n + 1 => mkSeq r (power r n)

def upTo (r : Regex) : Nat → Regex
  | 0 => .empty
  | n + 1 => .alt .empty (mkSeq r (upTo r n))

def times (least : Nat) (most : Option Nat) (r : Regex) : Regex :=
  match most with
  | none => if least = 0 then .star r else mkSeq (r.power least) (.star r)
  | some m => mkSeq (r.power least) (r.upTo (m - least))

end Regex

end PrintLang
