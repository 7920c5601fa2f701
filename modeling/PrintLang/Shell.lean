import PrintLang.Bytes

/-!
# Shell commands

The command language of tools that are scripts. A command is made of words, and a word of literal text
and of what is filled in when the command runs: parameters, the output of other commands, and sums.
-/

set_option autoImplicit false

namespace PrintLang

namespace Shell

/-- What is made of the value of a parameter. `empty` says whether an empty value counts as none, and
`longest` which of two matches is cut off. -/
inductive Use where
  | value
  | length
  | orElse (empty : Bool)
  | assign (empty : Bool)
  | demand (empty : Bool)
  | instead (empty : Bool)
  | cutStart (longest : Bool)
  | cutEnd (longest : Bool)
  | malformed
deriving DecidableEq, Repr

/-- A part of a word. What is not quoted is split into fields and may be a pattern. -/
inductive Part where
  | text (s : Bytes) (quoted : Bool)
  | param (name : Bytes) (use : Use) (word : List Part) (quoted : Bool)
  | output (script : Bytes) (quoted : Bool)
  | sum (expression : List Part) (quoted : Bool)
deriving Repr

abbrev Word := List Part

inductive Mode where
  | input
  | output
  | append
  | duplicate
deriving DecidableEq, Repr

inductive Redirect where
  | file (stream : Nat) (mode : Mode) (target : Word)
  | here (stream : Nat) (body : Word)
deriving Repr

structure Simple where
  line : Nat
  assignments : List (Bytes × Word)
  words : List Word
  redirects : List Redirect
deriving Repr

inductive Command where
  | skip
  | simple (c : Simple)
  | next (first second : Command)
  | both (first second : Command)
  | either (first second : Command)
  | negated (c : Command)
  | pipe (first second : Command)
  | background (c : Command)
  | group (c : Command) (line : Nat) (redirects : List Redirect)
  | inside (c : Command) (line : Nat) (redirects : List Redirect)
  | choose (test yes no : Command)
  | repeated (whileFails : Bool) (test body : Command)
  | each (line : Nat) (name : Bytes) (words : List Word) (body : Command)
  | select (line : Nat) (word : Word) (arms : List (List Word × Command))
  | define (name : Bytes) (body : Command)
deriving Repr

def startsName (b : UInt8) : Bool := (65 ≤ b && b ≤ 90) || (97 ≤ b && b ≤ 122) || b == 95

def isDigit (b : UInt8) : Bool := 48 ≤ b && b ≤ 57

def isNameByte (b : UInt8) : Bool := startsName b || isDigit b

def isName : Bytes → Bool
  | [] => false
  | b :: rest => startsName b && rest.all isNameByte

end Shell

end PrintLang
