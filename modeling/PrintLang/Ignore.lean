import PrintLang.Bytes.Blank
import PrintLang.Ignore.Regex.Reader

set_option autoImplicit false

namespace PrintLang

def ignoreFile : Bytes := bytes ".kotcignore"

/-- What the content of an ignore file makes of relative paths: which of them are ignored. -/
abbrev IgnoreRule := (content path : Bytes) → Bool

structure IgnorePattern where
  regex : Regex
  negated : Bool

namespace IgnorePattern

def replaceAll (old new : Bytes) : Bytes → Bytes
  | [] => []
  | b :: rest =>
    if old.isPrefixOf (b :: rest) then new ++ replaceAll old new (rest.drop (old.length - 1))
    else b :: replaceAll old new rest
termination_by s => s.length

def containsText (part : Bytes) : Bytes → Bool
  | [] => part == []
  | b :: rest => part.isPrefixOf (b :: rest) || containsText part rest

def starBelow : Bytes → Bool
  | a :: 47 :: rest =>
    (a != 47 && a != 43 && containsText (bytes "*.") rest) || starBelow (47 :: rest)
  | _ :: rest => starBelow rest
  | [] => false

/-- Stands for a star that is part of the expression already. -/
def keptStar : Bytes := bytes "#$~"

/-- The expression, as text, for a pattern without its mark of negation. A pattern that starts with a
slash holds at the top only. -/
def expression (line : Bytes) : Bytes :=
  let s := if starBelow line ∧ line.head? ≠ some 47 then 47 :: line else line
  let s := replaceAll (bytes ".") (bytes "\\.") s
  let s := if Bytes.startsWith s (bytes "/**/") then s.drop 1 else s
  let s := replaceAll (bytes "/**/") (bytes "(/|/.+/)") s
  let s := replaceAll (bytes "**/") (bytes "(|." ++ keptStar ++ bytes "/)") s
  let s := replaceAll (bytes "/**") (bytes "(|/." ++ keptStar ++ bytes ")") s
  let s := replaceAll (bytes "\\*") (bytes "\\" ++ keptStar) s
  let s := replaceAll (bytes "*") (bytes "([^/]*)") s
  let s := replaceAll (bytes "?") (bytes "\\?") s
  let s := replaceAll keptStar (bytes "*") s
  let s := s ++ if Bytes.endsWith s (bytes "/") then bytes "(|.*)$" else bytes "(|/.*)$"
  if s.head? = some 47 then bytes "^(|/)" ++ s.drop 1 else bytes "^(|.*/)" ++ s

/-- The pattern of a line. Comments, blank lines and lines that spell no expression have none. -/
def ofLine? (line : Bytes) : Option IgnorePattern :=
  let line := Bytes.trimRightBy (· == 13) line
  if line.head? = some 35 then none
  else
    let line := Bytes.trimBy (· == 32) line
    if line = [] then none
    else
      let (negated, line) := match line with
        | 33 :: rest => (true, rest)
        | _ => (false, line)
      let line := if line.head? = some 35 ∨ line.head? = some 33 then line.drop 1 else line
      (Regex.read? (expression line)).map (⟨·, negated⟩)

def ofFile (content : Bytes) : List IgnorePattern := (Bytes.splitOn 10 content).filterMap ofLine?

/-- Whether the last pattern that matches a path is not a negated one. -/
def ignores (ps : List IgnorePattern) (path : Bytes) : Bool :=
  ps.foldl (fun ignored p => if p.regex.search path then !p.negated else ignored) false

def rule : IgnoreRule := fun content path => ignores (ofFile content) path

end IgnorePattern

end PrintLang
