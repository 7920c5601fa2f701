/-!
# Properties of code points

A property that gives every code point a number is written as the runs of equal numbers from zero on:
the length of a run in decimal digits, if it is not one, and its number in letters, of which a
capital one counts twenty-six.
-/

set_option autoImplicit false

namespace PrintLang

/-- Runs, each with the code point after its last and with its number. -/
abbrev Runs := List (Nat × Nat)

namespace Runs

/-- Reads runs. The code point where the run starts, the length so far and the number of the capital
letter so far are passed along. -/
def ofChars : (start length high : Nat) → List Char → Runs
  | _, _, _, [] => []
  | start, length, high, c :: rest =>
    if c.isDigit then ofChars start (length * 10 + (c.toNat - 48)) high rest
    else if c.isUpper then ofChars start length ((c.toNat - 65) * 26) rest
    else
      let stop := start + max length 1
      (stop, high + (c.toNat - 97)) :: ofChars stop 0 0 rest

def ofLines (lines : List String) : Runs := ofChars 0 0 0 (lines.flatMap String.toList)

def number (rs : Runs) (code : Nat) : Nat := ((rs.find? fun r => code < r.1).map (·.2)).getD 0

end Runs

end PrintLang
