import PrintLang.Bytes

set_option autoImplicit false

namespace PrintLang

namespace Signal

/-- The names of the signals, from zero on. Zero stands for the end of a script. -/
def names : List String :=
  ["EXIT", "HUP", "INT", "QUIT", "ILL", "TRAP", "ABRT", "BUS", "FPE", "KILL", "USR1", "SEGV", "USR2", "PIPE",
    "ALRM", "TERM", "16", "CHLD", "CONT", "STOP", "TSTP", "TTIN", "TTOU", "URG", "XCPU", "XFSZ", "VTALRM",
    "PROF", "WINCH", "IO", "PWR", "SYS"]

def texts : List String :=
  ["signal 0", "hangup", "interrupt", "quit", "illegal instruction", "trace/breakpoint trap", "aborted",
    "bus error", "floating point exception", "killed", "user defined signal 1", "segmentation fault",
    "user defined signal 2", "broken pipe", "alarm clock", "terminated"]

def reports : List String :=
  ["", "Hangup", "", "Quit", "Illegal instruction", "Trace/breakpoint trap", "Aborted", "Bus error",
    "Floating point exception", "Killed", "User defined signal 1", "Segmentation fault",
    "User defined signal 2", "", "Alarm clock", "Terminated"]

def text (n : Nat) : Bytes :=
  match texts[n]? with
  | some s => bytes s
  | none => bytes "signal " ++ decimalNat n

def report (n : Nat) : Bytes := bytes (reports[n]?.getD "")

def ofName? (s : Bytes) : Option Nat :=
  match names.findIdx? fun n => bytes n == s with
  | some n => some n
  | none =>
    if s ≠ [] ∧ s.length ≤ 2 ∧ s.all fun b => 48 ≤ b && b ≤ 57 then
      some (s.foldl (fun n d => 10 * n + (d.toNat - 48)) 0)
    else none

def ignored (n : Nat) : Bool := n == 0 || n == 17 || n == 18 || n == 23 || n == 28

end Signal

end PrintLang
