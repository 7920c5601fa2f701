import PrintLang.Shell.Token

set_option autoImplicit false

namespace PrintLang

namespace Shell

structure Fault where
  line : Nat
  message : Bytes
deriving DecidableEq, Repr

abbrev Reading (α : Type) := StateT (List (Token × Nat)) (Except Fault) α

def keywords : List String :=
  ["!", "case", "do", "done", "elif", "else", "esac", "fi", "for", "if", "in", "then", "until", "while",
    "\x7b", "\x7d"]

def closingKeywords : List String := ["do", "done", "elif", "else", "esac", "fi", "then", "\x7d"]

/-- The commands whose assignments stay and whose failures end the script. -/
def specialCommands : List String :=
  [".", ":", "break", "continue", "eval", "exec", "exit", "export", "readonly", "return", "set", "shift",
    "times", "trap", "unset"]

namespace Token

def keyword? : Token → Option String
  | .word [.text s false] => keywords.find? fun k => bytes k == s
  | _ => none

def shown (t : Token) : Bytes :=
  match t.keyword? with
  | some k => bytes ("\"" ++ k ++ "\"")
  | none => match t with
    | .word _ => bytes "word"
    | .newline => bytes "newline"
    | .semicolon => bytes "\";\""
    | .ampersand => bytes "\"&\""
    | .both => bytes "\"&&\""
    | .either => bytes "\"||\""
    | .bar => bytes "\"|\""
    | .left => bytes "\"(\""
    | .right => bytes "\")\""
    | .endArm => bytes "\";;\""
    | .redirect _ _ | .here _ _ => bytes "redirection"
    | .fault _ | .finish => bytes "end of file"

def closes (t : Token) : Bool :=
  match t with
  | .right | .endArm | .finish => true
  | _ => (t.keyword?.map closingKeywords.contains).getD false

end Token

namespace Reading

def peek : Reading Token := do
  match ← get with
  | [] => return .finish
  | (.fault m, line) :: _ => throw ⟨line, m⟩
  | (t, _) :: _ => return t

def line : Reading Nat := do
  match ← get with
  | [] => return 0
  | (_, line) :: _ => return line

def advance : Reading PUnit := modify List.tail

def fail {α : Type} (message : Bytes) : Reading α := do
  throw ⟨← line, message⟩

def unexpected {α : Type} : Reading α := do
  fail ((← peek).shown ++ bytes " unexpected")

def demand (k : String) : Reading PUnit := do
  let t ← peek
  if t.keyword? = some k then advance
  else fail (t.shown ++ bytes " unexpected (expecting \"" ++ bytes k ++ bytes "\")")

def demandRight : Reading PUnit := do
  match ← peek with
  | .right => advance
  | t => fail (t.shown ++ bytes " unexpected (expecting \")\")")

def skipNewlines : Reading PUnit :=
  modify fun ts => ts.dropWhile fun
    | (.newline, _) => true
    | _ => false

def assignment? : Word → Option (Bytes × Word)
  | .text s false :: rest =>
    let name := s.takeWhile (· != 61)
    match s.dropWhile (· != 61) with
    | 61 :: value =>
      if isName name then some (name, if value = [] then rest else .text value false :: rest) else none
    | _ => none
  | _ => none

def redirect? : Reading (Option Redirect) := do
  match ← peek with
  | .here n body =>
    advance
    return some (.here n body)
  | .redirect n mode =>
    advance
    match ← peek with
    | .word w =>
      advance
      return some (.file n mode w)
    | _ => unexpected
  | _ => return none

def redirects : (fuel : Nat) → List Redirect → Reading (List Redirect)
  | 0, done => return done.reverse
  | fuel + 1, done => do
    match ← redirect? with
    | some r => redirects fuel (r :: done)
    | none => return done.reverse

def words : (fuel : Nat) → List Word → Reading (List Word)
  | 0, done => return done.reverse
  | fuel + 1, done => do
    match ← peek with
    | .word w =>
      advance
      words fuel (w :: done)
    | _ => return done.reverse

def patterns : (fuel : Nat) → List Word → Reading (List Word)
  | 0, done => return done.reverse
  | fuel + 1, done => do
    let t ← peek
    let w : Word := match t with
      | .word w => w
      | _ => []
    advance
    match ← peek with
    | .bar =>
      advance
      patterns fuel (w :: done)
    | _ =>
      demandRight
      return (w :: done).reverse

/-- The rest of a simple command, or the definition of a function whose body `command` reads. -/
def simple (command : Reading Command) : (fuel : Nat) → Simple → Reading Command
  | 0, c => return .simple c
  | fuel + 1, c => do
    match ← redirect? with
    | some r => simple command fuel { c with redirects := c.redirects ++ [r] }
    | none =>
    match ← peek with
    | .word w =>
      advance
      match if c.words.isEmpty then assignment? w else none with
      | some a => simple command fuel { c with assignments := c.assignments ++ [a] }
      | none => simple command fuel { c with words := c.words ++ [w] }
    | .left =>
      match c.words, c.assignments, c.redirects with
      | [w], [], [] =>
        advance
        demandRight
        let (name, _) := literal w
        if !isName name || (specialCommands.map bytes).contains name then
          fail (bytes "Bad function name")
        skipNewlines
        return .define name (← command)
      | _, _, _ => return .simple c
    | _ => return .simple c

/-- A command that does nothing is dropped from a sequence. -/
def Command.andThen : Command → Command → Command
  | .skip, c => c
  | a, b => .next a b

inductive Join where
  | both
  | either

mutual

/-- A list of commands, over as many lines as it takes. It ends before a token that closes it, which
must not come first if `required`. -/
def list : (fuel : Nat) → (required : Bool) → (done : Command) → Reading Command
  | 0, _, _ => unexpected
  | fuel + 1, required, done => do
    skipNewlines
    let t ← peek
    if t matches .finish then return done
    if !required && t.closes then return done
    let c ← joined fuel none
    match ← peek with
    | .newline | .finish => list fuel false (Command.andThen done c)
    | .semicolon =>
      advance
      list fuel false (Command.andThen done c)
    | .ampersand =>
      advance
      list fuel false (Command.andThen done (.background c))
    | _ => return Command.andThen done c

def joined : (fuel : Nat) → Option (Join × Command) → Reading Command
  | 0, _ => unexpected
  | fuel + 1, before => do
    let c ← pipeline fuel
    let c : Command := match before with
      | none => c
      | some (.both, a) => .both a c
      | some (.either, a) => .either a c
    match ← peek with
    | .both =>
      advance
      skipNewlines
      joined fuel (some (.both, c))
    | .either =>
      advance
      skipNewlines
      joined fuel (some (.either, c))
    | _ => return c

def pipeline : (fuel : Nat) → Reading Command
  | 0 => unexpected
  | fuel + 1 => do
    let t ← peek
    if t.keyword? = some "!" then
      advance
      return .negated (← piped fuel none)
    else piped fuel none

def piped : (fuel : Nat) → Option Command → Reading Command
  | 0, _ => unexpected
  | fuel + 1, before => do
    let c ← command fuel
    let c : Command := match before with
      | none => c
      | some a => .pipe a c
    match ← peek with
    | .bar =>
      advance
      skipNewlines
      piped fuel (some c)
    | _ => return c

def command : (fuel : Nat) → Reading Command
  | 0 => unexpected
  | fuel + 1 => do
    let t ← peek
    let start ← line
    match t.keyword? with
    | some "if" =>
      advance
      let c ← branches fuel
      closed fuel start "fi" c
    | some "while" =>
      advance
      let c ← loop fuel false
      closed fuel start "done" c
    | some "until" =>
      advance
      let c ← loop fuel true
      closed fuel start "done" c
    | some "for" =>
      advance
      let c ← each fuel start
      closed fuel start "done" c
    | some "case" =>
      advance
      match ← peek with
      | .word w =>
        advance
        skipNewlines
        demand "in"
        let found ← arms fuel []
        closed fuel start "esac" (.select start w found)
      | t => fail (t.shown ++ bytes " unexpected (expecting word)")
    | some "\x7b" =>
      advance
      let c ← list fuel true .skip
      closed fuel start "\x7d" c
    | some _ => unexpected
    | none =>
      match t with
      | .left =>
        advance
        let c ← list fuel true .skip
        demandRight
        return .inside c start (← redirects fuel [])
      | .word _ | .redirect _ _ | .here _ _ => simple (command fuel) fuel ⟨start, [], [], []⟩
      | _ => unexpected

def closed : (fuel : Nat) → (line : Nat) → String → Command → Reading Command
  | 0, _, _, _ => unexpected
  | fuel + 1, line, k, c => do
    demand k
    match ← redirects fuel [] with
    | [] => return c
    | rs => return .group c line rs

def branches : (fuel : Nat) → Reading Command
  | 0 => unexpected
  | fuel + 1 => do
    let test ← list fuel true .skip
    demand "then"
    let yes ← list fuel true .skip
    let t ← peek
    if t.keyword? = some "elif" then
      advance
      return .choose test yes (← branches fuel)
    else if t.keyword? = some "else" then
      advance
      return .choose test yes (← list fuel true .skip)
    else return .choose test yes .skip

def loop : (fuel : Nat) → (whileFails : Bool) → Reading Command
  | 0, _ => unexpected
  | fuel + 1, whileFails => do
    let test ← list fuel true .skip
    demand "do"
    return .repeated whileFails test (← list fuel true .skip)

def each : (fuel : Nat) → (start : Nat) → Reading Command
  | 0, _ => unexpected
  | fuel + 1, start => do
    match ← peek with
    | .word [.text name false] =>
      if !isName name then fail (bytes "Bad for loop variable")
      advance
      skipNewlines
      let t ← peek
      let values ←
        if t.keyword? = some "in" then do
          advance
          let values ← words fuel []
          match ← peek with
          | .newline | .semicolon => advance
          | _ => unexpected
          pure values
        else do
          if t matches .semicolon then advance
          pure [[.param (bytes "@") .value [] true]]
      skipNewlines
      demand "do"
      return .each start name values (← list fuel true .skip)
    | _ => fail (bytes "Bad for loop variable")

def arms : (fuel : Nat) → List (List Word × Command) → Reading (List (List Word × Command))
  | 0, _ => unexpected
  | fuel + 1, done => do
    skipNewlines
    let t ← peek
    if t.keyword? = some "esac" then return done.reverse
    if t matches .finish then fail (bytes "end of file unexpected (expecting \")\")")
    if t matches .left then advance
    let ps ← patterns fuel []
    let body ← list fuel false .skip
    skipNewlines
    let t ← peek
    match t with
    | .endArm =>
      advance
      arms fuel ((ps, body) :: done)
    | _ =>
      if t.keyword? = some "esac" then return ((ps, body) :: done).reverse
      else fail (t.shown ++ bytes " unexpected (expecting \";;\")")

end

/-- The commands up to the end of the line on which the last of them ends; nothing at the end of the
script. -/
def complete (bound : Nat) : (fuel : Nat) → Option Command → Reading (Option Command)
  | 0, _ => unexpected
  | fuel + 1, done => do
    match ← peek with
    | .newline =>
      advance
      return some (done.getD .skip)
    | .finish => return done
    | _ =>
      let c ← joined bound none
      match ← peek with
      | .newline | .finish => complete bound fuel (some (Command.andThen (done.getD .skip) c))
      | .semicolon =>
        advance
        complete bound fuel (some (Command.andThen (done.getD .skip) c))
      | .ampersand =>
        advance
        complete bound fuel (some (Command.andThen (done.getD .skip) (.background c)))
      | _ => unexpected

end Reading

def readCommand (ts : List (Token × Nat)) : Except Fault (Option Command × List (Token × Nat)) :=
  let bound := 8 * (ts.length + 1)
  (Reading.complete bound bound none).run ts

end Shell

end PrintLang
