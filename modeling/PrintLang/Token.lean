import PrintLang.Bytes.Utf8

set_option autoImplicit false

namespace PrintLang

/-- The category of a token. `other` stands for a code outside the table. -/
inductive TokenKind where
  | eof
  | invalid
  | comment
  | identifier
  | integer
  | string
  | char
  | kwTrue
  | kwFalse
  | kwPrintln
  | kwIf
  | kwElse
  | kwWhile
  | kwFun
  | kwClass
  | kwReturn
  | kwVar
  | kwVal
  | kwSyscall
  | lbrace
  | rbrace
  | lparen
  | rparen
  | comma
  | colon
  | plus
  | minus
  | star
  | slash
  | percent
  | assign
  | equals
  | bang
  | bangEq
  | less
  | lessEq
  | greater
  | greaterEq
  | other (code : Int)
deriving DecidableEq, Repr

namespace TokenKind

def all : List TokenKind :=
  [.eof, .invalid, .comment, .identifier, .integer, .string, .char, .kwTrue, .kwFalse,
   .kwPrintln, .kwIf, .kwElse, .kwWhile, .kwFun, .kwClass, .kwReturn, .kwVar, .kwVal, .kwSyscall,
   .lbrace, .rbrace, .lparen, .rparen, .comma, .colon, .plus, .minus, .star, .slash, .percent,
   .assign, .equals, .bang, .bangEq, .less, .lessEq, .greater, .greaterEq]

def ofCode (code : Int) : TokenKind :=
  match code with
  | .ofNat n => all.getD n (.other code)
  | .negSucc _ => .other code

def code : TokenKind → Int
  | .other c => c
  | k => all.idxOf k

def name : TokenKind → Bytes
  | .eof => bytes "EOF"
  | .invalid => bytes "INVALID"
  | .comment => bytes "COMMENT"
  | .identifier => bytes "IDENTIFIER"
  | .integer => bytes "INTEGER"
  | .string => bytes "STRING"
  | .char => bytes "CHAR"
  | .kwTrue => bytes "TRUE"
  | .kwFalse => bytes "FALSE"
  | .kwPrintln => bytes "PRINTLN"
  | .kwIf => bytes "IF"
  | .kwElse => bytes "ELSE"
  | .kwWhile => bytes "WHILE"
  | .kwFun => bytes "FUN"
  | .kwClass => bytes "CLASS"
  | .kwReturn => bytes "RETURN"
  | .kwVar => bytes "VAR"
  | .kwVal => bytes "VAL"
  | .kwSyscall => bytes "SYSCALL"
  | .lbrace => bytes "LBRACE"
  | .rbrace => bytes "RBRACE"
  | .lparen => bytes "LPAREN"
  | .rparen => bytes "RPAREN"
  | .comma => bytes "COMMA"
  | .colon => bytes "COLON"
  | .plus => bytes "PLUS"
  | .minus => bytes "MINUS"
  | .star => bytes "STAR"
  | .slash => bytes "SLASH"
  | .percent => bytes "PERCENT"
  | .assign => bytes "ASSIGN"
  | .equals => bytes "EQUALS"
  | .bang => bytes "NOT"
  | .bangEq => bytes "NOT_EQ"
  | .less => bytes "LESS"
  | .lessEq => bytes "LESS_EQ"
  | .greater => bytes "GREATER"
  | .greaterEq => bytes "GREATER_EQ"
  | .other c => bytes "TokenType(" ++ decimal c ++ bytes ")"

def keywords : List (Bytes × TokenKind) :=
  [(bytes "true", .kwTrue), (bytes "false", .kwFalse), (bytes "println", .kwPrintln),
   (bytes "if", .kwIf), (bytes "else", .kwElse), (bytes "while", .kwWhile),
   (bytes "fun", .kwFun), (bytes "class", .kwClass), (bytes "return", .kwReturn),
   (bytes "var", .kwVar), (bytes "val", .kwVal), (bytes "syscall", .kwSyscall)]

def ofWord (word : Bytes) : TokenKind := (keywords.lookup word).getD .identifier

end TokenKind

structure Location where
  line : Int
  column : Int
deriving DecidableEq, Repr

def Location.render (l : Location) : Bytes := decimal l.line ++ bytes ":" ++ decimal l.column

structure Token where
  kind : TokenKind
  start : Nat
  stop : Nat
  loc : Location
deriving DecidableEq, Repr

def Token.text (t : Token) (source : Bytes) : Bytes := Bytes.slice source t.start t.stop

structure Mark where
  kind : TokenKind
  start : Int
  stop : Int
deriving DecidableEq, Repr

def Token.mark (t : Token) : Mark := ⟨t.kind, t.start, t.stop⟩

namespace Mark

/-- The number of bytes between the two ends, a machine number that wraps around. -/
def length (m : Mark) : Int := Int.bmod (m.stop - m.start) (Nat.pow 2 64)

def render (m : Mark) : Bytes :=
  Bytes.padRight 10 m.kind.name ++ bytes " [" ++ decimal m.start ++ bytes "," ++
    decimal m.stop ++ bytes ")"

end Mark

/-- A source with its tokens in order; the last one is the end of input. -/
structure TokenStream where
  source : Bytes
  tokens : Array Token
deriving DecidableEq, Repr

/-- The source text of token `i`, empty when there is none. -/
def TokenStream.text (ts : TokenStream) (i : Nat) : Bytes :=
  match ts.tokens[i]? with
  | some t => t.text ts.source
  | none => []

end PrintLang
