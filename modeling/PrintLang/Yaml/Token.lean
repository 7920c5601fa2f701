import PrintLang.Yaml.Cursor

set_option autoImplicit false

namespace PrintLang

namespace Yaml

inductive Token where
  | streamStart
  | streamEnd
  | version (major minor : Nat)
  | handle (name expansion : Bytes)
  | documentStart
  | documentEnd
  | blockSeqStart
  | blockMapStart
  | blockEnd
  | flowSeqStart
  | flowSeqEnd
  | flowMapStart
  | flowMapEnd
  | blockEntry
  | flowEntry
  | key
  | value
  | alias (name : Bytes)
  | anchor (name : Bytes)
  | tag (handle suffix : Bytes)
  | scalar (plain : Bool) (text : Bytes)
deriving DecidableEq, Repr

structure Located where
  token : Token
  mark : Mark
deriving DecidableEq, Repr

end Yaml

end PrintLang
