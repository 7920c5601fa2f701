import PrintLang.Bytes

set_option autoImplicit false

namespace PrintLang

inductive Width where
  | byte
  | dword
  | qword
deriving DecidableEq, Repr

def Width.size : Width → Nat
  | .byte => 1
  | .dword => 4
  | .qword => 8

inductive Reg where
  | rax
  | rcx
  | rdx
  | rbx
  | rsp
  | rbp
  | rsi
  | rdi
  | r8
  | r9
  | r10
  | r11
  | r12
  | r13
  | r14
  | r15
deriving DecidableEq, Repr

namespace Reg

def all : List Reg :=
  [.rax, .rcx, .rdx, .rbx, .rsp, .rbp, .rsi, .rdi, .r8, .r9, .r10, .r11, .r12, .r13, .r14, .r15]

def index : Reg → Fin 16
  | .rax => 0
  | .rcx => 1
  | .rdx => 2
  | .rbx => 3
  | .rsp => 4
  | .rbp => 5
  | .rsi => 6
  | .rdi => 7
  | .r8 => 8
  | .r9 => 9
  | .r10 => 10
  | .r11 => 11
  | .r12 => 12
  | .r13 => 13
  | .r14 => 14
  | .r15 => 15

def name : Reg → Width → Bytes
  | .rax, .qword => bytes "rax"
  | .rax, .dword => bytes "eax"
  | .rax, .byte => bytes "al"
  | .rcx, .qword => bytes "rcx"
  | .rcx, .dword => bytes "ecx"
  | .rcx, .byte => bytes "cl"
  | .rdx, .qword => bytes "rdx"
  | .rdx, .dword => bytes "edx"
  | .rdx, .byte => bytes "dl"
  | .rbx, .qword => bytes "rbx"
  | .rbx, .dword => bytes "ebx"
  | .rbx, .byte => bytes "bl"
  | .rsp, .qword => bytes "rsp"
  | .rsp, .dword => bytes "esp"
  | .rsp, .byte => bytes "spl"
  | .rbp, .qword => bytes "rbp"
  | .rbp, .dword => bytes "ebp"
  | .rbp, .byte => bytes "bpl"
  | .rsi, .qword => bytes "rsi"
  | .rsi, .dword => bytes "esi"
  | .rsi, .byte => bytes "sil"
  | .rdi, .qword => bytes "rdi"
  | .rdi, .dword => bytes "edi"
  | .rdi, .byte => bytes "dil"
  | .r8, .qword => bytes "r8"
  | .r8, .dword => bytes "r8d"
  | .r8, .byte => bytes "r8b"
  | .r9, .qword => bytes "r9"
  | .r9, .dword => bytes "r9d"
  | .r9, .byte => bytes "r9b"
  | .r10, .qword => bytes "r10"
  | .r10, .dword => bytes "r10d"
  | .r10, .byte => bytes "r10b"
  | .r11, .qword => bytes "r11"
  | .r11, .dword => bytes "r11d"
  | .r11, .byte => bytes "r11b"
  | .r12, .qword => bytes "r12"
  | .r12, .dword => bytes "r12d"
  | .r12, .byte => bytes "r12b"
  | .r13, .qword => bytes "r13"
  | .r13, .dword => bytes "r13d"
  | .r13, .byte => bytes "r13b"
  | .r14, .qword => bytes "r14"
  | .r14, .dword => bytes "r14d"
  | .r14, .byte => bytes "r14b"
  | .r15, .qword => bytes "r15"
  | .r15, .dword => bytes "r15d"
  | .r15, .byte => bytes "r15b"

def table : List (Bytes × Reg × Width) :=
  all.flatMap fun r => [.qword, .dword, .byte].map fun w => (r.name w, r, w)

def lookup? (name : Bytes) : Option (Reg × Width) := table.lookup name

end Reg

/-- A name in a register's place: a general purpose register, the instruction pointer as the base of
an address, or a name that stands for no register. -/
inductive RegName where
  | general (reg : Reg) (width : Width)
  | rip
  | unknown (name : Bytes)
deriving DecidableEq, Repr

namespace RegName

def ofName (name : Bytes) : RegName :=
  if name = bytes "rip" then .rip
  else match Reg.lookup? name with
    | some (r, w) => .general r w
    | none => .unknown name

def name : RegName → Bytes
  | .general r w => r.name w
  | .rip => bytes "rip"
  | .unknown n => n

end RegName

end PrintLang
