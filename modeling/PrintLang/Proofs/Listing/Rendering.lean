import PrintLang.Proofs.Listing.Passes

set_option autoImplicit false

namespace PrintLang

/-- A line without labels that has the word of the instruction and decodes to its operands, in whatever
place of a listing it stands. -/
structure Instr.SpeltBy (i : Instr) (l : SourceLine) : Prop where
  labels : l.labels = []
  word : l.word = i.mnemonic.name
  mnemonic : Mnemonic.ofName l.word = i.mnemonic
  operands : ∀ line, l.operands.mapM (fun text => Reader.readOperand text line) = .ok i.operands

theorem Instr.Readable.exists_speltBy {i : Instr} (h : i.Readable) (line : Nat) :
    ∃ l, Reader.readLine i.render line = .ok l ∧ i.SpeltBy l := by
  have read := Instr.readLine_render h 0 line
  rw [List.replicate_zero, List.nil_append] at read
  refine ⟨_, read, rfl, rfl, Mnemonic.ofName_name (Mnemonic.mem_all h.arity), ?_⟩
  intro k
  apply mapM_map_eq_ok
  intro op hop
  exact Reader.readOperand_render (h.readable op hop) k

/-- Rendering undoes reading and reading undoes rendering, for the operands that any text decodes to and
for the instructions of every image, also when the assembler has read other listings before. -/
theorem rendering_reads_back :
    (∀ s line op, Reader.readOperand s line = .ok op →
      ∀ k, Reader.readOperand op.render k = .ok op) ∧
    ∀ known text p, (Assembler.assemble known text).2 = .ok p → ∀ c ∈ p.text, ∀ line,
      ∃ l, Reader.readLine c.instr.render line = .ok l ∧ c.instr.SpeltBy l := by
  constructor
  · intro s line op read k
    exact Reader.readOperand_render (Reader.isReadable_of_readOperand read) k
  · intro known text p accepted c hc line
    exact (Assembler.readable_of_assemble accepted c hc).exists_speltBy line

/-- Capitals, tabs, signs, marked bases, underscores, a displacement that is zero, and names like
numbers. -/
def oddListing : Bytes := bytes
  "f: X:\tMOV\t-0x0(%rax) ,%cl # f\n Lea x0(%rip),\t%rdx\n.data\nx0: .byte 0\n.text\n PUSH $-0b1_0\nCqo\nmovabs $X , %r9d"

def oddImage : Image where
  text := #[⟨1, .move .mov, [.based .rax 0, .register (.general .rcx .byte)]⟩,
    ⟨2, .lea, [.memory .rip 0 (bytes "x0"), .reg .rdx]⟩, ⟨6, .push, [.immediate (-2)]⟩, ⟨7, .cqo, []⟩,
    ⟨8, .move .movabs, [.address (bytes "X"), .register (.general .r9 .dword)]⟩]
  runs := [.bytes [0]]
  labels := [(bytes "x0", ⟨.data, 0⟩), (bytes "X", ⟨.text, 0⟩), (bytes "f", ⟨.text, 0⟩)]
  globals := []

theorem oddListing_reads_back :
    Reader.readOperand (bytes "+0x_1F(%spl)") 3 = .ok (.memory (.general .rsp .byte) 31 []) ∧
      Reader.readOperand (bytes "31(%spl)") 4 = .ok (.memory (.general .rsp .byte) 31 []) ∧
      (Assembler.assemble [] oddListing).2 = .ok oddImage ∧ ∀ c ∈ oddImage.text, ∀ line,
        ∃ l, Reader.readLine c.instr.render line = .ok l ∧ c.instr.SpeltBy l := by
  have read : Reader.readOperand (bytes "+0x_1F(%spl)") 3 =
      .ok (.memory (.general .rsp .byte) 31 []) := by
    decide +kernel
  have back := rendering_reads_back.1 _ 3 _ read 4
  have text : Operand.render (.memory (.general .rsp .byte) 31 []) = bytes "31(%spl)" := by
    decide +kernel
  rw [text] at back
  have accepted : (Assembler.assemble [] oddListing).2 = .ok oddImage := by decide +kernel
  exact ⟨read, back, accepted, rendering_reads_back.2 [] _ _ accepted⟩

end PrintLang
