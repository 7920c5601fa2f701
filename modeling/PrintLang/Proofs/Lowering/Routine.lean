import PrintLang.Proofs.Listing.Excerpt
import PrintLang.Proofs.Lowering.Listing
import PrintLang.Proofs.Machine.Invariant

set_option autoImplicit false

namespace PrintLang
open Lowering

theorem printIntLines_regular (t : Target) : ∀ l ∈ printIntLines t, l.Regular := by
  have all := printInt_generated t
  rw [List.all_append, List.all_append, Bool.and_eq_true, Bool.and_eq_true] at all
  obtain ⟨head, loop, tail⟩ := all
  have symbols : Reader.isSymbol printInt = true ∧ Reader.isSymbol printIntDigits = true ∧
      Reader.isSymbol printIntWrite = true := by decide
  intro l hl
  rw [printIntLines_eq] at hl
  simp only [List.mem_cons, List.mem_append] at hl
  rcases hl with rfl | hl | rfl | hl | rfl | hl
  · exact symbols.1
  · exact codes_regular head l hl
  · exact symbols.2.1
  · exact codes_regular loop l hl
  · exact symbols.2.2
  · exact codes_regular tail l hl

theorem printIntLines_isText (t : Target) : ∀ l ∈ printIntLines t, l.isText = true := by
  have codes (is : List Instr) : ∀ l ∈ is.map Line.code, l.isText = true := by
    intro l hl
    obtain ⟨i, -, rfl⟩ := List.mem_map.mp hl
    rfl
  intro l hl
  rw [printIntLines_eq] at hl
  simp only [List.mem_cons, List.mem_append] at hl
  rcases hl with rfl | hl | rfl | hl | rfl | hl
  · rfl
  · exact codes _ l hl
  · rfl
  · exact codes _ l hl
  · rfl
  · exact codes _ l hl

theorem printIntLines_instrs (t : Target) : (printIntLines t).filterMap Line.instr? =
    printIntHead ++ (printIntLoop ++ printIntTail t) := by
  rw [printIntLines_eq]
  simp only [List.filterMap_cons, List.filterMap_append, Line.instr?, filterMap_codes]

/-- Wherever the lines of the routine stand in an accepted listing, the image has the routine. -/
theorem Image.printsAt_of_assemble {known : Labels} {text : Bytes} {p : Image} {t : Target}
    (distinct : (known.map Prod.fst).Nodup) (assembled : (Assembler.assemble known text).2 = .ok p)
    (emitted : (printIntLines t).map Line.render <:+: Bytes.splitOn 10 text) :
    ∃ b, p.PrintsAt t b := by
  have first : Line.code ⟨.push, [.reg .rbp]⟩ ∈ printIntLines t :=
    List.mem_cons_of_mem _ List.mem_cons_self
  obtain ⟨b, code, labels⟩ := holds_excerpt distinct assembled emitted (printIntLines_regular t)
    (printIntLines_isText t) first
  rw [printIntLines_instrs] at code
  refine ⟨b, code, labels [] printInt _ rfl, ?_, ?_⟩
  · have found := labels (.label printInt :: printIntHead.map .code) printIntDigits
      (printIntLoop.map .code ++ .label printIntWrite :: (printIntTail t).map .code) rfl
    simp only [List.filterMap_cons, Line.instr?, filterMap_codes] at found
    exact found
  · have found := labels (.label printInt :: printIntHead.map .code ++
        .label printIntDigits :: printIntLoop.map .code) printIntWrite
      ((printIntTail t).map .code) rfl
    simp only [List.filterMap_cons, List.filterMap_append, List.cons_append, Line.instr?,
      filterMap_codes] at found
    exact found

namespace Machine

def preserved : List Reg := [.rsp, .rbp, .rbx, .r9, .r10, .r11, .r12, .r13, .r14, .r15]

/-- The instructions of a call that prints a value, for `d` digits: the call, and those of the routine. -/
def printCost (v : Int64) : Nat :=
  1 + (if 0 ≤ v then 20 else 24) + 7 * (Nat.toDigits 10 v.toInt.natAbs).length

theorem printCost_eq (v : Int64) : printCost v = printIntSteps v.toInt := by
  unfold printCost printIntSteps
  rw [length_toDigits]
  by_cases neg : v.toInt < 0
  · rw [minus_of_neg neg, if_neg (by rw [Int64.le_iff_toInt_le]; simpa using neg)]
    simp
    omega
  · rw [minus_of_nonneg neg, if_pos (by rw [Int64.le_iff_toInt_le]; simpa using neg)]
    simp

/-- Every call of the routine prints the value in `%rdi`: in a listing with the lines of the routine,
read by an assembler that may know other labels, from any state in which such a call is next. No text
is longer than `short` allows, and so every return address is a 64-bit number. -/
theorem printInt_returns {known : Labels} {text : Bytes} {p : Image} {t : Target}
    (distinct : (known.map Prod.fst).Nodup) (short : text.length < 2 ^ 63)
    (assembled : (Assembler.assemble known text).2 = .ok p)
    (emitted : (printIntLines t).map Line.render <:+: Bytes.splitOn 10 text)
    {m : Machine} {c : CodeLine} (next : fetch? p m = some c)
    (call : c.instr = ⟨.call, [.target printInt]⟩)
    {v : Int64} (value : m.reg .rdi = v.toUInt64)
    (answered : m.syscalls.write = UInt64.ofInt t.writeNumber)
    (high : (m.reg .rsp).toNat ≤ memSize) (low : dataBase + 37 ≤ (m.reg .rsp).toNat)
    (room : m.Room (printCost v)) :
    ∃ u, WritesOnce p (bytes (toString v.toInt) ++ [10]) m (printCost v) u ∧
      u.rip = m.rip + 1 ∧ (∀ r ∈ preserved, u.reg r = m.reg r) ∧
      ∀ a, u.memory.get a ≠ m.memory.get a →
        (m.reg .rsp).toNat - 37 ≤ a ∧ a < (m.reg .rsp).toNat := by
  obtain ⟨b, lib⟩ := Image.printsAt_of_assemble distinct assembled emitted
  have size := Image.size_le_of_assemble distinct assembled
  obtain ⟨live, -, start, inside⟩ := fetch?_eq_some next
  obtain ⟨a, ha⟩ := Int.eq_ofNat_of_zero_le start
  have code : p.Holds a [⟨.call, [.target printInt]⟩] := by
    unfold fetch? at next
    split at next
    · cases next
    · rw [ha, atIndex?_natCast] at next
      exact .single next call
  have base : textBase < 2 ^ 62 := by decide
  rw [printCost_eq] at room ⊢
  obtain ⟨u, printed, rip, keeps, memory⟩ := printInt_call lib code ha live v room value answered rfl
    (by omega) high (by omega)
  rw [bytes_toString]
  refine ⟨u, printed, ?_, fun r hr => keeps r ?_, fun x changed => ?_⟩
  · rw [rip, ha]
    rfl
  · revert hr
    cases r <;> decide
  · by_contra outside
    exact changed (memory x (by omega))

/-- Code in front of the routine and behind it, and a section in between. -/
def callingListing : Bytes :=
  bytes "start: nop\n.data\nx: .byte 7\n.text\n" ++ Listing.render (printIntLines .darwin) ++
    bytes "main: call print_int # the least integer"

def callingImage : Image :=
  match (Assembler.assemble [(bytes "other", ⟨.text, 5⟩)] callingListing).2 with
  | .ok p => p
  | .error _ => ⟨#[], [], [], []⟩

def callingMachine : Machine :=
  setReg (setReg
    { regs := Vector.replicate 16 7
      rip := 32
      flags := ⟨true, false, true, false⟩
      memory := Memory.zero
      halted := false
      exitCode := 0
      steps := 3
      maxSteps := 161
      syscalls := .darwin
      out := #[33]
      errout := #[] }
    .rdi 0x8000000000000000) .rsp (dataBase + 37).toUInt64

theorem callingMachine_prints :
    ∃ u, WritesOnce callingImage (bytes "-9223372036854775808\n") callingMachine 158 u ∧
      u.rip = 33 ∧ (∀ r ∈ preserved, u.reg r = callingMachine.reg r) ∧
      ∀ a, u.memory.get a ≠ callingMachine.memory.get a → dataBase ≤ a ∧ a < dataBase + 37 := by
  have emitted : (printIntLines .darwin).map Line.render <:+: Bytes.splitOn 10 callingListing :=
    ⟨[bytes "start: nop", bytes ".data", bytes "x: .byte 7", bytes ".text"],
      [bytes "main: call print_int # the least integer"], by decide +kernel⟩
  have distinct : (([(bytes "other", ⟨.text, 5⟩)] : Labels).map Prod.fst).Nodup := by decide
  exact printInt_returns distinct (by decide +kernel) (by decide +kernel) emitted
    (c := ⟨39, .call, [.target printInt]⟩) (v := Int64.minValue) (by decide +kernel) rfl
    (by decide +kernel) (by decide +kernel) (by decide +kernel) (by decide +kernel)
    (by intro _; decide +kernel)

end Machine

end PrintLang
