import PrintLang.Proofs.Listing.Passes
import PrintLang.Proofs.Machine.Runs

set_option autoImplicit false

namespace PrintLang

def Memory.Stored (x y : Memory) : Prop :=
  ∃ a bs, bs.length ≤ 8 ∧ Memory.fits a bs.length = true ∧ y = x.write a bs

theorem Memory.Stored.refl (x : Memory) : Memory.Stored x x :=
  ⟨dataBase, [], by decide, by decide, rfl⟩

theorem Memory.Stored.changes {x y : Memory} (h : Memory.Stored x y) :
    ∃ a n, n ≤ 8 ∧ dataBase ≤ a ∧ a + n ≤ memSize ∧ ∀ b, b < a ∨ a + n ≤ b → y.get b = x.get b := by
  obtain ⟨a, bs, short, fits, rfl⟩ := h
  simp only [Memory.fits, Bool.and_eq_true, decide_eq_true_eq] at fits
  exact ⟨a, bs.length, short, fits.1, fits.2, fun b => Memory.get_write_outside x a bs⟩

namespace Machine

section Stores
variable (p : Image) (m : Machine)

theorem storeWord_stored (a v : UInt64) {w : Nat} (hw : w ≤ 8) :
    Memory.Stored m.memory (m.storeWord a w v).1.memory := by
  unfold storeWord
  split
  · next fits =>
    rw [← LittleEndian.length_encode w v.toNat] at hw fits
    exact ⟨_, _, hw, fits, rfl⟩
  · exact .refl _

theorem write_stored (op : Operand) (w : Width) (v : UInt64) :
    Memory.Stored m.memory (m.write p op w v).1.memory := by
  unfold write
  split
  · unfold setRegAt
    split <;> exact .refl _
  · exact .refl _
  · split
    · exact storeWord_stored m _ v (by cases w <;> decide)
    · exact .refl _
  · exact .refl _

theorem push_stored (v : UInt64) : Memory.Stored m.memory (m.push v).1.memory := by
  by_cases fits : Memory.fits (m.reg .rsp - 8).toNat 8 = true
  · rw [push_of_fits m v fits]
    have length := LittleEndian.length_encode 8 v.toNat
    rw [← length] at fits
    exact ⟨_, _, Nat.le_of_eq length, fits, by rw [memory_setReg, memory_withMemory]⟩
  · simp only [push, fits, Bool.false_eq_true, if_false]
    exact .refl _

theorem exec_stored (i : Instr) : Memory.Stored m.memory (exec p i m).1.memory := by
  obtain ⟨mnemonic, operands⟩ := i
  cases mnemonic with
  | nop | unknown _ | cqo => exact .refl _
  | move op =>
    simp only [exec]
    split
    · exact write_stored p m _ _ _
    · exact .refl _
  | lea =>
    simp only [exec]
    split
    · exact write_stored p m _ _ _
    · exact .refl _
  | alu op =>
    simp only [exec]
    split
    · split
      · exact write_stored p (m.withFlags _) _ _ _
      · exact .refl _
    · exact .refl _
  | unary op =>
    simp only [exec]
    split
    · exact write_stored p (m.withFlags _) _ _ _
    · exact .refl _
  | div =>
    simp only [exec]
    split
    · unfold div
      simp only
      split <;> exact .refl _
    · exact .refl _
  | idiv =>
    simp only [exec]
    split
    · unfold idiv
      simp only
      split
      · exact .refl _
      · split <;> exact .refl _
    · exact .refl _
  | push =>
    simp only [exec]
    split
    · exact push_stored m _
    · exact .refl _
  | pop =>
    simp only [exec]
    split
    · split
      · exact write_stored p m.drop _ _ _
      · exact .refl _
    · exact .refl _
  | call =>
    simp only [exec]
    split
    · have stored := push_stored m (UInt64.ofInt (textBase + m.rip))
      split
      all_goals
        next hx =>
        rw [hx] at stored
        exact stored
    · exact .refl _
  | ret =>
    simp only [exec]
    split
    · split <;> exact .refl _
    · exact .refl _
  | syscall =>
    simp only [exec, syscall]
    split
    · unfold writeCall emit
      simp only
      repeat' split
      all_goals exact .refl _
    · split <;> exact .refl _
  | jump c =>
    simp only [exec]
    split
    · split <;> exact .refl _
    · exact .refl _

end Stores

section Output
variable (p : Image) (m : Machine)

/-- What a system call can do: nothing, print what the registers ask for, or exit. -/
theorem syscall_cases :
    m.syscall.1 = m ∨
    (m.reg .rax = m.syscalls.write ∧ (m.reg .rdi = 1 ∨ m.reg .rdi = 2) ∧
      Memory.fits (m.reg .rsi).toNat (m.reg .rdx).toNat = true ∧
      ∃ v, m.syscall.1 = (m.emit (m.reg .rdi)
        (m.memory.read (m.reg .rsi).toNat (m.reg .rdx).toNat)).setReg .rax v) ∨
    m.syscall.1 =
      { m with halted := true, exitCode := (m.reg .rdi).toUInt32.toInt32.toInt } := by
  unfold syscall
  simp only
  split
  · next number =>
    unfold writeCall
    simp only
    split
    · next fd =>
      split
      · next text hx =>
        simp only [readBytes, UInt64.toUInt64_toInt64] at hx
        split at hx
        · next fits =>
          cases hx
          exact .inr (.inl ⟨number, fd, fits, _, rfl⟩)
        · cases hx
      · exact .inl rfl
    · exact .inl rfl
  · split
    · exact .inr (.inr rfl)
    · exact .inl rfl

theorem exec_sameOutput {i : Instr} (h : i.mnemonic ≠ .syscall) : SameOutput m (exec p i m).1 := by
  by_cases straight : i.straight = true
  · exact (exec_sameWorld p i m straight).toSameOutput
  · have same : SameOutput m m := ⟨rfl, rfl, rfl, rfl⟩
    obtain ⟨mnemonic, operands⟩ := i
    cases mnemonic with
    | call =>
      simp only [exec]
      split
      · have pushed := push_sameWorld (.refl m) (UInt64.ofInt (textBase + m.rip))
        split
        all_goals
          next hx =>
          rw [hx] at pushed
          exact ⟨pushed.halted, pushed.exitCode, pushed.out, pushed.errout⟩
      · exact same
    | ret =>
      simp only [exec]
      split
      · split <;> exact ⟨rfl, rfl, rfl, rfl⟩
      · exact same
    | syscall => exact absurd rfl h
    | jump c =>
      simp only [exec]
      split
      · split <;> exact ⟨rfl, rfl, rfl, rfl⟩
      · exact same
    | unknown _ => exact same
    | nop | move _ | lea | alu _ | unary _ | cqo | div | idiv | push | pop =>
      exact absurd rfl straight

/-- What is added to the outputs: nothing, or by a write call the `%rdx` bytes that stand at
`%rsi`. -/
inductive Prints (next : Option CodeLine) (m u : Machine) : Prop where
  | silent (out : u.out = m.out) (errout : u.errout = m.errout)
  | write {c : CodeLine} (fetched : next = some c) (call : c.instr.mnemonic = .syscall)
      (number : m.reg .rax = m.syscalls.write)
      (mapped : Memory.fits (m.reg .rsi).toNat (m.reg .rdx).toNat = true)
      (text : Bytes) (copied : text = m.memory.read (m.reg .rsi).toNat (m.reg .rdx).toNat)
      (length : text.length = (m.reg .rdx).toNat)
      (appended : (m.reg .rdi = 1 ∧ u.out = m.out ++ text ∧ u.errout = m.errout) ∨
        (m.reg .rdi = 2 ∧ u.out = m.out ∧ u.errout = m.errout ++ text))

theorem exec_prints (c : CodeLine) : Prints (some c) m (exec p c.instr m).1 := by
  by_cases call : c.instr.mnemonic = .syscall
  · have effect : (exec p c.instr m).1 = m.syscall.1 := by simp only [exec, call]
    rw [effect]
    rcases syscall_cases m with same | ⟨number, fd, fits, v, printed⟩ | exits
    · rw [same]
      exact .silent rfl rfl
    · rw [printed]
      refine .write rfl call number fits _ rfl (Memory.length_read _ _ _) ?_
      rcases fd with fd | fd
      · exact .inl ⟨fd, by simp only [emit, fd, if_true]; rfl, by simp only [emit, fd, if_true]; rfl⟩
      · exact .inr ⟨fd, by simp only [emit, fd]; rfl, by simp only [emit, fd]; rfl⟩
    · rw [exits]
      exact .silent rfl rfl
  · have same := exec_sameOutput p m call
    exact .silent same.out same.errout

def InInt32 (n : Int) : Prop := -2147483648 ≤ n ∧ n ≤ 2147483647

theorem exec_exitCode (i : Instr) (h : InInt32 m.exitCode) : InInt32 (exec p i m).1.exitCode := by
  by_cases call : i.mnemonic = .syscall
  · have effect : (exec p i m).1 = m.syscall.1 := by simp only [exec, call]
    rw [effect]
    rcases syscall_cases m with same | ⟨-, -, -, v, printed⟩ | exits
    · rwa [same]
    · rw [printed]
      unfold emit
      split <;> exact h
    · rw [exits]
      have low := Int32.le_toInt (m.reg .rdi).toUInt32.toInt32
      have high := Int32.toInt_lt (m.reg .rdi).toUInt32.toInt32
      exact ⟨low, Int.le_of_lt_add_one high⟩
  · rwa [(exec_sameOutput p m call).exitCode]

end Output

end Machine

/-- An index of an instruction, or of the end of the text. -/
def Image.InText (p : Image) (a : Int) : Prop := 0 ≤ a ∧ a ≤ p.text.size

def Image.LabelsInText (p : Image) : Prop :=
  ∀ name a, p.lookup? name = some ⟨.text, a⟩ → p.InText a

theorem Image.labelsInText_of_assemble {text : Bytes} {p : Image} (h : assemble text = .ok p) :
    p.LabelsInText := by
  obtain ⟨ls, -, agrees⟩ := Image.agreesWith_of_assemble h
  intro name a label
  exact agrees.bounded name _ label

namespace Machine
variable {p : Image} {m u v : Machine}

theorem jumpTarget_inText (labels : p.LabelsInText) {op : Operand} {a : Int}
    (h : jumpTarget p op = .ok a) : p.InText a := by
  unfold jumpTarget at h
  split at h
  · split at h
    · next label =>
      cases h
      exact labels _ _ label
    · cases h
  · cases h

theorem exec_rip (labels : p.LabelsInText) (i : Instr) (m : Machine) (h : p.InText m.rip) :
    p.InText (exec p i m).1.rip := by
  by_cases straight : i.straight = true
  · rwa [(exec_sameWorld p i m straight).rip]
  · obtain ⟨mnemonic, operands⟩ := i
    cases mnemonic with
    | call =>
      simp only [exec]
      split
      · next target =>
        obtain ⟨op, -, target⟩ := bind_eq_ok.mp target
        have pushed := push_sameWorld (.refl m) (UInt64.ofInt (textBase + m.rip))
        split
        · exact jumpTarget_inText labels target
        · next hx =>
          rw [hx] at pushed
          rwa [pushed.rip]
      · exact h
    | ret =>
      simp only [exec]
      split
      · split
        · exact h
        · constructor
          · exact Int.natCast_nonneg _
          · simp only [Int.ofNat_le]
            omega
      · exact h
    | syscall =>
      rcases syscall_cases m with same | ⟨-, -, -, v, printed⟩ | exits
      · rwa [exec, same]
      · rw [exec, printed]
        unfold emit
        split <;> exact h
      · rwa [exec, exits]
    | jump c =>
      simp only [exec]
      split
      · split
        · next target =>
          obtain ⟨op, -, target⟩ := bind_eq_ok.mp target
          exact jumpTarget_inText labels target
        · exact h
      · exact h
    | unknown _ => exact h
    | nop | move _ | lea | alu _ | unary _ | cqo | div | idiv | push | pop =>
      exact absurd rfl straight

/-- The instruction that the next step executes, if it executes one. -/
def fetch? (p : Image) (m : Machine) : Option CodeLine :=
  if m.halted || m.atLimit then none else atIndex? p.text m.rip

theorem step_of_fetch_none (h : fetch? p m = none) : (step p m).1 = m := by
  unfold fetch? at h
  unfold step
  cases halted : m.halted with
  | true => rfl
  | false =>
    cases limit : m.atLimit with
    | true => rfl
    | false =>
      simp only [halted, limit, Bool.or_self, Bool.false_eq_true, if_false] at h ⊢
      rw [h]

theorem step_of_fetch_some {c : CodeLine} (h : fetch? p m = some c) :
    (step p m).1 = (exec p c.instr m.fetched).1 := by
  unfold fetch? at h
  split at h
  · cases h
  · next going =>
    simp only [Bool.or_eq_true, not_or, Bool.not_eq_true] at going
    simp only [step, going, h, Bool.false_eq_true, if_false]
    rcases exec p c.instr m.fetched with ⟨u, _ | f⟩ <;> rfl

theorem fetch?_eq_some {c : CodeLine} (h : fetch? p m = some c) :
    m.halted = false ∧ m.atLimit = false ∧ 0 ≤ m.rip ∧ m.rip < p.text.size := by
  unfold fetch? at h
  split at h
  · cases h
  · next going =>
    simp only [Bool.or_eq_true, not_or, Bool.not_eq_true] at going
    refine ⟨going.1, going.2, ?_⟩
    unfold atIndex? at h
    split at h
    · next n hn =>
      obtain ⟨inside, -⟩ := Array.getElem?_eq_some_iff.mp h
      rw [hn]
      simp only [Int.ofNat_eq_natCast]
      omega
    · cases h

structure Sound (p : Image) (m : Machine) : Prop where
  rip : p.InText m.rip
  size : m.memory.cells.toArray.size = memSize
  low : ∀ a, a < dataBase → m.memory.get a = 0
  limit : 0 < m.maxSteps → m.steps ≤ m.maxSteps
  exitCode : InInt32 m.exitCode

/-- What a single step can do. -/
structure Stepped (p : Image) (m u : Machine) : Prop where
  counts : u.steps = m.steps + if (fetch? p m).isSome then 1 else 0
  /-- At most eight bytes of memory change, all of them mapped. -/
  memory : ∃ a n, n ≤ 8 ∧ dataBase ≤ a ∧ a + n ≤ memSize ∧
    ∀ b, b < a ∨ a + n ≤ b → u.memory.get b = m.memory.get b
  prints : Prints (fetch? p m) m u
  halted : m.halted = true → u = m

theorem step_stepped (p : Image) (m : Machine) : Stepped p m (step p m).1 := by
  cases fetched : fetch? p m with
  | none =>
    rw [step_of_fetch_none fetched]
    exact ⟨by simp [fetched], (Memory.Stored.refl _).changes, .silent rfl rfl, fun _ => rfl⟩
  | some c =>
    rw [step_of_fetch_some fetched]
    have setup := exec_sameSetup p c.instr m.fetched
    refine ⟨?_, ?_, ?_, ?_⟩
    · rw [setup.steps, fetched]
      rfl
    · have stored := exec_stored p m.fetched c.instr
      rw [memory_fetched] at stored
      exact stored.changes
    · rw [fetched]
      cases exec_prints p m.fetched c with
      | silent out errout => exact .silent out errout
      | write h call number mapped text copied length appended =>
        simp only [reg_fetched, memory_fetched] at number mapped copied length appended
        exact .write h call number mapped text copied length appended
    · intro halted
      simp [(fetch?_eq_some fetched).1] at halted

theorem step_sound (labels : p.LabelsInText) (h : Sound p m) : Sound p (step p m).1 := by
  cases fetched : fetch? p m with
  | none => rwa [step_of_fetch_none fetched]
  | some c =>
    obtain ⟨-, limit, start, inside⟩ := fetch?_eq_some fetched
    rw [step_of_fetch_some fetched]
    have setup := exec_sameSetup p c.instr m.fetched
    refine ⟨?_, Vector.size_toArray _, fun a low => ?_, fun positive => ?_, ?_⟩
    · refine exec_rip labels c.instr m.fetched ?_
      change 0 ≤ m.rip + 1 ∧ m.rip + 1 ≤ p.text.size
      omega
    · obtain ⟨b, n, -, mapped, -, same⟩ := (exec_stored p m.fetched c.instr).changes
      rw [same a (by omega), memory_fetched, h.low a low]
    · rw [setup.maxSteps] at positive ⊢
      rw [setup.steps]
      change 0 < m.maxSteps at positive
      change (m.steps + 1 : Nat) ≤ m.maxSteps
      simp only [atLimit, Bool.and_eq_false_iff, decide_eq_false_iff_not] at limit
      omega
    · exact exec_exitCode p m.fetched c.instr h.exitCode

def after (p : Image) : (n : Nat) → Machine → Machine
  | 0, m => m
  | n + 1, m => (step p (after p n m)).1

theorem after_sound (labels : p.LabelsInText) (h : Sound p m) (n : Nat) : Sound p (after p n m) := by
  induction n with
  | zero => exact h
  | succ n ih => exact step_sound labels ih

/-- What is printed stays printed, and nothing happens after the exit. -/
structure Later (m u : Machine) : Prop where
  out : m.out.toList <+: u.out.toList
  errout : m.errout.toList <+: u.errout.toList
  halted : m.halted = true → u = m

theorem Stepped.later (h : Stepped p m u) : Later m u := by
  cases h.prints with
  | silent out errout => exact ⟨by simp [out], by simp [errout], h.halted⟩
  | write _ _ _ _ text _ _ appended =>
    rcases appended with ⟨-, out, errout⟩ | ⟨-, out, errout⟩
    all_goals
      refine ⟨?_, ?_, h.halted⟩
      all_goals simp [out, errout]

theorem Later.trans (h : Later m u) (h' : Later u v) : Later m v := by
  refine ⟨h.out.trans h'.out, h.errout.trans h'.errout, fun halted => ?_⟩
  obtain rfl := h.halted halted
  exact h'.halted halted

theorem after_later (p : Image) (m : Machine) {n k : Nat} (h : n ≤ k) :
    Later (after p n m) (after p k m) := by
  induction h with
  | refl => exact ⟨List.prefix_rfl, List.prefix_rfl, fun _ => rfl⟩
  | step _ ih => exact ih.trans (step_stepped p _).later

theorem load_sound (labels : p.LabelsInText) {entry : Bytes} {a : Int}
    (label : p.lookup? entry = some ⟨.text, a⟩) (h : load p = .ok m) (limit : Int)
    (calls : Syscalls) : Sound p { m with rip := a, maxSteps := limit, syscalls := calls } := by
  unfold load at h
  split at h
  · cases h
  · cases h
    refine ⟨labels entry a label, Vector.size_toArray _, fun b low => ?_, fun positive => ?_, ?_⟩
    · simp only
      rw [Memory.get_write_outside _ _ _ (.inl low), Memory.get_zero]
    · exact Int.le_of_lt positive
    · simp only [InInt32]
      omega

/-- From every text label of an assembled listing and after every number of steps. -/
theorem loaded_machine_stays_sound {text entry : Bytes} {a : Int} (assembled : assemble text = .ok p)
    (loaded : load p = .ok m) (label : p.lookup? entry = some ⟨.text, a⟩) (limit : Int)
    (calls : Syscalls) (n : Nat) :
    let start := { m with rip := a, maxSteps := limit, syscalls := calls }
    Sound p (after p n start) ∧ Stepped p (after p n start) (after p (n + 1) start) ∧
      ∀ k, n ≤ k → Later (after p n start) (after p k start) := by
  have labels := Image.labelsInText_of_assemble assembled
  intro start
  refine ⟨?_, step_stepped p _, fun k hk => after_later p start hk⟩
  exact after_sound labels (load_sound labels label loaded limit calls) n

def forgedReturn : Bytes := bytes "f: movabs $0x40000001, %rax\n push %rax\n ret"

def forgedImage : Image where
  text := #[⟨1, .move .movabs, [.immediate 0x40000001, .reg .rax]⟩, ⟨2, .push, [.reg .rax]⟩,
    ⟨3, .ret, []⟩]
  runs := []
  labels := [(bytes "f", ⟨.text, 0⟩)]
  globals := []

/-- The return goes back to the push, on and on. -/
theorem forgedReturn_stays_sound :
    assemble forgedReturn = .ok forgedImage ∧
    ∃ m, load forgedImage = .ok m ∧
      ∀ n, Sound forgedImage (after forgedImage n
        { m with rip := 0, maxSteps := 5, syscalls := .linux }) := by
  have assembled : assemble forgedReturn = .ok forgedImage := by decide +kernel
  have loaded : load forgedImage = .ok _ := if_neg (by decide)
  have label : forgedImage.lookup? (bytes "f") = some ⟨.text, 0⟩ := by decide
  exact ⟨assembled, _, loaded,
    fun n => (loaded_machine_stays_sound assembled loaded label 5 .linux n).1⟩

end Machine

end PrintLang
