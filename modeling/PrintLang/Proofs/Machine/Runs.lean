import PrintLang.Machine.Run
import PrintLang.Proofs.Machine.Exec
import PrintLang.Proofs.Outcome

/-!
# Segments of runs

`Reaches p m n u` says that `n` instructions lead from `m` to `u` and none of them stops the machine.
Segments join, and a whole run passes through them. A block of instructions without jumps, calls
and system calls is one segment, if it stands in the text and none of its instructions faults.
-/

set_option autoImplicit false

namespace PrintLang

/-- The text of the image has these instructions from index `a` on. -/
def Image.Holds (p : Image) (a : Nat) (is : List Instr) : Prop :=
  ∀ k i, is[k]? = some i → ∃ c, p.text[a + k]? = some c ∧ c.instr = i

namespace Image.Holds
variable {p : Image} {a : Nat} {i : Instr} {is js : List Instr}

theorem single {c : CodeLine} (found : p.text[a]? = some c) (h : c.instr = i) : p.Holds a [i] := by
  intro k j hk
  cases k with
  | zero =>
    obtain rfl := Option.some.inj hk
    exact ⟨c, found, h⟩
  | succ k => cases hk

theorem head (h : p.Holds a (i :: is)) : ∃ c, p.text[a]? = some c ∧ c.instr = i := h 0 i rfl

theorem tail (h : p.Holds a (i :: is)) : p.Holds (a + 1) is := by
  intro k j hk
  have hj := h (k + 1) j (by simpa using hk)
  rwa [show a + (k + 1) = a + 1 + k by omega] at hj

theorem left (h : p.Holds a (is ++ js)) : p.Holds a is := by
  intro k i hk
  have hlt : k < is.length := (List.getElem?_eq_some_iff.mp hk).choose
  exact h k i (by rw [List.getElem?_append_left hlt, hk])

theorem right (h : p.Holds a (is ++ js)) : p.Holds (a + is.length) js := by
  intro k i hk
  have hi := h (is.length + k) i (by rw [List.getElem?_append_right (by omega),
    Nat.add_sub_cancel_left, hk])
  rwa [show a + (is.length + k) = a + is.length + k by omega] at hi

end Image.Holds

theorem Image.holds_of_instrs {p : Image} (before : List Instr) {is after : List Instr}
    (h : p.text.toList.map CodeLine.instr = before ++ (is ++ after)) : p.Holds before.length is := by
  intro k i hk
  have hlt : k < is.length := (List.getElem?_eq_some_iff.mp hk).choose
  have found : (p.text.toList.map CodeLine.instr)[before.length + k]? = some i := by
    rw [h, List.getElem?_append_right (by omega), Nat.add_sub_cancel_left,
      List.getElem?_append_left hlt, hk]
  rw [List.getElem?_map, Array.getElem?_toList] at found
  exact Option.map_eq_some_iff.mp found

/-- Instructions after which the next one in the text follows, whatever the state. -/
def Instr.straight (i : Instr) : Bool :=
  match i.mnemonic with
  | .nop | .move _ | .lea | .alu _ | .unary _ | .cqo | .div | .idiv | .push | .pop => true
  | _ => false

def Operand.written : Operand → List Reg
  | .register (.general r _) => [r]
  | _ => []

def Instr.writes (i : Instr) : List Reg :=
  let written n := (i.operands[n]?.map Operand.written).getD []
  match i.mnemonic with
  | .move _ | .lea | .alu _ => written 1
  | .unary _ => written 0
  | .pop => .rsp :: written 0
  | .push => [.rsp]
  | .cqo => [.rdx]
  | .div | .idiv => [.rax, .rdx]
  | _ => []

namespace Machine

def Keeps (rs : List Reg) (m u : Machine) : Prop := ∀ r, r ∉ rs → u.reg r = m.reg r

namespace Keeps
variable {rs qs : List Reg} {m u v : Machine}

theorem refl (rs : List Reg) (m : Machine) : Keeps rs m m := fun _ _ => rfl

theorem mono (h : Keeps rs m u) (hs : ∀ r ∈ rs, r ∈ qs) : Keeps qs m u :=
  fun r hr => h r fun hm => hr (hs r hm)

theorem trans (h : Keeps rs m u) (h' : Keeps rs u v) : Keeps rs m v :=
  fun r hr => (h' r hr).trans (h r hr)

theorem setReg (h : Keeps rs m u) {q : Reg} (hq : q ∈ rs) (x : UInt64) :
    Keeps rs m (u.setReg q x) := by
  intro r hr
  have hne : q ≠ r := fun he => hr (he ▸ hq)
  rw [reg_setReg, if_neg hne, h r hr]

theorem withFlags (h : Keeps rs m u) (f : Flags) : Keeps rs m (u.withFlags f) :=
  fun r hr => (reg_withFlags u f r).trans (h r hr)

theorem withMemory (h : Keeps rs m u) (x : Memory) : Keeps rs m (u.withMemory x) :=
  fun r hr => (reg_withMemory u x r).trans (h r hr)

end Keeps

/-- What no instruction changes: the count of instructions, its limit and the system calls. -/
structure SameSetup (m u : Machine) : Prop where
  steps : u.steps = m.steps
  maxSteps : u.maxSteps = m.maxSteps
  syscalls : u.syscalls = m.syscalls

/-- What only system calls change: whether the program has exited, and what it has written. -/
structure SameOutput (m u : Machine) : Prop where
  halted : u.halted = m.halted
  exitCode : u.exitCode = m.exitCode
  out : u.out = m.out
  errout : u.errout = m.errout

theorem SameOutput.trans {m u v : Machine} (h : SameOutput m u) (h' : SameOutput u v) :
    SameOutput m v :=
  ⟨h'.halted.trans h.halted, h'.exitCode.trans h.exitCode, h'.out.trans h.out,
    h'.errout.trans h.errout⟩

structure Writes (text : Bytes) (m u : Machine) : Prop where
  halted : u.halted = m.halted
  exitCode : u.exitCode = m.exitCode
  out : u.out.toList = m.out.toList ++ text
  errout : u.errout = m.errout

namespace Writes
variable {xs ys : Bytes} {m u v : Machine}

theorem trans (h : Writes xs m u) (h' : Writes ys u v) : Writes (xs ++ ys) m v :=
  ⟨h'.halted.trans h.halted, h'.exitCode.trans h.exitCode,
    by rw [h'.out, h.out, List.append_assoc], h'.errout.trans h.errout⟩

theorem of_same (h : SameOutput m u) : Writes [] m u :=
  ⟨h.halted, h.exitCode, by rw [h.out, List.append_nil], h.errout⟩

theorem after (h : Writes xs u v) (h' : SameOutput m u) : Writes xs m v :=
  (of_same h').trans h

end Writes

/-- What an instruction without jump, call or system call leaves alone. -/
structure SameWorld (m u : Machine) : Prop extends SameSetup m u, SameOutput m u where
  rip : u.rip = m.rip

namespace SameWorld

theorem refl (m : Machine) : SameWorld m m := ⟨⟨rfl, rfl, rfl⟩, ⟨rfl, rfl, rfl, rfl⟩, rfl⟩

theorem setReg {m u : Machine} (h : SameWorld m u) (r : Reg) (v : UInt64) :
    SameWorld m (u.setReg r v) :=
  ⟨⟨h.steps, h.maxSteps, h.syscalls⟩, ⟨h.halted, h.exitCode, h.out, h.errout⟩, h.rip⟩

theorem withFlags {m u : Machine} (h : SameWorld m u) (f : Flags) :
    SameWorld m (u.withFlags f) :=
  ⟨⟨h.steps, h.maxSteps, h.syscalls⟩, ⟨h.halted, h.exitCode, h.out, h.errout⟩, h.rip⟩

theorem withMemory {m u : Machine} (h : SameWorld m u) (x : Memory) :
    SameWorld m (u.withMemory x) :=
  ⟨⟨h.steps, h.maxSteps, h.syscalls⟩, ⟨h.halted, h.exitCode, h.out, h.errout⟩, h.rip⟩

end SameWorld

theorem write_sameWorld (p : Image) {m u : Machine} (h : SameWorld m u) (op : Operand) (w : Width)
    (v : UInt64) : SameWorld m (u.write p op w v).1 := by
  unfold write
  split
  · unfold setRegAt
    split <;> exact h.setReg _ _
  · exact h
  · split
    · unfold storeWord
      split
      · exact h.withMemory _
      · exact h
    · exact h
  · exact h

theorem push_sameWorld {m u : Machine} (h : SameWorld m u) (v : UInt64) :
    SameWorld m (u.push v).1 := by
  unfold push
  simp only
  split
  · exact (h.withMemory _).setReg _ _
  · exact h

/-- The step lemma behind all segments without jumps. -/
theorem exec_sameWorld (p : Image) (i : Instr) (m : Machine) (hi : i.straight = true) :
    SameWorld m (exec p i m).1 := by
  have h := SameWorld.refl m
  obtain ⟨mnemonic, operands⟩ := i
  cases mnemonic with
  | nop => exact h
  | move op =>
    simp only [exec]
    split
    · exact write_sameWorld p h _ _ _
    · exact h
  | lea =>
    simp only [exec]
    split
    · exact write_sameWorld p h _ _ _
    · exact h
  | alu op =>
    simp only [exec]
    split
    · split
      · exact write_sameWorld p (h.withFlags _) _ _ _
      · exact h.withFlags _
    · exact h
  | unary op =>
    simp only [exec]
    split
    · exact write_sameWorld p (h.withFlags _) _ _ _
    · exact h
  | cqo => exact h.setReg _ _
  | div =>
    simp only [exec]
    split
    · unfold div
      simp only
      split
      · exact h
      · exact (h.setReg _ _).setReg _ _
    · exact h
  | idiv =>
    simp only [exec]
    split
    · unfold idiv
      simp only
      split
      · exact h
      · split
        · exact h
        · exact (h.setReg _ _).setReg _ _
    · exact h
  | push =>
    simp only [exec]
    split
    · exact push_sameWorld h _
    · exact h
  | pop =>
    simp only [exec]
    split
    · split
      · exact write_sameWorld p (h.setReg _ _) _ _ _
      · exact h.setReg _ _
    · exact h
  | ret | syscall | call | jump _ | unknown _ => cases hi

theorem write_keeps (p : Image) {rs : List Reg} {m u : Machine} (h : Keeps rs m u) (op : Operand)
    (w : Width) (v : UInt64) (hop : ∀ r ∈ op.written, r ∈ rs) :
    Keeps rs m (u.write p op w v).1 := by
  unfold write
  split
  · have hr := hop _ (List.mem_singleton_self _)
    unfold setRegAt
    split <;> exact h.setReg hr _
  · exact h
  · split
    · unfold storeWord
      split
      · exact h.withMemory _
      · exact h
    · exact h
  · exact h

theorem mem_written {i : Instr} {n : Nat} {op : Operand} (h : i.operand n = .ok op) {r : Reg}
    (hr : r ∈ op.written) : r ∈ (i.operands[n]?.map Operand.written).getD [] := by
  unfold Instr.operand at h
  split at h
  · next hn =>
    cases h
    simpa [hn] using hr
  · cases h

theorem exec_keeps (p : Image) (i : Instr) (m : Machine) (hi : i.straight = true) :
    Keeps i.writes m (exec p i m).1 := by
  have h := Keeps.refl i.writes m
  obtain ⟨mnemonic, operands⟩ := i
  cases mnemonic with
  | nop => exact h
  | move op =>
    simp only [exec]
    split
    · next hx =>
      obtain ⟨src, -, hx⟩ := bind_eq_ok.mp hx
      obtain ⟨v, -, hx⟩ := bind_eq_ok.mp hx
      obtain ⟨dst, hdst, hx⟩ := bind_eq_ok.mp hx
      cases hx
      exact write_keeps p h _ _ _ fun _ => mem_written hdst
    · exact h
  | lea =>
    simp only [exec]
    split
    · next hx =>
      obtain ⟨src, -, hx⟩ := bind_eq_ok.mp hx
      obtain ⟨a, -, hx⟩ := bind_eq_ok.mp hx
      obtain ⟨dst, hdst, hx⟩ := bind_eq_ok.mp hx
      cases hx
      exact write_keeps p h _ _ _ fun _ => mem_written hdst
    · exact h
  | alu op =>
    simp only [exec]
    split
    · next hx =>
      obtain ⟨src, -, hx⟩ := bind_eq_ok.mp hx
      obtain ⟨v, -, hx⟩ := bind_eq_ok.mp hx
      obtain ⟨dst, hdst, hx⟩ := bind_eq_ok.mp hx
      obtain ⟨d, -, hx⟩ := bind_eq_ok.mp hx
      cases hx
      split
      · exact write_keeps p (h.withFlags _) _ _ _ fun _ => mem_written hdst
      · exact h.withFlags _
    · exact h
  | unary op =>
    simp only [exec]
    split
    · next hx =>
      obtain ⟨dst, hdst, hx⟩ := bind_eq_ok.mp hx
      obtain ⟨v, -, hx⟩ := bind_eq_ok.mp hx
      cases hx
      exact write_keeps p (h.withFlags _) _ _ _ fun _ => mem_written hdst
    · exact h
  | cqo => exact h.setReg (List.mem_singleton_self _) _
  | div =>
    simp only [exec]
    split
    · unfold div
      simp only
      split
      · exact h
      · exact (h.setReg (by simp [Instr.writes]) _).setReg (by simp [Instr.writes]) _
    · exact h
  | idiv =>
    simp only [exec]
    split
    · unfold idiv
      simp only
      split
      · exact h
      · split
        · exact h
        · exact (h.setReg (by simp [Instr.writes]) _).setReg (by simp [Instr.writes]) _
    · exact h
  | push =>
    simp only [exec]
    split
    · unfold push
      simp only
      split
      · exact (h.withMemory _).setReg (by simp [Instr.writes]) _
      · exact h
    · exact h
  | pop =>
    have hd : Keeps (Instr.writes ⟨.pop, operands⟩) m m.drop :=
      h.setReg (by simp [Instr.writes]) _
    simp only [exec]
    split
    · split
      · next hdst =>
        exact write_keeps p hd _ _ _ fun _ hr => List.mem_cons_of_mem _ (mem_written hdst hr)
      · exact hd
    · exact h
  | ret | syscall | call | jump _ | unknown _ => cases hi

theorem exec_sameSetup (p : Image) (i : Instr) (m : Machine) : SameSetup m (exec p i m).1 := by
  by_cases hi : i.straight = true
  · exact (exec_sameWorld p i m hi).toSameSetup
  · have h : SameSetup m m := ⟨rfl, rfl, rfl⟩
    obtain ⟨mnemonic, operands⟩ := i
    cases mnemonic with
    | call =>
      simp only [exec]
      split
      · have hp := push_sameWorld (.refl m) (UInt64.ofInt (textBase + m.rip))
        split
        all_goals
          next hx =>
          rw [hx] at hp
          exact ⟨hp.steps, hp.maxSteps, hp.syscalls⟩
      · exact h
    | ret =>
      simp only [exec]
      split
      · split <;> exact ⟨h.steps, h.maxSteps, h.syscalls⟩
      · exact h
    | syscall =>
      simp only [exec, syscall]
      split
      · unfold writeCall emit
        simp only
        repeat' split
        all_goals exact ⟨h.steps, h.maxSteps, h.syscalls⟩
      · split <;> exact ⟨h.steps, h.maxSteps, h.syscalls⟩
    | jump c =>
      simp only [exec]
      split
      · split <;> exact ⟨h.steps, h.maxSteps, h.syscalls⟩
      · exact h
    | unknown _ => exact h
    | nop | move _ | lea | alu _ | unary _ | cqo | div | idiv | push | pop => exact absurd rfl hi

def Room (m : Machine) (n : Nat) : Prop := 0 < m.maxSteps → (m.steps + n : Nat) ≤ m.maxSteps

theorem Room.mono {m : Machine} {n k : Nat} (h : m.Room n) (hk : k ≤ n) : m.Room k := by
  intro hm
  have := h hm
  omega

theorem Room.not_atLimit {m : Machine} (h : m.Room 1) : m.atLimit = false := by
  unfold atLimit
  by_cases hm : 0 < m.maxSteps
  · have := h hm
    simp only [Bool.and_eq_false_iff, decide_eq_false_iff_not]
    omega
  · simp [hm]

theorem step_of_exec {p : Image} {m : Machine} {a : Nat} {c : CodeLine} (hc : p.text[a]? = some c)
    (hrip : m.rip = a) (live : m.halted = false) (room : m.Room 1) :
    step p m = ((exec p c.instr m.fetched).1,
      (exec p c.instr m.fetched).2.map (Stop.fault c.line c.instr)) := by
  have ht : atIndex? p.text m.rip = some c := by rw [hrip, atIndex?_natCast, hc]
  simp only [step, live, room.not_atLimit, Bool.false_eq_true, if_false, ht]
  rcases exec p c.instr m.fetched with ⟨u, _ | f⟩ <;> rfl

theorem runFor_halted (p : Image) (k : Nat) {m : Machine} (h : m.halted = true) :
    runFor p k m = (m, none) := by
  cases k with
  | zero => rfl
  | succ k => rw [runFor, if_pos h]

/-- `n` instructions in a row, none of which stops the machine. -/
inductive Reaches (p : Image) : Machine → Nat → Machine → Prop where
  | refl (m : Machine) : Reaches p m 0 m
  | next {m u v : Machine} {n : Nat} (live : m.halted = false) (h : step p m = (u, none))
      (tail : Reaches p u n v) : Reaches p m (n + 1) v

namespace Reaches
variable {p : Image} {m u v : Machine} {n k : Nat}

theorem trans (h : Reaches p m n u) (h' : Reaches p u k v) : Reaches p m (n + k) v := by
  induction h with
  | refl m => simpa using h'
  | next live hs _ ih =>
    rw [Nat.add_right_comm]
    exact .next live hs (ih h')

theorem runFor (h : Reaches p m n u) (k : Nat) :
    Machine.runFor p (n + k) m = Machine.runFor p k u := by
  induction h with
  | refl m => rw [Nat.zero_add]
  | next live hs _ ih =>
    rw [Nat.add_right_comm, Machine.runFor, live]
    simp only [Bool.false_eq_true, if_false, hs]
    exact ih

theorem single {a : Nat} {i : Instr} {is : List Instr} (code : p.Holds a (i :: is))
    (hrip : m.rip = a) (live : m.halted = false) (room : m.Room 1)
    (h : exec p i m.fetched = (u, none)) : Reaches p m 1 u := by
  obtain ⟨c, hc, rfl⟩ := code.head
  refine .next live ?_ (.refl u)
  rw [step_of_exec hc hrip live room, h]
  rfl

end Reaches

theorem step_setup {p : Image} {m u : Machine} (live : m.halted = false)
    (h : step p m = (u, none)) :
    u.steps = m.steps + 1 ∧ u.maxSteps = m.maxSteps ∧ u.syscalls = m.syscalls := by
  unfold step at h
  simp only [live, Bool.false_eq_true, if_false] at h
  split at h
  · cases h
  · split at h
    · cases h
    · next c _ =>
      have hs := exec_sameSetup p c.instr m.fetched
      split at h
      · next hx =>
        obtain rfl := (Prod.mk.inj h).1
        rw [hx] at hs
        exact ⟨hs.steps, hs.maxSteps, hs.syscalls⟩
      · cases h

theorem Reaches.setup {p : Image} {m u : Machine} {n : Nat} (h : Reaches p m n u) :
    u.steps = m.steps + n ∧ u.maxSteps = m.maxSteps ∧ u.syscalls = m.syscalls := by
  induction h with
  | refl m => exact ⟨rfl, rfl, rfl⟩
  | next live hs _ ih =>
    obtain ⟨h1, h2, h3⟩ := step_setup live hs
    obtain ⟨i1, i2, i3⟩ := ih
    refine ⟨?_, i2.trans h2, i3.trans h3⟩
    rw [i1, h1]
    omega

theorem Reaches.room {p : Image} {m u : Machine} {n k : Nat} (h : Reaches p m n u)
    (room : m.Room (n + k)) : u.Room k := by
  obtain ⟨hs, hm, _⟩ := h.setup
  intro hpos
  have := room (hm ▸ hpos)
  rw [hs, hm]
  omega

/-- `n` instructions in a row, of which one writes the text and the others write nothing. -/
def WritesOnce (p : Image) (text : Bytes) (m : Machine) (n : Nat) (u : Machine) : Prop :=
  ∃ k j x y, n = k + 1 + j ∧ Reaches p m k x ∧ SameOutput m x ∧
    Reaches p x 1 y ∧ Writes text x y ∧ Reaches p y j u ∧ SameOutput y u

namespace WritesOnce
variable {p : Image} {text : Bytes} {m u v : Machine} {n k : Nat}

theorem reaches (h : WritesOnce p text m n u) : Reaches p m n u := by
  obtain ⟨k, j, x, y, rfl, before, -, write, -, rest, -⟩ := h
  exact (before.trans write).trans rest

theorem writes (h : WritesOnce p text m n u) : Writes text m u := by
  obtain ⟨_, _, x, y, -, -, silent, -, printed, -, silent'⟩ := h
  have all := (printed.after silent).trans (.of_same silent')
  rwa [List.append_nil] at all

theorem after (h : WritesOnce p text u n v) (first : Reaches p m k u) (silent : SameOutput m u) :
    WritesOnce p text m (k + n) v := by
  obtain ⟨i, j, x, y, rfl, before, same, write⟩ := h
  exact ⟨k + i, j, x, y, by omega, first.trans before, silent.trans same, write⟩

theorem before (h : WritesOnce p text m n u) (last : Reaches p u k v) (silent : SameOutput u v) :
    WritesOnce p text m (n + k) v := by
  obtain ⟨i, j, x, y, rfl, first, same, write, printed, rest, same'⟩ := h
  exact ⟨i, j + k, x, y, by omega, first, same, write, printed, rest.trans last,
    same'.trans silent⟩

end WritesOnce

def andThen (r : Machine × Option Fault) (k : Machine → Machine × Option Fault) :
    Machine × Option Fault :=
  match r with
  | (m, none) => k m
  | (m, some f) => (m, some f)

def execAll (p : Image) : List Instr → Machine → Machine × Option Fault
  | [], m => (m, none)
  | i :: is, m => andThen (exec p i m.fetched) (execAll p is)

-- As with the fields of a machine, these equations are not left to the kernel to compute.
theorem andThen_none (m : Machine) (k : Machine → Machine × Option Fault) :
    andThen (m, none) k = k m := by
  simp only [andThen]

theorem execAll_nil (p : Image) (m : Machine) : execAll p [] m = (m, none) := by
  simp only [execAll]

theorem execAll_cons (p : Image) (i : Instr) (is : List Instr) (m : Machine) :
    execAll p (i :: is) m = andThen (exec p i m.fetched) (execAll p is) := by
  simp only [execAll]

/-- A block without jumps that does not fault is a segment. -/
theorem Reaches.block {p : Image} {is : List Instr} {m u : Machine} {a : Nat} (code : p.Holds a is)
    (straight : ∀ i ∈ is, i.straight = true) (hrip : m.rip = a) (live : m.halted = false)
    (room : m.Room is.length) (h : execAll p is m = (u, none)) :
    Reaches p m is.length u ∧ u.rip = (a + is.length : Nat) ∧ SameOutput m u ∧
      Keeps (is.flatMap Instr.writes) m u := by
  induction is generalizing m a with
  | nil =>
    obtain rfl := (Prod.mk.inj h).1
    exact ⟨.refl m, hrip, ⟨rfl, rfl, rfl, rfl⟩, .refl _ m⟩
  | cons i is ih =>
    rw [execAll_cons] at h
    have hw := exec_sameWorld p i m.fetched (straight i (by simp))
    have hk := exec_keeps p i m.fetched (straight i (by simp))
    rcases hx : exec p i m.fetched with ⟨v, _ | f⟩
    · rw [hx] at hw hk h
      rw [andThen_none] at h
      have first : Reaches p m 1 v := .single code hrip live (room.mono (by simp)) hx
      have hv : v.rip = (a + 1 : Nat) := by
        rw [hw.rip, fetched, hrip]
        rfl
      rw [List.length_cons, Nat.add_comm] at room
      obtain ⟨rest, hu, ho, hr⟩ := ih code.tail
        (fun j hj => straight j (List.mem_cons_of_mem i hj)) hv (hw.halted.trans live)
        (first.room room) h
      have hm : SameOutput m v := ⟨hw.halted, hw.exitCode, hw.out, hw.errout⟩
      have hk' : Keeps i.writes m v := fun r hr => (hk r hr).trans (reg_fetched m r)
      refine ⟨?_, ?_, hm.trans ho, ?_⟩
      · rw [List.length_cons, Nat.add_comm]
        exact first.trans rest
      · rw [hu, List.length_cons]
        omega
      · rw [List.flatMap_cons]
        exact (hk'.mono fun r => List.mem_append_left _).trans
          (hr.mono fun r => List.mem_append_right _)
    · rw [hx] at h
      cases h

end Machine

end PrintLang
