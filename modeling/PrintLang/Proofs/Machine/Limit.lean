import PrintLang.Proofs.Machine.Runs

/-!
# Runs with a limit

No instruction looks at the limit, so a run with one is the run without it, cut off: the two agree
step by step until the limit is reached. `Finishes` is the loop of a run with no bound on its rounds,
and has no result for a run that goes on forever.
-/

set_option autoImplicit false

namespace PrintLang

namespace Machine

def withLimit (m : Machine) (n : Int) : Machine := { m with maxSteps := n }

def underLimit {α : Type} (n : Int) (r : Machine × Option α) : Machine × Option α :=
  (r.1.withLimit n, r.2)

section Exec
variable (p : Image) (m : Machine) (n : Int)

theorem underLimit_mk {α : Type} (s : Option α) : underLimit n (m, s) = (m.withLimit n, s) := rfl

theorem reg_withLimit (r : Reg) : (m.withLimit n).reg r = m.reg r := by
  cases m
  rfl

theorem memory_withLimit : (m.withLimit n).memory = m.memory := by
  cases m
  rfl

theorem setReg_withLimit (r : Reg) (v : UInt64) :
    (m.withLimit n).setReg r v = (m.setReg r v).withLimit n := by
  cases m
  rfl

theorem withMemory_withLimit (x : Memory) :
    (m.withLimit n).withMemory x = (m.withMemory x).withLimit n := by
  cases m
  rfl

theorem address_withLimit (op : Operand) : (m.withLimit n).address p op = m.address p op := rfl

theorem read_withLimit (op : Operand) (w : Width) :
    (m.withLimit n).read p op w = m.read p op w := rfl

theorem top_withLimit : (m.withLimit n).top = m.top := rfl

theorem write_withLimit (op : Operand) (w : Width) (v : UInt64) :
    (m.withLimit n).write p op w v = underLimit n (m.write p op w v) := by
  unfold write
  rw [address_withLimit]
  split
  · unfold setRegAt
    split <;> rfl
  · rfl
  · split
    · unfold storeWord
      split <;> rfl
    · rfl
  · rfl

theorem push_withLimit (v : UInt64) : (m.withLimit n).push v = underLimit n (m.push v) := by
  by_cases fits : Memory.fits (m.reg .rsp - 8).toNat 8 = true
  · rw [push_of_fits m v fits, push_of_fits _ v (by rw [reg_withLimit, fits]), underLimit_mk,
      reg_withLimit, memory_withLimit, withMemory_withLimit, setReg_withLimit]
  · simp only [push, reg_withLimit, fits, Bool.false_eq_true, if_false, underLimit_mk]

theorem div_withLimit (d : UInt64) : (m.withLimit n).div d = underLimit n (m.div d) := by
  simp only [div, reg_withLimit, setReg_withLimit]
  split <;> rw [underLimit_mk]

theorem idiv_withLimit (d : Int64) : (m.withLimit n).idiv d = underLimit n (m.idiv d) := by
  simp only [idiv, reg_withLimit, setReg_withLimit]
  split
  · rfl
  · split <;> rfl

theorem writeCall_withLimit : (m.withLimit n).writeCall = underLimit n m.writeCall := by
  have same : (m.withLimit n).readBytes (m.reg .rsi) (m.reg .rdx).toInt64 =
    m.readBytes (m.reg .rsi) (m.reg .rdx).toInt64 := rfl
  simp only [writeCall, reg_withLimit, same]
  split
  · split
    · unfold emit
      split <;> rfl
    · rfl
  · rfl

theorem syscall_withLimit : (m.withLimit n).syscall = underLimit n m.syscall := by
  have calls : (m.withLimit n).syscalls = m.syscalls := rfl
  simp only [syscall, reg_withLimit, calls]
  split
  · exact writeCall_withLimit m n
  · split <;> rfl

/-- No instruction looks at the limit or changes it. -/
theorem exec_withLimit (i : Instr) :
    exec p i (m.withLimit n) = underLimit n (exec p i m) := by
  obtain ⟨mnemonic, operands⟩ := i
  cases mnemonic with
  | nop | unknown _ => rfl
  | move op =>
    simp only [exec, read_withLimit]
    split
    · exact write_withLimit p m n _ _ _
    · rfl
  | lea =>
    simp only [exec, address_withLimit]
    split
    · exact write_withLimit p m n _ _ _
    · rfl
  | alu op =>
    simp only [exec, read_withLimit]
    split
    · split
      · exact write_withLimit p (m.withFlags _) n _ _ _
      · rfl
    · rfl
  | unary op =>
    simp only [exec, read_withLimit]
    split
    · exact write_withLimit p (m.withFlags _) n _ _ _
    · rfl
  | cqo => rfl
  | div =>
    simp only [exec, read_withLimit]
    split
    · exact div_withLimit m n _
    · rfl
  | idiv =>
    simp only [exec, read_withLimit]
    split
    · exact idiv_withLimit m n _
    · rfl
  | push =>
    simp only [exec, read_withLimit]
    split
    · exact push_withLimit m n _
    · rfl
  | pop =>
    simp only [exec, top_withLimit]
    split
    · split
      · exact write_withLimit p m.drop n _ _ _
      · rfl
    · rfl
  | call =>
    have back : (m.withLimit n).rip = m.rip := rfl
    simp only [exec, push_withLimit, back]
    split
    · rcases m.push (UInt64.ofInt (textBase + m.rip)) with ⟨u, _ | f⟩ <;> rfl
    · rfl
  | ret =>
    simp only [exec, top_withLimit]
    split
    · split <;> rfl
    · rfl
  | syscall => exact syscall_withLimit m n
  | jump c =>
    have flags : (m.withLimit n).flags = m.flags := rfl
    simp only [exec, flags]
    split
    · split <;> rfl
    · rfl

end Exec

section Step
variable {p : Image} {m u : Machine} {n : Int} {s : Option Stop}

theorem atLimit_of_free (free : m.maxSteps ≤ 0) : m.atLimit = false := by
  simp only [atLimit, Bool.and_eq_false_iff, decide_eq_false_iff_not]
  omega

theorem atLimit_withLimit (m : Machine) (n : Int) :
    (m.withLimit n).atLimit = (decide (0 < n) && decide (n ≤ m.steps)) := rfl

/-- Below the limit, a step is the same with and without it. -/
theorem step_withLimit (free : m.maxSteps ≤ 0) (below : m.steps < n) :
    step p (m.withLimit n) = underLimit n (step p m) := by
  have room : (m.withLimit n).atLimit = false := by
    simp only [atLimit_withLimit, Bool.and_eq_false_iff, decide_eq_false_iff_not]
    omega
  have same : (m.withLimit n).halted = m.halted ∧ (m.withLimit n).rip = m.rip := ⟨rfl, rfl⟩
  have fetch : (m.withLimit n).fetched = m.fetched.withLimit n := rfl
  simp only [step, room, atLimit_of_free free, same, fetch, exec_withLimit]
  cases m.halted with
  | true => rfl
  | false =>
    rcases atIndex? p.text m.rip with _ | c
    · rfl
    · rcases hx : exec p c.instr m.fetched with ⟨u, _ | f⟩ <;> simp [hx, underLimit]

/-- At the limit, the test of the limit comes before every other. -/
theorem step_atLimit (positive : 0 < n) (reached : n ≤ m.steps) (live : m.halted = false) :
    step p (m.withLimit n) = (m.withLimit n, some .stepLimit) := by
  have full : (m.withLimit n).atLimit = true := by
    simp only [atLimit_withLimit, Bool.and_eq_true, decide_eq_true_eq]
    exact ⟨positive, reached⟩
  have same : (m.withLimit n).halted = false := live
  simp only [step, same, full, Bool.false_eq_true, if_false, if_true]

/-- What stops a machine: the limit or the end of the text, before an instruction is counted, or a
fault of the instruction just counted. -/
theorem stop_cases (live : m.halted = false) {stop : Stop} (h : step p m = (u, some stop)) :
    (stop = .stepLimit ∧ m.atLimit = true ∧ u = m) ∨ (stop = .ranOff ∧ u = m) ∨
      (∃ line i f, stop = .fault line i f) ∧ u.steps = m.steps + 1 := by
  simp only [step, live, Bool.false_eq_true, if_false] at h
  split at h
  · next limit =>
    cases h
    exact .inl ⟨rfl, limit, rfl⟩
  · split at h
    · cases h
      exact .inr (.inl ⟨rfl, rfl⟩)
    · next c _ =>
      have setup := exec_sameSetup p c.instr m.fetched
      split at h
      · cases h
      · next hx =>
        cases h
        rw [hx] at setup
        exact .inr (.inr ⟨⟨_, _, _, rfl⟩, setup.steps⟩)

theorem stop_cases_of_free (free : m.maxSteps ≤ 0) (live : m.halted = false) {stop : Stop}
    (h : step p m = (u, some stop)) :
    (stop = .ranOff ∧ u = m) ∨ (∃ line i f, stop = .fault line i f) ∧ u.steps = m.steps + 1 := by
  rcases stop_cases live h with ⟨-, limit, -⟩ | other
  · simp [atLimit_of_free free] at limit
  · exact other

end Step

/-- The loop of a run, with no bound on the number of its rounds: it ends when the machine has
halted or a step stops it. -/
inductive Finishes (p : Image) : Machine → Machine → Option Stop → Prop where
  | halted {m : Machine} (h : m.halted = true) : Finishes p m m none
  | stopped {m u : Machine} {s : Stop} (live : m.halted = false) (h : step p m = (u, some s)) :
      Finishes p m u (some s)
  | next {m u v : Machine} {s : Option Stop} (live : m.halted = false) (h : step p m = (u, none))
      (tail : Finishes p u v s) : Finishes p m v s

namespace Finishes
variable {p : Image} {m u v : Machine} {s t : Option Stop}

theorem unique (h : Finishes p m u s) (h' : Finishes p m v t) : u = v ∧ s = t := by
  induction h with
  | halted h =>
    cases h' with
    | halted _ => exact ⟨rfl, rfl⟩
    | stopped live _ | next live _ _ => simp [h] at live
  | stopped live h =>
    cases h' with
    | halted h => simp [h] at live
    | stopped _ h' => simpa [h] using h'
    | next _ h' _ => simp [h] at h'
  | next live h _ ih =>
    cases h' with
    | halted h => simp [h] at live
    | stopped _ h' => simp [h] at h'
    | next _ h' tail =>
      obtain ⟨rfl, -⟩ := Prod.mk.inj (h.symm.trans h')
      exact ih tail

/-- The loop ends as the bounded one does, if the bound lets it take all instructions that it
takes. -/
theorem runFor_eq (h : Finishes p m u s) :
    m.steps ≤ u.steps ∧ ∀ k, u.steps < m.steps + k → runFor p k m = (u, s) := by
  induction h with
  | halted h => exact ⟨le_rfl, fun k _ => runFor_halted p k h⟩
  | @stopped m u s live h =>
    have grows : m.steps ≤ u.steps := by
      rcases Machine.stop_cases live h with ⟨-, -, rfl⟩ | ⟨-, rfl⟩ | ⟨-, hu⟩ <;> omega
    refine ⟨grows, ?_⟩
    rintro (_ | k) hk
    · omega
    · simp only [runFor, live, Bool.false_eq_true, if_false, h]
  | @next m u v s live h _ ih =>
    obtain ⟨counted, -⟩ := step_setup live h
    obtain ⟨grows, ends⟩ := ih
    refine ⟨by omega, ?_⟩
    rintro (_ | k) hk
    · omega
    · simp only [runFor, live, Bool.false_eq_true, if_false, h]
      exact ends k (by omega)

/-- The bounded loop that ended before its bound is the loop with none. -/
theorem of_runFor {k : Nat} (h : runFor p k m = (u, s)) (ended : u.halted = true ∨ s ≠ none) :
    Finishes p m u s := by
  induction k generalizing m with
  | zero =>
    cases h
    exact .halted (ended.resolve_right fun h => h rfl)
  | succ k ih =>
    cases live : m.halted with
    | true =>
      rw [runFor_halted p _ live] at h
      cases h
      exact .halted live
    | false =>
      rw [runFor, live] at h
      rcases hs : step p m with ⟨v, _ | stop⟩
      · rw [hs] at h
        exact .next live hs (ih h)
      · rw [hs] at h
        cases h
        exact .stopped live hs

theorem stop_cases (h : Finishes p m u s) (free : m.maxSteps ≤ 0) :
    s = none ∨ s = some .ranOff ∨ ∃ line i f, s = some (.fault line i f) := by
  induction h with
  | halted _ => exact .inl rfl
  | stopped live h =>
    rcases stop_cases_of_free free live h with ⟨rfl, -⟩ | ⟨⟨line, i, f, rfl⟩, -⟩
    · exact .inr (.inl rfl)
    · exact .inr (.inr ⟨line, i, f, rfl⟩)
  | next live h _ ih => exact ih ((step_setup live h).2.1 ▸ free)

end Finishes

theorem Reaches.finishes {p : Image} {m u v : Machine} {n : Nat} {s : Option Stop}
    (h : Reaches p m n u) (h' : Finishes p u v s) : Finishes p m v s := by
  induction h with
  | refl _ => exact h'
  | next live hs _ ih => exact .next live hs (ih h')

/-- Whether a run that ends like this without a limit does so within the limit. The end of the text
is met by one more step, and the limit must leave room for it. -/
def InTime (n : Int) (u : Machine) : Option Stop → Prop
  | some .ranOff => u.steps < n
  | _ => u.steps ≤ n

theorem InTime.steps_le {n : Int} {u : Machine} {s : Option Stop} (h : InTime n u s) :
    u.steps ≤ n := by
  unfold InTime at h
  split at h <;> omega

section Limited
variable {p : Image} {m u v : Machine} {s : Option Stop} {n : Int} {r : Nat}

theorem Finishes.withLimit (h : Finishes p m u s) (free : m.maxSteps ≤ 0) (inTime : InTime n u s) :
    Finishes p (m.withLimit n) (u.withLimit n) s := by
  induction h with
  | halted h => exact .halted h
  | @stopped m u s live h =>
    have below : m.steps < n := by
      rcases stop_cases_of_free free live h with ⟨rfl, rfl⟩ | ⟨⟨line, i, f, rfl⟩, hu⟩
      · exact inTime
      · have := inTime.steps_le
        omega
    refine .stopped live ?_
    rw [step_withLimit free below, h, underLimit_mk]
  | @next m u v s live h tail ih =>
    obtain ⟨counted, limit, -⟩ := step_setup live h
    have below : m.steps < n := by
      have := tail.runFor_eq.1
      have := inTime.steps_le
      omega
    refine .next live ?_ (ih (limit ▸ free) inTime)
    rw [step_withLimit free below, h, underLimit_mk]

theorem Reaches.withLimit (h : Reaches p m r v) (free : m.maxSteps ≤ 0)
    (room : (m.steps + r : Nat) ≤ n) : Reaches p (m.withLimit n) r (v.withLimit n) := by
  induction h with
  | refl m => exact .refl _
  | next live h _ ih =>
    obtain ⟨counted, limit, -⟩ := step_setup live h
    refine .next live ?_ (ih (limit ▸ free) (by omega))
    rw [step_withLimit free (by omega), h, underLimit_mk]

/-- Without a limit, a run ends in time or goes on after as many instructions. -/
theorem inTime_or_reaches (free : m.maxSteps ≤ 0) (left : (m.steps + r : Nat) = n) :
    (∃ u s, Finishes p m u s ∧ InTime n u s) ∨ ∃ v, Reaches p m r v ∧ v.halted = false := by
  induction r generalizing m with
  | zero =>
    cases live : m.halted with
    | true => exact .inl ⟨m, none, .halted live, by simp only [InTime]; omega⟩
    | false => exact .inr ⟨m, .refl m, live⟩
  | succ r ih =>
    cases live : m.halted with
    | true => exact .inl ⟨m, none, .halted live, by simp only [InTime]; omega⟩
    | false =>
      rcases hs : step p m with ⟨u, _ | stop⟩
      · obtain ⟨counted, limit, -⟩ := step_setup live hs
        rcases ih (limit ▸ free) (by omega) with ⟨v, s, ends, inTime⟩ | ⟨v, runs, hv⟩
        · exact .inl ⟨v, s, .next live hs ends, inTime⟩
        · exact .inr ⟨v, .next live hs runs, hv⟩
      · refine .inl ⟨u, some stop, .stopped live hs, ?_⟩
        rcases stop_cases_of_free free live hs with ⟨rfl, rfl⟩ | ⟨⟨line, i, f, rfl⟩, hu⟩
        all_goals
          simp only [InTime]
          omega

/-- The limit stops a machine that is still running when it is reached. -/
theorem Reaches.limit_stops (h : Reaches p m r v) (live : v.halted = false) (free : m.maxSteps ≤ 0)
    (left : (m.steps + r : Nat) = n) (positive : 0 < n) :
    Finishes p (m.withLimit n) (v.withLimit n) (some .stepLimit) := by
  have reached : n ≤ v.steps := by
    have := h.setup.1
    omega
  exact (h.withLimit free (by omega)).finishes (.stopped live (step_atLimit positive reached live))

end Limited

/-- A run with a limit against the run without one from the same state. Without a limit, the run is
the loop with no bound on its rounds; the fields of the final states are all the same but the limit. -/
structure Refines (p : Image) (limit : Int) (start : Machine) (limited : Machine × Option Stop) :
    Prop where
  /-- A run that halts does so under every limit that is not below its instructions. -/
  halts : ∀ u, Finishes p start u none → (limited = (u.withLimit limit, none) ↔ u.steps ≤ limit)
  /-- A fault counts the instruction that fails. -/
  fails : ∀ u line i f, Finishes p start u (some (.fault line i f)) →
    (limited = (u.withLimit limit, some (.fault line i f)) ↔ u.steps ≤ limit)
  /-- The end of the text is met only with room for one more. -/
  ranOff : ∀ u, Finishes p start u (some .ranOff) →
    (limited = (u.withLimit limit, some .ranOff) ↔ u.steps < limit)
  /-- Without a limit, nothing else ends a run. -/
  only : ∀ u s, Finishes p start u s →
    s = none ∨ s = some .ranOff ∨ ∃ line i f, s = some (.fault line i f)
  /-- In every other case, the limit stops the run in the state after as many instructions. -/
  stopped : (∀ u s, Finishes p start u s → ¬ InTime limit u s) →
    ∃ v, Reaches p start limit.toNat v ∧ v.steps = limit ∧
      limited = (v.withLimit limit, some .stepLimit)
  /-- A run with a limit ends, whether or not the one without does. -/
  ends : Finishes p (start.withLimit limit) limited.1 limited.2

theorem refines_of_finishes {p : Image} {m : Machine} {n : Int} {limited : Machine × Option Stop}
    (fresh : m.steps = 0) (free : m.maxSteps ≤ 0) (positive : 0 < n)
    (result : ∀ u s, Finishes p (m.withLimit n) u s → u.steps ≤ n → limited = (u, s)) :
    Refines p n m limited := by
  have left : (m.steps + n.toNat : Nat) = n := by omega
  have ended {u : Machine} {s : Option Stop} (h : Finishes p m u s) (inTime : InTime n u s) :
      limited = (u.withLimit n, s) :=
    result _ s (h.withLimit free inTime) inTime.steps_le
  have reached {v : Machine} (h : Reaches p m n.toNat v) (live : v.halted = false) :
      v.steps = n ∧ Finishes p (m.withLimit n) (v.withLimit n) (some .stepLimit) ∧
        limited = (v.withLimit n, some .stepLimit) := by
    have steps : v.steps = n := by
      have := h.setup.1
      omega
    have stop := h.limit_stops live free left positive
    exact ⟨steps, stop, result _ _ stop (Int.le_of_eq steps)⟩
  -- The run that ends in time is the one at hand, or the limit has stopped it with another answer.
  have inTime_iff {u : Machine} {s : Option Stop} (h : Finishes p m u s)
      (other : s ≠ some .stepLimit) : limited = (u.withLimit n, s) ↔ InTime n u s := by
    refine ⟨fun same => ?_, ended h⟩
    rcases inTime_or_reaches (p := p) free left with ⟨w, t, h', inTime⟩ | ⟨v, runs, live⟩
    · obtain ⟨rfl, rfl⟩ := h.unique h'
      exact inTime
    · have stop := (reached runs live).2.2
      rw [same] at stop
      exact absurd (Prod.mk.inj stop).2 other
  refine ⟨fun u h => inTime_iff h (by simp), fun u line i f h => inTime_iff h (by simp),
    fun u h => inTime_iff h (by simp), fun u s h => h.stop_cases free, fun late => ?_, ?_⟩
  · rcases inTime_or_reaches (p := p) free left with ⟨u, s, h, inTime⟩ | ⟨v, runs, live⟩
    · exact absurd inTime (late u s h)
    · obtain ⟨steps, -, stop⟩ := reached runs live
      exact ⟨v, runs, steps, stop⟩
  · rcases inTime_or_reaches (p := p) free left with ⟨u, s, h, inTime⟩ | ⟨v, runs, live⟩
    · rw [ended h inTime]
      exact h.withLimit free inTime
    · obtain ⟨-, stop, same⟩ := reached runs live
      rw [same]
      exact stop

theorem run_of_label {p : Image} {entry : Bytes} {a : Int} (m : Machine)
    (label : p.lookup? entry = some ⟨.text, a⟩) :
    run p entry m = runFor p m.budget (m.goto a) := by
  simp only [run, label]
  rfl

/-- Unless the limit stops it, a run ends as the one without a limit. -/
theorem Refines.eq_of_finishes {p : Image} {limit : Int} {m u : Machine} {s : Option Stop}
    {limited : Machine × Option Stop} (h : Refines p limit m limited) (ends : Finishes p m u s)
    (other : limited.2 ≠ some .stepLimit) : limited = (u.withLimit limit, s) := by
  by_cases inTime : InTime limit u s
  · rcases h.only u s ends with rfl | rfl | ⟨line, i, f, rfl⟩
    · exact (h.halts u ends).mpr inTime
    · exact (h.ranOff u ends).mpr inTime
    · exact (h.fails u line i f ends).mpr inTime
  · obtain ⟨v, -, -, stopped⟩ := h.stopped fun w t h' => by
      obtain ⟨rfl, rfl⟩ := ends.unique h'
      exact inTime
    rw [stopped] at other
    exact absurd rfl other

theorem run_refines {p : Image} {entry : Bytes} {a : Int} {m : Machine} {limit : Int}
    (label : p.lookup? entry = some ⟨.text, a⟩) (fresh : m.steps = 0) (free : m.maxSteps ≤ 0)
    (positive : 0 < limit) : Refines p limit (m.goto a) (run p entry (m.withLimit limit)) := by
  refine refines_of_finishes fresh free positive fun u s h within => ?_
  have limited : (m.withLimit limit).budget = limit.toNat - m.steps + 1 := if_pos positive
  rw [run_of_label _ label, limited, fresh]
  refine h.runFor_eq.2 _ ?_
  change u.steps < m.steps + _
  omega

/-- A limit changes nothing about a run that ends within it, and stops every other run exactly
there. -/
theorem limited_run_refines (p : Image) (entry : Bytes) (a : Int) (m : Machine) (limit : Int)
    (label : p.lookup? entry = some ⟨.text, a⟩) (fresh : m.steps = 0) (free : m.maxSteps ≤ 0)
    (positive : 0 < limit) :
    Refines p limit (m.goto a) (run p entry (m.withLimit limit)) ∧
    ∀ u s, Finishes p (m.goto a) u s → u.steps < 4611686018427387904 → run p entry m = (u, s) := by
  refine ⟨run_refines label fresh free positive, fun u s h small => ?_⟩
  have unlimited : m.budget = 4611686018427387904 := if_neg (by omega)
  rw [run_of_label m label, unlimited]
  exact h.runFor_eq.2 _ (Nat.lt_of_lt_of_le small (Nat.le_add_left _ _))

def idleImage : Image where
  text := #[⟨1, .nop, []⟩]
  runs := []
  labels := [(bytes "f", ⟨.text, 0⟩)]
  globals := []

def idleMachine : Machine where
  regs := Vector.replicate 16 0
  rip := 0
  flags := ⟨false, false, false, false⟩
  memory := .zero
  halted := false
  exitCode := 0
  steps := 0
  maxSteps := 0
  syscalls := .linux
  out := #[]
  errout := #[]

/-- Of `down: dec %rcx`, `jne down`, `mov $60, %rax`, `syscall`, `split: cqo`, `idiv %rbx`. -/
def countdownImage : Image where
  text := #[⟨1, .unary .dec, [.reg .rcx]⟩, ⟨2, .jump .ne, [.target (bytes "down")]⟩,
    ⟨3, .move .mov, [.immediate 60, .reg .rax]⟩, ⟨4, .syscall, []⟩, ⟨5, .cqo, []⟩,
    ⟨6, .idiv, [.reg .rbx]⟩]
  runs := []
  labels := [(bytes "down", ⟨.text, 0⟩), (bytes "split", ⟨.text, 4⟩)]
  globals := []

def countdownMachine : Machine := (idleMachine.setReg .rcx 3).setReg .rdi 7

/-- The program exits with its eighth instruction, and the division by zero is the second of its
run; one less, and the limit stops both. -/
theorem countdown_limited :
    let down (limit : Int) := run countdownImage (bytes "down") (countdownMachine.withLimit limit)
    let split (limit : Int) := run countdownImage (bytes "split") (countdownMachine.withLimit limit)
    ((down 8).2 = none ∧ (down 8).1.exitCode = 7 ∧ (down 8).1.reg .rcx = 0) ∧
      ((down 7).2 = some .stepLimit ∧ (down 7).1.steps = 7) ∧
      (split 2).2 = some (.fault 6 ⟨.idiv, [.reg .rbx]⟩ .divide) ∧
      (split 1).2 = some .stepLimit ∧ (split 1).1.steps = 1 := by
  intro down split
  have under (entry : Bytes) (a limit : Int) (label : countdownImage.lookup? entry = some ⟨.text, a⟩)
      (positive : 0 < limit) := (limited_run_refines countdownImage entry a countdownMachine limit
    label rfl (Int.le_refl 0) positive).1
  have first (limit : Int) := under (bytes "down") 0 limit (by decide)
  have second (limit : Int) := under (bytes "split") 4 limit (by decide)
  have exits : Finishes countdownImage (countdownMachine.goto 0)
      (runFor countdownImage 8 (countdownMachine.goto 0)).1 none :=
    .of_runFor (k := 8) rfl (.inl rfl)
  have fails : Finishes countdownImage (countdownMachine.goto 4)
      (runFor countdownImage 2 (countdownMachine.goto 4)).1
      (some (.fault 6 ⟨.idiv, [.reg .rbx]⟩ .divide)) :=
    .of_runFor (k := 2) rfl (.inr nofun)
  have eight : down 8 = _ := ((first 8 (by decide)).halts _ exits).mpr (by decide)
  have two : split 2 = _ := ((second 2 (by decide)).fails _ _ _ _ fails).mpr (by decide)
  obtain ⟨v, -, seven, stopped⟩ := (first 7 (by decide)).stopped fun u s h inTime => by
    obtain ⟨rfl, rfl⟩ := exits.unique h
    exact absurd inTime.steps_le (by decide)
  obtain ⟨w, -, one, stuck⟩ := (second 1 (by decide)).stopped fun u s h inTime => by
    obtain ⟨rfl, rfl⟩ := fails.unique h
    exact absurd inTime.steps_le (by decide)
  refine ⟨?_, ?_, ?_, ?_⟩
  · rw [eight]
    exact ⟨rfl, rfl, rfl⟩
  · rw [show down 7 = _ from stopped]
    exact ⟨rfl, Int.ofNat_inj.mp seven⟩
  · rw [two]
  · rw [show split 1 = _ from stuck]
    exact ⟨rfl, Int.ofNat_inj.mp one⟩

end Machine

end PrintLang
