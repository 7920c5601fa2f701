import PrintLang.Proofs.FileTree.Spelling

set_option autoImplicit false

namespace PrintLang

namespace Path

section Settled
variable {absolute : Bool} {done : List Bytes}

/-- The components of a normal form, the last one first: each is added to those before it. -/
inductive Settled (absolute : Bool) : List Bytes → Prop where
  | nil : Settled absolute []
  | cons {c : Bytes} {done : List Bytes} (rest : Settled absolute done)
      (adds : normalize absolute done c = c :: done) : Settled absolute (c :: done)

theorem normalize_here {c : Bytes} (h : FileTree.isHere c = true) :
    normalize absolute done c = done :=
  if_pos (by simpa [FileTree.isHere] using h)

theorem normalize_up {d : Bytes} (h : d ≠ dotDot) : normalize absolute (d :: done) dotDot = done :=
  (if_neg (by decide)).trans ((if_pos rfl).trans (if_neg h))

/-- A normal form leads up, if at all, before it leads down. -/
theorem Settled.split (h : Settled absolute done) : ∃ names k,
    done = names ++ List.replicate k dotDot ∧ ∀ c ∈ names, FileTree.isHere c = false ∧ c ≠ dotDot := by
  induction h with
  | nil => exact ⟨[], 0, rfl, fun c hc => absurd hc List.not_mem_nil⟩
  | @cons c done _ adds ih =>
    obtain ⟨names, k, rfl, clear⟩ := ih
    by_cases up : c = dotDot
    · cases names with
      | nil => exact ⟨[], k + 1, by rw [up]; rfl, clear⟩
      | cons d names =>
        -- behind a name, `..` would take it back
        rw [up, List.cons_append, normalize_up (clear d List.mem_cons_self).2] at adds
        have longer := congrArg List.length adds
        simp only [List.length_cons] at longer
        omega
    · have notHere : FileTree.isHere c = false := by
        by_contra here
        rw [normalize_here (by simpa using here)] at adds
        exact List.cons_ne_self c _ adds.symm
      exact ⟨c :: names, k, rfl, List.forall_mem_cons.mpr ⟨⟨notHere, up⟩, clear⟩⟩

end Settled

section Join
variable {dir c : Bytes} {names : List Bytes}

def below (dir : Bytes) (names : List Bytes) : Bytes :=
  if names = [] then dir else join dir (Bytes.join [slash] names)

end Join

end Path

end PrintLang
