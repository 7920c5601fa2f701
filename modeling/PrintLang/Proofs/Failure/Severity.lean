import Mathlib.Data.List.Basic
import PrintLang.Failure

set_option autoImplicit false

namespace PrintLang

namespace Failure

/-- The status of a failure with this cause alone. -/
def severity : Failure → Int
  | .lowering _ => 3
  | .parse _ => 2
  | _ => 1

/-- A diagnostic, or a plain cause that does not pass for a diagnostic by its class. -/
def IsCause : Failure → Prop
  | .lexical _ | .parse _ | .lowering _ => True
  | .plain cls _ => ∀ c ∈ [.unexpectedToken, .invalidLiteral, .unimplemented, .unreachable],
      cls ≠ some c
  | .status _ | .context _ _ | .join _ _ => False

instance (f : Failure) : Decidable f.IsCause := by
  unfold IsCause
  split <;> infer_instance

/-- A failure that is made of causes, in their order. Any number may be joined, where what has not
failed does not count; contexts are put around them if `contexts` holds. -/
inductive Composed (contexts : Bool) : List Failure → Option Failure → Prop where
  | cause {c : Failure} (h : c.IsCause) : Composed contexts [c] (some c)
  | context {cs : List Failure} {f : Failure} (text : Bytes) (h : Composed contexts cs (some f))
      (allowed : contexts = true) : Composed contexts cs (some (.context text f))
  | join (parts : List (List Failure × Option Failure))
      (each : ∀ p ∈ parts, Composed contexts p.1 p.2) :
      Composed contexts (parts.flatMap (·.1)) (joinAll? (parts.filterMap (·.2)))

def gravest (codes : List Int) : Int := codes.foldr max 0

theorem gravest_append (xs ys : List Int) : gravest (xs ++ ys) = max (gravest xs) (gravest ys) := by
  have nonneg (ys : List Int) : 0 ≤ gravest ys := by
    induction ys with
    | nil => exact Int.le_refl 0
    | cons y ys ih => exact Int.le_trans ih (Int.le_max_right y _)
  induction xs with
  | nil => exact (Int.max_eq_right (nonneg ys)).symm
  | cons x xs ih =>
    change max x (gravest (xs ++ ys)) = max (max x (gravest xs)) (gravest ys)
    rw [ih, Int.max_assoc]

theorem gravest_perm {xs ys : List Int} (h : xs.Perm ys) : gravest xs = gravest ys := by
  induction h with
  | nil => rfl
  | cons x _ ih => exact congrArg (max x) ih
  | swap x y xs =>
    change max y (max x (gravest xs)) = max x (max y (gravest xs))
    rw [← Int.max_assoc, Int.max_comm y, Int.max_assoc]
  | trans _ _ ih ih' => exact ih.trans ih'

/-- The status of a failure by what is in it: something that is not lowered, something that the grammar
refuses. -/
def grade (unlowered refused : Bool) : Int := if unlowered then 3 else if refused then 2 else 1

theorem grade_or : ∀ a b c d : Bool, grade (a || c) (b || d) = max (grade a b) (grade c d) := by
  decide

theorem grade_nonneg : ∀ a b : Bool, 0 ≤ grade a b := by
  decide

section Status
variable {f g : Failure}

theorem exitCode_eq_grade (h : f.status? = none) : f.exitCode =
    grade (f.has .unimplemented || f.has .unreachable)
      (f.has .unexpectedToken || f.has .invalidLiteral) := by
  rw [exitCode, h]
  rfl

theorem exitCode_join (hf : f.status? = none) (hg : g.status? = none) :
    (join f g).exitCode = max f.exitCode g.exitCode := by
  have both : (join f g).status? = none := by rw [status?, hf, hg, Option.none_or]
  rw [exitCode_eq_grade hf, exitCode_eq_grade hg, ← grade_or, exitCode_eq_grade both]
  congr 1 <;> simp only [has, Bool.or_assoc, Bool.or_left_comm]

theorem status?_joinAll? {fs : List Failure} (h : ∀ f ∈ fs, f.status? = none) :
    ∀ f ∈ joinAll? fs, f.status? = none := by
  induction fs with
  | nil => nofun
  | cons f fs ih =>
    obtain ⟨first, rest⟩ := List.forall_mem_cons.mp h
    rw [joinAll?]
    split
    · next g joined =>
      rintro _ ⟨⟩
      rw [status?, first, ih rest g joined, Option.none_or]
    · rintro _ ⟨⟩
      exact first

/-- Failures without a status of their own are as grave as the gravest of them. -/
theorem exitCode_joinAll? {fs : List Failure} (h : ∀ f ∈ fs, f.status? = none) :
    PrintLang.exitCode (joinAll? fs) = gravest (fs.map exitCode) := by
  induction fs with
  | nil => rfl
  | cons f fs ih =>
    obtain ⟨first, rest⟩ := List.forall_mem_cons.mp h
    have others := ih rest
    rw [List.map_cons, gravest, List.foldr_cons, ← gravest, ← others, joinAll?]
    cases joined : joinAll? fs with
    | some g => exact exitCode_join first (status?_joinAll? rest g joined)
    | none =>
      have nonneg : 0 ≤ f.exitCode := exitCode_eq_grade first ▸ grade_nonneg _ _
      exact (Int.max_eq_left nonneg).symm

end Status

theorem joinAll?_eq_none {fs : List Failure} (h : joinAll? fs = none) : fs = [] := by
  cases fs with
  | nil => rfl
  | cons f fs =>
    rw [joinAll?] at h
    split at h <;> cases h

theorem leaves_joinAll? {fs : List Failure} {f : Failure} (h : joinAll? fs = some f) :
    f.leaves = fs.flatMap leaves := by
  induction fs generalizing f with
  | nil => cases h
  | cons g gs ih =>
    rw [joinAll?] at h
    rw [List.flatMap_cons]
    cases joined : joinAll? gs with
    | some more =>
      rw [joined] at h
      cases h
      rw [leaves, ih joined]
    | none =>
      rw [joined] at h
      cases h
      rw [joinAll?_eq_none joined, List.flatMap_nil, List.append_nil]

theorem flatMap_filterMap {α β γ : Type} (f : α → Option β) (g : β → List γ) (xs : List α) :
    (xs.filterMap f).flatMap g = xs.flatMap fun x => (f x).elim [] g := by
  induction xs with
  | nil => rfl
  | cons x xs ih =>
    rw [List.flatMap_cons, ← ih]
    cases found : f x with
    | none => rw [List.filterMap_cons_none found]; rfl
    | some y => rw [List.filterMap_cons_some found]; rfl

section Cause
variable {c : Failure}

theorem IsCause.status? (h : c.IsCause) : c.status? = none := by
  cases c with
  | status | context | join => exact h.elim
  | lexical | parse | lowering | plain => rfl

theorem IsCause.exitCode (h : c.IsCause) : c.exitCode = c.severity := by
  cases c with
  | status | context | join => exact h.elim
  | lexical => rfl
  | parse e => cases kind : e.kind <;> simp [Failure.exitCode, Failure.status?, has, severity, kind]
  | lowering e =>
    cases kind : e.kind <;> simp [Failure.exitCode, Failure.status?, has, severity, kind]
  | plain cls text =>
    simp only [IsCause, List.forall_mem_cons] at h
    simp [Failure.exitCode, Failure.status?, has, severity, h]

theorem IsCause.leaves (h : c.IsCause) : c.leaves = [c] := by
  cases c with
  | status | context | join => exact h.elim
  | lexical | parse | lowering | plain => rfl

end Cause

namespace Composed
variable {contexts : Bool} {cs : List Failure} {e : Option Failure}

theorem status? (h : Composed contexts cs e) : ∀ f, e = some f → f.status? = none := by
  induction h with
  | cause h =>
    rintro _ ⟨⟩
    exact h.status?
  | @context _ f _ _ _ ih =>
    rintro _ ⟨⟩
    exact ih f rfl
  | join parts _ ih =>
    refine status?_joinAll? fun f hf => ?_
    obtain ⟨p, hp, same⟩ := List.mem_filterMap.mp hf
    exact ih p hp f same

/-- The induction is on how the failure is put together. -/
theorem exitCode_eq (h : Composed contexts cs e) :
    PrintLang.exitCode e = gravest (cs.map severity) := by
  induction h with
  | @cause c h =>
    have nonneg : 0 ≤ c.exitCode := exitCode_eq_grade h.status? ▸ grade_nonneg _ _
    change c.exitCode = max c.severity 0
    rw [← h.exitCode, Int.max_eq_left nonneg]
  | context _ _ _ ih => exact ih
  | join parts each ih =>
    have parted : ∀ f ∈ parts.filterMap (·.2), f.status? = none := by
      intro f hf
      obtain ⟨p, hp, same⟩ := List.mem_filterMap.mp hf
      exact (each p hp).status? f same
    rw [exitCode_joinAll? parted]
    clear each parted
    induction parts with
    | nil => rfl
    | cons p parts rest =>
      obtain ⟨first, later⟩ := List.forall_mem_cons.mp ih
      rw [List.flatMap_cons, List.map_append, gravest_append, ← first, ← rest later]
      cases part : p.2 with
      | none =>
        rw [List.filterMap_cons_none part]
        exact gravest_append [] _
      | some f =>
        rw [List.filterMap_cons_some part]
        rfl

theorem isCause (h : Composed contexts cs e) : ∀ c ∈ cs, c.IsCause := by
  induction h with
  | cause h => exact List.forall_mem_singleton.mpr h
  | context _ _ _ ih => exact ih
  | join parts _ ih =>
    intro c mem
    obtain ⟨p, hp, inside⟩ := List.mem_flatMap.mp mem
    exact ih p hp c inside

theorem leaves_eq (h : Composed contexts cs e) (joined : contexts = false) :
    e.elim [] leaves = cs := by
  induction h with
  | cause h => exact h.leaves
  | context _ _ allowed =>
    rw [joined] at allowed
    cases allowed
  | join parts each ih =>
    have split : (joinAll? (parts.filterMap (·.2))).elim [] leaves =
        (parts.filterMap (·.2)).flatMap leaves := by
      cases all : joinAll? (parts.filterMap (·.2)) with
      | some f => exact leaves_joinAll? all
      | none => rw [joinAll?_eq_none all]; rfl
    rw [split, flatMap_filterMap]
    exact List.flatMap_congr ih

end Composed

end Failure

open Failure

/-- The gravest cause decides about the exit status of a failure, however its causes are put together, so
that their order does not count; and what is only joined is taken apart into its causes, each once and in
order, and reported as they are reported one after another. -/
theorem failures_compose :
    (∀ contexts cs e, Composed contexts cs e → exitCode e = gravest (cs.map severity)) ∧
    (∀ contexts cs ds e e', Composed contexts cs e → Composed contexts ds e' → cs.Perm ds →
      exitCode e = exitCode e') ∧
    ∀ cs f, Composed false cs (some f) → f.leaves = cs ∧
      ∀ colored, f.report colored = cs.flatMap (report · colored) := by
  refine ⟨fun contexts cs e h => h.exitCode_eq, fun contexts cs ds e e' h h' same => ?_,
    fun cs f h => ?_⟩
  · rw [h.exitCode_eq, h'.exitCode_eq]
    exact gravest_perm (same.map severity)
  · have leaves : f.leaves = cs := h.leaves_eq rfl
    refine ⟨leaves, fun colored => ?_⟩
    rw [report, leaves]
    refine List.flatMap_congr fun c mem => ?_
    rw [report, (h.isCause c mem).leaves, List.flatMap_singleton]

/-- Invalid tokens, a part that has not failed, and a node without a lowering behind a missing file, in a
context and without one. -/
theorem nested_failures_compose :
    let lexical : Failure := .lexical ⟨bytes "a.kt", []⟩
    let missing : Failure := .plain (some .notFound) (bytes "open b.kt: no such file or directory")
    let lowering : Failure := .lowering ⟨.unimplemented, 0, bytes "CharLit"⟩
    let parts := [some lexical, none, some (.context (bytes "c.kt") (.join missing lowering))]
    let bare := [some lexical, none, some (.join missing lowering)]
    Composed true [lexical, missing, lowering] (joinAll? (parts.filterMap id)) ∧
    exitCode (joinAll? (parts.filterMap id)) = 3 ∧
    Composed false [lexical, missing, lowering] (joinAll? (bare.filterMap id)) ∧
    (joinAll? (bare.filterMap id)).map leaves = some [lexical, missing, lowering] := by
  intro lexical missing lowering parts bare
  have cause (contexts : Bool) {c : Failure} (h : c ∈ [lexical, missing, lowering]) :
      Composed contexts [c] (some c) := by
    have all : ∀ c ∈ [lexical, missing, lowering], c.IsCause := by decide
    exact .cause (all c h)
  have none (contexts : Bool) : Composed contexts [] none := .join [] nofun
  have pair (contexts : Bool) : Composed contexts [missing, lowering] (some (.join missing lowering)) :=
    .join [([missing], some missing), ([lowering], some lowering)] <| by
      simp only [List.forall_mem_cons]
      exact ⟨cause contexts (by simp), cause contexts (by simp), nofun⟩
  have wrapped : Composed true [lexical, missing, lowering] (joinAll? (parts.filterMap id)) :=
    .join [([lexical], parts[0]), ([], parts[1]), ([missing, lowering], parts[2])] <| by
      simp only [List.forall_mem_cons]
      exact ⟨cause true (by simp), none true, (pair true).context _ rfl, nofun⟩
  have joined : Composed false [lexical, missing, lowering] (joinAll? (bare.filterMap id)) :=
    .join [([lexical], bare[0]), ([], bare[1]), ([missing, lowering], bare[2])] <| by
      simp only [List.forall_mem_cons]
      exact ⟨cause false (by simp), none false, pair false, nofun⟩
  refine ⟨wrapped, failures_compose.1 true _ _ wrapped, joined, ?_⟩
  exact congrArg some (failures_compose.2.2 _ _ joined).1

end PrintLang
