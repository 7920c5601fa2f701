import Mathlib.Data.List.Induction
import PrintLang.Proofs.FileTree.Clean

set_option autoImplicit false

namespace PrintLang

section Lists
variable {α : Type} {r : α → α → Bool}

end Lists

namespace FileTree

/-- A tree without links in which everything has a name and stands in a directory. -/
structure Genuine (t : FileTree) : Prop where
  plain : t.Plain
  name : ∀ q c, t.entry? (q ++ [c]) ≠ none → Path.IsName c ∧ c.length ≤ maxName ∧ 0 ∉ c
  above : ∀ q c, t.entry? (q ++ [c]) ≠ none → t.entry? q = some .directory

section Places
variable {t : FileTree} {p q : Place} {cs : List Bytes} {follow : Bool} {n : Nat} {here : Place}

theorem there_iff : t.entry? q ≠ none ↔ ∃ p ∈ t.places, q <+: p := by
  have cover : (∃ p ∈ t.places, q <+: p) ↔ t.covers q := by
    simp [places, covers]
  rw [cover]
  cases found : t.entries.lookup q with
  | some e =>
    obtain ⟨before, after, split, -⟩ := List.lookup_eq_some_iff.mp found
    refine iff_of_true (by simp [ entry?, found]) (.inr ⟨(q, e), ?_, List.prefix_rfl⟩)
    simp [split]
  | none =>
    rcases entry?_of_lookup_none t found with ⟨there, yes⟩ | ⟨gone, no⟩
    · exact iff_of_true (by simp [there]) yes
    · exact iff_of_false (by simp [gone]) no

theorem there_of_below (h : t.entry? (q ++ cs) ≠ none) : t.entry? q ≠ none := by
  obtain ⟨p, mem, below⟩ := there_iff.mp h
  exact there_iff.mpr ⟨p, mem, (List.prefix_append q cs).trans below⟩

theorem Genuine.directory (g : t.Genuine) (h : t.entry? (q ++ cs) ≠ none) (ne : cs ≠ []) :
    t.entry? q = some .directory := by
  induction cs using List.reverseRecOn with
  | nil => exact absurd rfl ne
  | append_singleton cs c ih =>
    rw [← List.append_assoc] at h
    have last := g.above _ _ h
    cases cs with
    | nil => simpa using last
    | cons d cs => exact ih (by rw [last]; exact Option.some_ne_none _) (List.cons_ne_nil d cs)

theorem Genuine.names (g : t.Genuine) (h : t.entry? (q ++ cs) ≠ none) :
    ∀ c ∈ cs, Path.IsName c ∧ c.length ≤ maxName ∧ 0 ∉ c := by
  induction cs generalizing q with
  | nil => exact fun c hc => absurd hc List.not_mem_nil
  | cons c cs ih =>
    have h : t.entry? (q ++ [c] ++ cs) ≠ none := by rwa [List.append_assoc]
    exact List.forall_mem_cons.mpr ⟨g.name q c (there_of_below h), ih h⟩

end Places

section Below
variable {t : FileTree} {dir : Bytes} {rel : List Bytes} {follow : Bool} {n : Nat}

end Below

section Names
variable {t : FileTree} {p : Place} {c : Bytes}

end Names

end FileTree

end PrintLang
