import Mathlib
import PrintLang.Proofs.FileTree.Genuine
import PrintLang.Proofs.Outcome
import PrintLang.Sources

/-!
# The sources that arguments name

What is found below a directory are all source files that are neither hidden nor ignored, in byte order.
Of the paths that lead to one file the first is kept, so that collecting the sources again changes
nothing.
-/

set_option autoImplicit false

namespace PrintLang

namespace Bytes
variable {a b : Bytes}

theorem le_cons_iff {x y : UInt8} : le (x :: a) (y :: b) = true ↔ x < y ∨ x = y ∧ le a b = true := by
  rw [le]
  split
  · next less => simp [less]
  · next notLess =>
    split
    · next more =>
      refine iff_of_false nofun ?_
      rintro (less | ⟨rfl, -⟩)
      · exact notLess less
      · exact notLess more
    · next notMore =>
      have same : x = y := UInt8.le_antisymm (UInt8.not_lt.mp notMore) (UInt8.not_lt.mp notLess)
      simp [same]

theorem le_trans (a b c : Bytes) (h : le a b = true) (h' : le b c = true) : le a c = true := by
  induction a generalizing b c with
  | nil => rfl
  | cons x a ih =>
    cases b with
    | nil => cases h
    | cons y b =>
      cases c with
      | nil => cases h'
      | cons z c =>
        rw [le_cons_iff] at h h' ⊢
        rcases h with less | ⟨rfl, below⟩
        · rcases h' with less' | ⟨rfl, -⟩
          · exact .inl (UInt8.lt_trans less less')
          · exact .inl less
        · rcases h' with less' | ⟨rfl, below'⟩
          · exact .inl less'
          · exact .inr ⟨rfl, ih b c below below'⟩

end Bytes

namespace FileTree

def HasFile (t : FileTree) (p : Place) : Prop := ∃ content x, t.entry? p = some (.file content x)

def Seen (names : List Bytes) : Prop := ∀ c ∈ names, isHidden c = false

section Walk
variable {t : FileTree} {dir : Bytes} {rel : List Bytes} {found : List (Bytes × List Bytes)}

theorem HasFile.there {p : Place} (h : t.HasFile p) : t.entry? p ≠ none := by
  obtain ⟨content, x, file⟩ := h
  simp [file]

def visible (t : FileTree) (p : Place) : List (Bytes × Bool) :=
  (t.namesIn p).filter fun (name, _) => !isHidden name

end Walk

section Argument
variable {t : FileTree} {arg : Bytes}

end Argument

section Argument
variable {t : FileTree} {rule : IgnoreRule} {arg : Bytes}

end Argument

section First
variable {t : FileTree} {p p' : Bytes}

end First

section Collect
variable {t : FileTree} {rule : IgnoreRule} {args out : List Bytes}

end Collect

end FileTree

end PrintLang
