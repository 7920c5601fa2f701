import PrintLang.FileTree

set_option autoImplicit false

namespace PrintLang

namespace FileTree

section Put
variable (t : FileTree) {p q : Place} (e : Entry)

theorem lookup_filter_ne (h : q ≠ p) (entries : List (Place × Entry)) :
    (entries.filter fun x => x.1 != p).lookup q = entries.lookup q := by
  induction entries with
  | nil => rfl
  | cons x rest ih =>
    obtain ⟨r, d⟩ := x
    by_cases hr : r = p
    · subst hr
      rw [List.filter_cons_of_neg (by simp), ih, List.lookup_cons, beq_false_of_ne h]
    · rw [List.filter_cons_of_pos (by simpa using hr), List.lookup_cons, List.lookup_cons, ih]

theorem entry?_put_same (p : Place) : FileTree.entry? (t.put p e) p = some e := by
  have gone : (t.entries.filter fun x => x.1 != p).lookup p = none := by
    rw [List.lookup_eq_none_iff]
    intro x hx
    simpa [bne_comm] using (List.mem_filter.mp hx).2
  simp [ entry?, put, List.lookup_append, gone]

def covers (t : FileTree) (q : Place) : Prop := q <+: t.workDir ∨ ∃ x ∈ t.entries, q <+: x.1

theorem entry?_of_lookup_none (h : t.entries.lookup q = none) :
    t.entry? q = some .directory ∧ t.covers q ∨ t.entry? q = none ∧ ¬ t.covers q := by
  have iff : (q.isPrefixOf t.workDir || t.entries.any fun x => q.isPrefixOf x.1) = true ↔
      t.covers q := by
    simp [covers]
  by_cases hq : t.covers q
  · exact .inl ⟨by simp only [ entry?, h, iff.mpr hq, if_true], hq⟩
  · refine .inr ⟨?_, hq⟩
    simp only [ entry?, h]
    exact if_neg (mt iff.mp hq)

theorem covers_put (h : q <+: p → t.covers q) : (t.put p e).covers q ↔ t.covers q := by
  constructor
  · rintro (inside | ⟨x, hx, below⟩)
    · exact .inl inside
    · rcases List.mem_append.mp hx with old | new
      · exact .inr ⟨x, (List.mem_filter.mp old).1, below⟩
      · obtain rfl := List.mem_singleton.mp new
        exact h below
  · rintro (inside | ⟨x, hx, below⟩)
    · exact .inl inside
    · by_cases hp : x.1 = p
      · exact .inr ⟨(p, e), List.mem_append_right _ (List.mem_singleton_self _), hp ▸ below⟩
      · refine .inr ⟨x, List.mem_append_left _ (List.mem_filter.mpr ⟨hx, ?_⟩), below⟩
        simpa using hp

/-- A new entry changes nothing else, if all places above it were there. -/
theorem entry?_put_of_ne (h : q ≠ p) (above : q <+: p → t.entry? q ≠ none) :
    FileTree.entry? (t.put p e) q = t.entry? q := by
  have other : ([(p, e)] : List (Place × Entry)).lookup q = none := by
    rw [List.lookup_cons, beq_false_of_ne h]
    rfl
  have same : (t.put p e).entries.lookup q = t.entries.lookup q := by
    rw [put, List.lookup_append, lookup_filter_ne h, other, Option.or_none]
  cases found : t.entries.lookup q with
  | some d => simp only [ entry?, same, found]
  | none =>
    rw [found] at same
    rcases entry?_of_lookup_none t found with ⟨old, there⟩ | ⟨old, gone⟩
    · rcases entry?_of_lookup_none _ same with ⟨new, -⟩ | ⟨-, no⟩
      · rw [old, new]
      · exact absurd ((covers_put t e fun _ => there).mpr there) no
    · have apart : ¬ q <+: p := fun below => above below old
      rcases entry?_of_lookup_none _ same with ⟨-, yes⟩ | ⟨new, -⟩
      · exact absurd ((covers_put t e fun below => absurd below apart).mp yes) gone
      · rw [old, new]

end Put

structure IsName (c : Bytes) : Prop where
  notHere : isHere c = false
  notUp : c ≠ Path.dotDot
  short : c.length ≤ maxName

/-- A walk that arrives, by its components. -/
inductive Walks (t : FileTree) (follow : Bool) : Nat → Place → List Bytes → Spot → Prop where
  | arrive {n : Nat} {here : Place} : Walks t follow n here [] ⟨here, false⟩
  | skip {n : Nat} {here : Place} {c : Bytes} {rest : List Bytes} {s : Spot}
      (h : isHere c = true) (tail : Walks t follow n here rest s) : Walks t follow n here (c :: rest) s
  | up {n : Nat} {here : Place} {rest : List Bytes} {s : Spot}
      (tail : Walks t follow n here.dropLast rest s) :
      Walks t follow n here (Path.dotDot :: rest) s
  | enter {n : Nat} {here : Place} {c : Bytes} {rest : List Bytes} {s : Spot} (name : IsName c)
      (entry : t.entry? (here ++ [c]) = some .directory)
      (tail : Walks t follow n (here ++ [c]) rest s) : Walks t follow n here (c :: rest) s
  | missing {n : Nat} {here : Place} {c : Bytes} {rest : List Bytes} (name : IsName c)
      (entry : t.entry? (here ++ [c]) = none) (last : ∀ d ∈ rest, d = []) :
      Walks t follow n here (c :: rest) ⟨here ++ [c], rest != []⟩
  | file {n : Nat} {here : Place} {c content : Bytes} {x : Bool} (name : IsName c)
      (entry : t.entry? (here ++ [c]) = some (.file content x)) :
      Walks t follow n here [c] ⟨here ++ [c], false⟩
  | stay {n : Nat} {here : Place} {c target : Bytes} (name : IsName c)
      (entry : t.entry? (here ++ [c]) = some (.link target)) (h : follow = false) :
      Walks t follow n here [c] ⟨here ++ [c], false⟩
  | jump {n : Nat} {here : Place} {c target : Bytes} {rest : List Bytes} {s : Spot}
      (name : IsName c) (entry : t.entry? (here ++ [c]) = some (.link target))
      (h : rest ≠ [] ∨ follow = true)
      (tail : Walks t follow n (startOf target here) (Bytes.splitOn Path.slash target ++ rest) s) :
      Walks t follow (n + 1) here (c :: rest) s

section Walks
variable {t u : FileTree} {follow : Bool} {n : Nat} {here : Place} {cs : List Bytes} {s : Spot}

def behindLink (t : FileTree) (follow : Bool) : Nat → Place → List Bytes → Except Errno Spot
  | 0, _, _ => .error .tooManyLinks
  | n + 1, here, cs => t.walk follow n here cs

theorem walk_eq (t : FileTree) (follow : Bool) (n : Nat) :
    t.walk follow n = t.walkOver follow (t.behindLink follow n) := by
  cases n <;> rfl

theorem walks_of_walkOver (behind : ∀ here cs s, t.behindLink follow n here cs = .ok s →
      ∃ k, n = k + 1 ∧ Walks t follow k here cs s)
    (h : t.walkOver follow (t.behindLink follow n) here cs = .ok s) : Walks t follow n here cs s := by
  induction cs generalizing here with
  | nil =>
    cases h
    exact .arrive
  | cons c rest ih =>
    rw [walkOver] at h
    split at h
    · next skip => exact .skip skip (ih h)
    · next notHere =>
      split at h
      · next up => exact up ▸ .up (ih h)
      · next notUp =>
        split at h
        · cases h
        · next short =>
          have name : IsName c := ⟨by simpa using notHere, notUp, by omega⟩
          simp only at h
          split at h
          · next entry =>
            split at h
            · next last =>
              cases h
              exact .missing name entry (by simpa using last)
            · cases h
          · next entry => exact .enter name entry (ih h)
          · next entry =>
            split at h
            · next last =>
              cases h
              subst last
              exact .file name entry
            · cases h
          · next entry =>
            split at h
            · next stays =>
              obtain ⟨rfl, stays⟩ := stays
              cases h
              exact .stay name entry (by simpa using stays)
            · next jumps =>
              obtain ⟨k, rfl, tail⟩ := behind _ _ _ h
              refine .jump name entry ?_ tail
              by_cases last : rest = []
              · exact .inr (by simpa [last] using jumps)
              · exact .inl last

theorem walk_eq_ok : t.walk follow n here cs = .ok s ↔ Walks t follow n here cs s := by
  constructor
  · intro h
    induction n generalizing here cs s with
    | zero => exact walks_of_walkOver (fun _ _ _ h => by cases h) (walk_eq t follow 0 ▸ h)
    | succ n ih =>
      exact walks_of_walkOver (fun _ _ _ h => ⟨n, rfl, ih h⟩) (walk_eq t follow (n + 1) ▸ h)
  · intro h
    have named {c : Bytes} (name : IsName c) : ¬ maxName < c.length := Nat.not_lt.mpr name.short
    induction h with
    | arrive => rw [walk_eq, walkOver]
    | skip h _ ih =>
      rw [walk_eq] at ih ⊢
      simp only [walkOver, h, if_true, ih]
    | up _ ih =>
      have notHere : isHere Path.dotDot = false := by decide
      rw [walk_eq] at ih ⊢
      simp only [walkOver, notHere, Bool.false_eq_true, if_false, if_true, ih]
    | enter name entry _ ih =>
      rw [walk_eq] at ih ⊢
      simp only [walkOver, name.notHere, name.notUp, named name, Bool.false_eq_true, if_false, entry,
        ih]
    | missing name entry last =>
      rw [walk_eq]
      simp only [walkOver, name.notHere, name.notUp, named name, Bool.false_eq_true, if_false, entry]
      rw [if_pos (by simpa using last)]
    | file name entry =>
      rw [walk_eq]
      simp only [walkOver, name.notHere, name.notUp, named name, Bool.false_eq_true, if_false, entry,
        if_true]
    | stay name entry h =>
      rw [walk_eq]
      simp [walkOver, name.notHere, name.notUp, named name, entry, h]
    | jump name entry h _ ih =>
      rw [walk_eq]
      simp only [walkOver, name.notHere, name.notUp, named name, Bool.false_eq_true, if_false, entry]
      rw [if_neg (by rcases h with h | h <;> simp [h])]
      exact ih

def Above (t : FileTree) (p : Place) : Prop := ∀ q, q <+: p → q ≠ p → t.entry? q ≠ none

/-- A place is there, and all places above it. -/
def Rooted (t : FileTree) (p : Place) : Prop := ∀ q, q <+: p → t.entry? q ≠ none

theorem Rooted.above {p : Place} (h : t.Rooted p) : t.Above p := fun q below _ => h q below

theorem rooted_workDir (t : FileTree) : t.Rooted t.workDir := by
  intro q below
  cases found : t.entries.lookup q with
  | some d => simp [ entry?, found]
  | none =>
    rcases entry?_of_lookup_none t found with ⟨h, -⟩ | ⟨-, no⟩
    · simp [h]
    · exact absurd (.inl below) no

theorem rooted_startOf (path : Bytes) (h : t.Rooted here) : t.Rooted (startOf path here) := by
  unfold startOf
  split
  · intro q below
    rw [List.prefix_nil.mp below]
    exact h [] (List.nil_prefix)
  · exact h

theorem Above.rooted {p : Place} (h : t.Above p) (there : t.entry? p ≠ none) : t.Rooted p := by
  intro q below
  by_cases same : q = p
  · exact same ▸ there
  · exact h q below same

theorem Rooted.child (h : t.Rooted here) (c : Bytes) : t.Above (here ++ [c]) := by
  intro q below ne
  rcases List.prefix_concat_iff.mp below with same | above
  · exact absurd same ne
  · exact h q above

theorem Walks.above (h : Walks t follow n here cs s) (rooted : t.Rooted here) : t.Above s.place := by
  induction h with
  | arrive => exact rooted.above
  | skip _ _ ih => exact ih rooted
  | up _ ih => exact ih fun q below => rooted q (below.trans (List.dropLast_prefix _))
  | enter name entry _ ih => exact ih ((rooted.child _).rooted (by simp [entry]))
  | missing _ _ _ | file _ _ | stay _ _ _ => exact rooted.child _
  | jump _ _ _ _ ih => exact ih (rooted_startOf _ rooted)

/-- Only the name of nothing is marked as one of a directory that is missing. -/
theorem Walks.slashed (h : Walks t follow n here cs s) (slashed : s.slashed = true) :
    t.entry? s.place = none := by
  induction h with
  | arrive | file _ _ | stay _ _ _ => cases slashed
  | skip _ _ ih | up _ ih | enter _ _ _ ih | jump _ _ _ _ ih => exact ih slashed
  | missing _ entry _ => exact entry

theorem Walks.through (h : Walks t false n here cs s)
    (noLink : ∀ target, t.entry? s.place ≠ some (.link target)) : Walks t true n here cs s := by
  induction h with
  | arrive => exact .arrive
  | skip h _ ih => exact .skip h (ih noLink)
  | up _ ih => exact .up (ih noLink)
  | enter name entry _ ih => exact .enter name entry (ih noLink)
  | missing name entry last => exact .missing name entry last
  | file name entry => exact .file name entry
  | stay name entry _ => exact absurd entry (noLink _)
  | jump name entry _ _ ih => exact .jump name entry (.inr rfl) (ih noLink)

def isLeaf : Option Entry → Bool
  | none => true
  | some (.file _ _) => true
  | _ => false

theorem Walks.leaf {c : Bytes} (name : IsName c) (h : isLeaf (t.entry? (here ++ [c])) = true) :
    Walks t follow n here [c] ⟨here ++ [c], false⟩ := by
  cases entry : t.entry? (here ++ [c]) with
  | none => exact .missing name entry (by simp)
  | some e =>
    cases e with
    | file => exact .file name entry
    | directory | link =>
      rw [entry] at h
      cases h

/-- Every directory and every link is kept. -/
structure Keeps (t u : FileTree) : Prop where
  workDir : u.workDir = t.workDir
  entry : ∀ q, isLeaf (t.entry? q) = false → u.entry? q = t.entry? q

theorem Walks.keeps {p : Place} (h : Walks t follow n here cs ⟨p, false⟩) (keeps : t.Keeps u)
    (last : isLeaf (t.entry? p) = true → isLeaf (u.entry? p) = true) :
    Walks u follow n here cs ⟨p, false⟩ := by
  generalize hs : (⟨p, false⟩ : Spot) = s at h
  induction h with
  | arrive => exact .arrive
  | skip h _ ih => exact .skip h (ih hs)
  | up _ ih => exact .up (ih hs)
  | enter name entry _ ih =>
    exact .enter name (entry ▸ keeps.entry _ (by rw [entry]; rfl)) (ih hs)
  | missing name entry empty =>
    obtain ⟨rfl, hr⟩ := Spot.mk.inj hs
    obtain rfl : _ = [] := by simpa using hr.symm
    exact .leaf name (last (by rw [entry]; rfl))
  | file name entry =>
    obtain ⟨rfl, -⟩ := Spot.mk.inj hs
    exact .leaf name (last (by rw [entry]; rfl))
  | stay name entry h =>
    obtain ⟨rfl, -⟩ := Spot.mk.inj hs
    exact .stay name (entry ▸ keeps.entry _ (by rw [entry]; rfl)) h
  | jump name entry h _ ih =>
    exact .jump name (entry ▸ keeps.entry _ (by rw [entry]; rfl)) h (ih hs)

end Walks

end FileTree

end PrintLang
