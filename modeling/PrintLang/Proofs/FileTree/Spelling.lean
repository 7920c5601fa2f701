import PrintLang.Proofs.FileTree.Change

set_option autoImplicit false

namespace PrintLang

namespace Path

structure IsName (c : Bytes) : Prop where
  notHere : FileTree.isHere c = false
  notUp : c ≠ dotDot
  noSlash : slash ∉ c

instance (c : Bytes) : Decidable (IsName c) :=
  decidable_of_iff (FileTree.isHere c = false ∧ c ≠ dotDot ∧ slash ∉ c)
    ⟨fun ⟨h, u, s⟩ => ⟨h, u, s⟩, fun ⟨h, u, s⟩ => ⟨h, u, s⟩⟩

def enter (here : Place) (c : Bytes) : Place :=
  if FileTree.isHere c then here else if c = dotDot then here.dropLast else here ++ [c]

theorem enter_here {c : Bytes} (h : FileTree.isHere c = true) (here : Place) :
    enter here c = here := if_pos h

theorem enter_dotDot (here : Place) : enter here dotDot = here.dropLast := rfl

theorem enter_below {c : Bytes} (notHere : FileTree.isHere c = false) (notUp : c ≠ dotDot)
    (here : Place) : enter here c = here ++ [c] := by
  rw [enter, if_neg (by simp [notHere]), if_neg notUp]

theorem IsName.enter_eq {c : Bytes} (h : IsName c) (here : Place) : enter here c = here ++ [c] :=
  enter_below h.notHere h.notUp here

theorem foldl_enter_here {cs : List Bytes} (h : ∀ c ∈ cs, FileTree.isHere c = true) (here : Place) :
    cs.foldl enter here = here := by
  induction cs with
  | nil => rfl
  | cons c cs ih =>
    rw [List.foldl_cons, enter_here (h c List.mem_cons_self)]
    exact ih fun d hd => h d (List.mem_cons_of_mem c hd)

theorem foldl_enter_names {cs : List Bytes} (h : ∀ c ∈ cs, IsName c) (here : Place) :
    cs.foldl enter here = here ++ cs := by
  induction cs generalizing here with
  | nil => simp
  | cons c cs ih =>
    rw [List.foldl_cons, (h c List.mem_cons_self).enter_eq,
      ih fun d hd => h d (List.mem_cons_of_mem c hd), List.append_assoc]
    rfl

section Normalize
variable {absolute : Bool} {done : List Bytes} {c : Bytes}

/-- What stands among the components of a normal form: names, and for a relative path `..` as well. -/
structure Kept (absolute : Bool) (c : Bytes) : Prop where
  notHere : FileTree.isHere c = false
  noSlash : slash ∉ c
  notUp : absolute = true → c ≠ dotDot

theorem normalize_kept (h : ∀ d ∈ done, Kept absolute d) (noSlash : slash ∉ c) :
    ∀ d ∈ normalize absolute done c, Kept absolute d := by
  have up : absolute = false → Kept absolute dotDot := by
    rintro rfl
    exact ⟨by decide, by decide, nofun⟩
  unfold normalize
  split
  · exact h
  · next notHere =>
    split
    · split
      · split
        · exact fun d hd => absurd hd List.not_mem_nil
        · next relative =>
          rw [List.forall_mem_singleton]
          exact up (by simpa using relative)
      · obtain ⟨first, rest⟩ := List.forall_mem_cons.mp h
        split
        · next same =>
          refine List.forall_mem_cons.mpr ⟨up ?_, h⟩
          cases absolute with
          | false => rfl
          | true => exact absurd same (first.notUp rfl)
        · exact rest
    · next notUp =>
      have new : Kept absolute c := ⟨by simpa [FileTree.isHere] using notHere, noSlash, fun _ => notUp⟩
      exact List.forall_mem_cons.mpr ⟨new, h⟩

/-- Normalizing does not change the place, if the path starts at the root or is relative. -/
theorem foldl_enter_normalize (h : ∀ d ∈ done, Kept absolute d) {here : Place}
    (root : absolute = true → here = []) :
    (normalize absolute done c).reverse.foldl enter here = enter (done.reverse.foldl enter here) c := by
  unfold normalize
  by_cases skip : c = [] ∨ c = dot
  · rw [if_pos skip, enter_here (by simpa [FileTree.isHere] using skip)]
  · have notHere : FileTree.isHere c = false := by simpa [FileTree.isHere] using skip
    rw [if_neg skip]
    by_cases up : c = dotDot
    · rw [if_pos up, up, enter_dotDot]
      cases done with
      | nil =>
        cases absolute with
        | true =>
          rw [root rfl]
          rfl
        | false => rfl
      | cons d rest =>
        have first := (List.forall_mem_cons.mp h).1
        by_cases same : d = dotDot
        · simp only [if_pos same, List.reverse_cons, List.foldl_append, List.foldl_cons,
            List.foldl_nil, enter_dotDot]
        · simp only [if_neg same, List.reverse_cons, List.foldl_append, List.foldl_cons,
            List.foldl_nil, enter_below first.notHere same, List.dropLast_concat]
    · rw [if_neg up, List.reverse_cons, List.foldl_append, List.foldl_cons, List.foldl_nil,
        enter_below notHere up]

end Normalize

/-- The components of a path are those of a normal form, and lead to the same place. -/
theorem components_spec (p : Bytes) : (∀ c ∈ components p, Kept (isAbsolute p) c) ∧
    ∀ here : Place, (isAbsolute p = true → here = []) →
      (components p).foldl enter here = (Bytes.splitOn slash p).foldl enter here := by
  have run (cs done : List Bytes) (clean : ∀ c ∈ cs, slash ∉ c)
      (h : ∀ d ∈ done, Kept (isAbsolute p) d) :
      (∀ d ∈ cs.foldl (normalize (isAbsolute p)) done, Kept (isAbsolute p) d) ∧
        ∀ here : Place, (isAbsolute p = true → here = []) →
          (cs.foldl (normalize (isAbsolute p)) done).reverse.foldl enter here =
            cs.foldl enter (done.reverse.foldl enter here) := by
    induction cs generalizing done with
    | nil => exact ⟨h, fun _ _ => rfl⟩
    | cons c cs ih =>
      obtain ⟨first, rest⟩ := List.forall_mem_cons.mp clean
      obtain ⟨kept, same⟩ := ih _ rest (normalize_kept h first)
      refine ⟨kept, fun here root => ?_⟩
      rw [List.foldl_cons, List.foldl_cons, same here root, foldl_enter_normalize h root]
  obtain ⟨kept, same⟩ := run (Bytes.splitOn slash p) [] (fun c => Bytes.not_mem_of_mem_splitOn)
    (fun d hd => absurd hd List.not_mem_nil)
  exact ⟨fun c hc => kept c (List.mem_reverse.mp hc), same⟩

theorem components_names {p : Bytes} (h : isAbsolute p = true) : ∀ c ∈ components p, IsName c := by
  intro c hc
  obtain ⟨notHere, noSlash, notUp⟩ := (components_spec p).1 c hc
  exact ⟨notHere, notUp h, noSlash⟩

/-- The parts of a cleaned path are the components, behind parts that lead nowhere. -/
theorem splitOn_clean (p : Bytes) : isAbsolute (clean p) = isAbsolute p ∧
    ∃ skipped, (∀ c ∈ skipped, FileTree.isHere c = true) ∧
      Bytes.splitOn slash (clean p) = skipped ++ components p := by
  have kept := (components_spec p).1
  have noSlash : ∀ c ∈ components p, slash ∉ c := fun c hc => (kept c hc).noSlash
  have notHere : ∀ c ∈ components p, FileTree.isHere c = false := fun c hc => (kept c hc).notHere
  unfold clean
  simp only
  generalize components p = cs at noSlash notHere
  cases absolute : isAbsolute p with
  | true =>
    rw [if_pos rfl]
    refine ⟨rfl, ?_⟩
    rw [Bytes.splitOn, if_pos rfl]
    cases cs with
    | nil => exact ⟨[[], []], by decide, rfl⟩
    | cons c cs =>
      rw [Bytes.splitOn_join (List.cons_ne_nil c cs) noSlash]
      exact ⟨[[]], by decide, rfl⟩
  | false =>
    rw [if_neg (by decide)]
    cases cs with
    | nil => exact ⟨rfl, [dot], by decide, rfl⟩
    | cons c cs =>
      -- the text starts with the first component, which is neither empty nor starts with a slash
      have first := notHere c List.mem_cons_self
      have clear := noSlash c List.mem_cons_self
      have split := Bytes.splitOn_join (List.cons_ne_nil c cs) noSlash
      cases c with
      | nil => cases first
      | cons b c =>
        have head : ∃ rest, Bytes.join [slash] ((b :: c) :: cs) = b :: rest := by
          cases cs with
          | nil => exact ⟨c, by rw [Bytes.join, List.intercalate_singleton]⟩
          | cons d cs => exact ⟨_, by rw [Bytes.join, List.intercalate_cons_cons]; rfl⟩
        obtain ⟨rest, head⟩ := head
        rw [head] at split ⊢
        rw [if_neg (List.cons_ne_nil b rest), split]
        refine ⟨?_, [], by simp, rfl⟩
        rw [List.mem_cons, not_or] at clear
        simpa [isAbsolute] using Ne.symm clear.1

theorem clean_ne_nil (p : Bytes) : clean p ≠ [] := by
  unfold clean
  simp only
  split
  · exact List.cons_ne_nil _ _
  · split
    · decide
    · assumption

end Path

namespace FileTree

def spelled (t : FileTree) (path : Bytes) : Place :=
  (Bytes.splitOn Path.slash path).foldl Path.enter (startOf path t.workDir)

/-- A tree without links, whose working directory can be spelled. -/
structure Plain (t : FileTree) : Prop where
  noLink : ∀ q target, t.entry? q ≠ some (.link target)
  workDir : ∀ c ∈ t.workDir, Path.IsName c

section Spelled
variable {t : FileTree} {path : Bytes} {p : Place}

theorem Plain.of_entries (h : ∀ x ∈ t.entries, ∀ target, x.2 ≠ .link target)
    (names : ∀ c ∈ t.workDir, Path.IsName c) : t.Plain := by
  refine ⟨fun q target there => ?_, names⟩
  unfold entry? at there
  split at there
  · next e found =>
    obtain ⟨before, after, at_q, -⟩ := List.lookup_eq_some_iff.mp found
    exact h (q, e) (by simp [at_q]) target (Option.some.inj there)
  · split at there <;> cases there

theorem startOf_root {here : Place} (h : Path.isAbsolute path = true) : startOf path here = [] :=
  if_pos h

theorem spelled_clean (t : FileTree) (path : Bytes) : t.spelled (Path.clean path) = t.spelled path := by
  obtain ⟨absolute, skipped, here, split⟩ := Path.splitOn_clean path
  rw [spelled, split, List.foldl_append, Path.foldl_enter_here here,
    (Path.components_spec path).2 _ fun h => startOf_root (absolute.trans h), startOf, absolute]
  rfl

/-- Behind a directory, components lead on from its place. -/
theorem spelled_append (t : FileTree) {dir : Bytes} (h : dir ≠ []) (below : Bytes) :
    t.spelled (dir ++ Path.slash :: below) =
      (Bytes.splitOn Path.slash below).foldl Path.enter (t.spelled dir) := by
  have start : startOf (dir ++ Path.slash :: below) t.workDir = startOf dir t.workDir := by
    rw [startOf, startOf, Path.isAbsolute, Path.isAbsolute, List.head?_append_of_ne_nil _ h]
  rw [spelled, start, Bytes.splitOn_append, List.foldl_append]
  rfl

theorem spelled_absolute (plain : t.Plain) (path : Bytes) :
    t.spelled (t.absolute path) = t.spelled path := by
  unfold FileTree.absolute
  split
  · exact spelled_clean t path
  · next relative =>
    rw [spelled_clean, List.cons_append, ← List.cons_append,
      spelled_append t (List.cons_ne_nil _ _), spelled, spelled, Bytes.splitOn, if_pos rfl,
      List.foldl_cons, Path.enter_here rfl, startOf_root rfl, startOf, if_neg relative]
    congr 1
    cases wd : t.workDir with
    | nil => rfl
    | cons c cs =>
      have clear : ∀ d ∈ c :: cs, Path.slash ∉ d := fun d hd => (plain.workDir d (wd ▸ hd)).noSlash
      rw [Bytes.splitOn_join (List.cons_ne_nil c cs) clear,
        Path.foldl_enter_names fun d hd => plain.workDir d (wd ▸ hd)]
      rfl

theorem components_absolute (plain : t.Plain) (path : Bytes) :
    Path.components (t.absolute path) = t.spelled path := by
  have absolute : Path.isAbsolute (t.absolute path) = true := by
    unfold FileTree.absolute
    split
    · next h => exact (Path.splitOn_clean path).1.trans h
    · exact (Path.splitOn_clean _).1.trans rfl
  -- an absolute path in normal form spells its own components
  have names := Path.foldl_enter_names (Path.components_names absolute) []
  rw [(Path.components_spec _).2 [] fun _ => rfl, List.nil_append] at names
  rw [← names, ← spelled_absolute plain, spelled, startOf_root absolute]

theorem Walks.place_eq {follow : Bool} {n : Nat} {here : Place} {cs : List Bytes} {s : Spot}
    (noLink : ∀ q target, t.entry? q ≠ some (.link target)) (h : Walks t follow n here cs s) :
    s.place = cs.foldl Path.enter here := by
  induction h with
  | arrive => rfl
  | skip h _ ih => rw [List.foldl_cons, Path.enter_here h, ih]
  | up _ ih => rw [List.foldl_cons, Path.enter_dotDot, ih]
  | enter name _ _ ih => rw [List.foldl_cons, Path.enter_below name.notHere name.notUp, ih]
  | missing name _ last =>
    rw [List.foldl_cons, Path.enter_below name.notHere name.notUp,
      Path.foldl_enter_here fun d hd => by rw [last d hd]; rfl]
  | file name _ => rw [List.foldl_cons, Path.enter_below name.notHere name.notUp, List.foldl_nil]
  | stay _ entry _ | jump _ entry _ _ _ => exact absurd entry (noLink _ _)

/-- Without links, a path leads to the place that it spells. -/
theorem LeadsTo.eq_spelled (h : t.LeadsTo path p) (plain : t.Plain) : p = t.spelled path :=
  (locate_eq_ok.mp h).2.place_eq plain.noLink

/-- Without links, files are told apart by the places that their paths spell. -/
theorem identity_eq (plain : t.Plain) (path : Bytes) : t.identity path = t.spelled path := by
  unfold identity
  simp only
  split
  · next spot found =>
    split
    · have place := (locate_eq_ok.mp found).2.place_eq plain.noLink
      exact place.trans (spelled_absolute plain path)
    · exact components_absolute plain path
  · exact components_absolute plain path

end Spelled

end FileTree

end PrintLang
