import PrintLang.Proofs.Bytes.Ascii
import PrintLang.Proofs.FileTree.Walk
import PrintLang.Proofs.Outcome

set_option autoImplicit false

namespace PrintLang

namespace FileTree

def LeadsTo (t : FileTree) (path : Bytes) (p : Place) : Prop :=
  t.locate true maxLinks path = .ok ⟨p, false⟩

instance (t : FileTree) (path : Bytes) (p : Place) : Decidable (t.LeadsTo path p) :=
  inferInstanceAs (Decidable (_ = _))

section Files
variable {t u : FileTree} {path content : Bytes} {p : Place}

structure IsPath (path : Bytes) : Prop where
  nonempty : path ≠ []
  clean : 0 ∉ path
  short : path.length ≤ maxPath

theorem locate_eq_ok {follow : Bool} {n : Nat} {s : Spot} : t.locate follow n path = .ok s ↔
    IsPath path ∧ Walks t follow n (startOf path t.workDir) (Bytes.splitOn Path.slash path) s := by
  unfold locate
  constructor
  · intro h
    split at h
    · cases h
    · next nonempty =>
      split at h
      · cases h
      · next clean =>
        split at h
        · cases h
        · next short =>
          exact ⟨⟨nonempty, by simpa using clean, by omega⟩, walk_eq_ok.mp h⟩
  · rintro ⟨⟨nonempty, clean, short⟩, walks⟩
    rw [if_neg nonempty, if_neg (by simpa using clean), if_neg (by omega)]
    exact walk_eq_ok.mpr walks

theorem locate_above {follow : Bool} {n : Nat} {s : Spot} (h : t.locate follow n path = .ok s) :
    t.Above s.place :=
  (locate_eq_ok.mp h).2.above (rooted_startOf path (rooted_workDir t))

theorem locate_slashed {follow : Bool} {n : Nat} {s : Spot} (h : t.locate follow n path = .ok s)
    (there : t.entry? s.place ≠ none) : s = ⟨s.place, false⟩ := by
  obtain ⟨p, _ | _⟩ := s
  · rfl
  · exact absurd ((locate_eq_ok.mp h).2.slashed rfl) there

theorem LeadsTo.unique {q : Place} (h : t.LeadsTo path p) (h' : t.LeadsTo path q) : p = q := by
  have same := h.symm.trans h'
  injection same with same
  exact (Spot.mk.inj same).1

theorem LeadsTo.keeps (h : t.LeadsTo path p) (keeps : t.Keeps u)
    (last : isLeaf (t.entry? p) = true → isLeaf (u.entry? p) = true) : u.LeadsTo path p := by
  obtain ⟨isPath, walks⟩ := locate_eq_ok.mp h
  refine locate_eq_ok.mpr ⟨isPath, ?_⟩
  rw [keeps.workDir]
  exact walks.keeps keeps last

theorem stat_eq_ok {e : Entry} : t.stat path = .ok e ↔ ∃ p, t.LeadsTo path p ∧ t.entry? p = some e := by
  unfold stat resolve LeadsTo
  constructor
  · intro h
    cases found : t.locate true maxLinks path with
    | error e =>
      rw [found] at h
      cases h
    | ok s =>
      simp only [found, bind, Except.bind, pure, Except.pure] at h
      cases entry : t.entry? s.place with
      | none =>
        rw [entry] at h
        cases h
      | some e =>
        rw [entry] at h
        cases h
        exact ⟨s.place, by rw [← locate_slashed found (by simp [entry])], entry⟩
  · rintro ⟨p, found, entry⟩
    simp only [found, bind, Except.bind, pure, Except.pure, entry]

theorem readFile_iff_stat : t.readFile path = .ok content ↔
    ∃ x, t.stat path = .ok (.file content x) := by
  unfold readFile stat
  cases t.resolve true path with
  | error e => simp
  | ok r =>
    obtain ⟨p, _ | e⟩ := r
    · simp
    · cases e <;> simp

theorem readFile_eq_ok : t.readFile path = .ok content ↔
    ∃ p x, t.LeadsTo path p ∧ t.entry? p = some (.file content x) := by
  simp only [readFile_iff_stat, stat_eq_ok]
  exact exists_comm

/-- A file is written where the path leads, if nothing else than a file is there. -/
theorem writeFile_of_leaf (h : t.LeadsTo path p) (leaf : isLeaf (t.entry? p) = true)
    (content : Bytes) : ∃ x, t.writeFile path content = .ok (t.put p (.file content x)) := by
  unfold writeFile
  rw [LeadsTo] at h
  cases entry : t.entry? p with
  | none => exact ⟨false, by simp only [h, entry, Bool.false_eq_true, if_false]⟩
  | some e =>
    cases e with
    | file c x => exact ⟨x, by simp only [h, entry]⟩
    | directory | link =>
      rw [entry] at leaf
      cases leaf

theorem leaf_of_writeFile (h : t.writeFile path content = .ok u) :
    ∃ p, t.LeadsTo path p ∧ isLeaf (t.entry? p) = true := by
  unfold writeFile at h
  split at h
  · cases h
  · next s found =>
    split at h
    · next entry =>
      exact ⟨s.place, by rw [LeadsTo, found, ← locate_slashed found (by simp [entry])],
        by rw [entry]; rfl⟩
    · cases h
    · cases h
    · next entry =>
      split at h
      · cases h
      · next slashed =>
        obtain ⟨p, b⟩ := s
        exact ⟨p, by rw [LeadsTo, found]; simpa using slashed, by rw [entry]; rfl⟩

end Files

section Directories
variable {t u v : FileTree} {path : Bytes} {p : Place}

/-- Everything is kept, and what is new are directories. -/
structure Grown (t u : FileTree) : Prop where
  workDir : u.workDir = t.workDir
  entry : ∀ q, u.entry? q = t.entry? q ∨ t.entry? q = none ∧ u.entry? q = some .directory

theorem Grown.refl (t : FileTree) : t.Grown t := ⟨rfl, fun _ => .inl rfl⟩

theorem Grown.trans (h : t.Grown u) (h' : u.Grown v) : t.Grown v := by
  refine ⟨h'.workDir.trans h.workDir, fun q => ?_⟩
  rcases h.entry q with same | ⟨old, new⟩
  · rcases h'.entry q with same' | ⟨old', new'⟩
    · exact .inl (same'.trans same)
    · exact .inr ⟨same ▸ old', new'⟩
  · rcases h'.entry q with same' | ⟨old', -⟩
    · exact .inr ⟨old, same'.trans new⟩
    · simp [new] at old'

theorem Grown.keeps (h : t.Grown u) : t.Keeps u := by
  refine ⟨h.workDir, fun q solid => ?_⟩
  rcases h.entry q with same | ⟨old, -⟩
  · exact same
  · simp [old, isLeaf] at solid

theorem grown_put (above : t.Above p) (h : t.entry? p = none) : t.Grown (t.put p .directory) := by
  refine ⟨rfl, fun q => ?_⟩
  by_cases same : q = p
  · subst same
    exact .inr ⟨h, entry?_put_same t _ q⟩
  · exact .inl (entry?_put_of_ne t _ same fun below => above q below same)

/-- A walk to where nothing is arrives there once a directory is made, with slashes behind it, too. -/
theorem Walks.made {n : Nat} {here : Place} {cs : List Bytes} {s : Spot}
    (h : Walks t false n here cs s) (missing : t.entry? s.place = none) (grown : t.Grown u)
    (made : u.entry? s.place = some .directory) {slashes : List Bytes}
    (empty : ∀ d ∈ slashes, d = []) : Walks u true n here (cs ++ slashes) ⟨s.place, false⟩ := by
  have skips (here : Place) (n : Nat) {ds : List Bytes} (empty : ∀ d ∈ ds, d = []) :
      Walks u true n here ds ⟨here, false⟩ := by
    induction ds with
    | nil => exact .arrive
    | cons d ds ih =>
      refine .skip ?_ (ih fun d hd => empty d (List.mem_cons_of_mem _ hd))
      rw [empty d List.mem_cons_self]
      rfl
  have kept := grown.keeps.entry
  induction h with
  | arrive => exact skips _ _ empty
  | skip h _ ih => exact .skip h (ih missing made)
  | up _ ih => exact .up (ih missing made)
  | enter name entry _ ih =>
    exact .enter name (entry ▸ kept _ (by rw [entry]; rfl)) (ih missing made)
  | missing name entry last =>
    refine .enter name made (skips _ _ fun d hd => ?_)
    rcases List.mem_append.mp hd with hd | hd
    · exact last d hd
    · exact empty d hd
  | file _ entry | stay _ entry _ => simp [entry] at missing
  | jump name entry _ _ ih =>
    refine .jump name (entry ▸ kept _ (by rw [entry]; rfl)) (.inr rfl) ?_
    have tail := ih missing made
    rwa [List.append_assoc] at tail

theorem splitOn_slashes (path : Bytes) (k : Nat) :
    Bytes.splitOn Path.slash (path ++ List.replicate k Path.slash) =
      Bytes.splitOn Path.slash path ++ List.replicate k [] := by
  have only (k : Nat) : Bytes.splitOn Path.slash (List.replicate k Path.slash) =
      List.replicate (k + 1) [] := by
    induction k with
    | zero => rfl
    | succ k ih => rw [List.replicate_succ, Bytes.splitOn, if_pos rfl, ih, ← List.replicate_succ]
  cases k with
  | zero => simp
  | succ k => rw [List.replicate_succ, Bytes.splitOn_append, only]

theorem trimSlashes_append (path : Bytes) :
    ∃ k, path = Path.trimSlashes path ++ List.replicate k Path.slash := by
  let slashes := path.reverse.takeWhile (· == Path.slash)
  have same : slashes = List.replicate slashes.length Path.slash := by
    refine List.eq_replicate_of_mem fun b hb => ?_
    simpa using List.all_eq_true.mp List.all_takeWhile b hb
  refine ⟨slashes.length, ?_⟩
  calc path = (slashes ++ path.reverse.dropWhile (· == Path.slash)).reverse := by
        rw [List.takeWhile_append_dropWhile, List.reverse_reverse]
    _ = Path.trimSlashes path ++ slashes.reverse := List.reverse_append
    _ = Path.trimSlashes path ++ List.replicate slashes.length Path.slash := by
        rw [same, List.reverse_replicate, List.length_replicate]

/-- What is made is a directory at the path. -/
theorem makeDir_eq_ok (h : t.makeDir path = .ok u) :
    t.Grown u ∧ u.stat path = .ok .directory := by
  unfold makeDir resolve at h
  cases found : t.locate false maxLinks
      (if path.length ≤ maxPath then Path.trimSlashes path else path) with
  | error e =>
    rw [found] at h
    cases h
  | ok s =>
    simp only [found, bind, Except.bind, pure, Except.pure] at h
    cases missing : t.entry? s.place with
    | some e =>
      rw [missing] at h
      cases h
    | none =>
      rw [missing] at h
      cases h
      have grown := grown_put (locate_above found) missing
      refine ⟨grown, stat_eq_ok.mpr ⟨s.place, locate_eq_ok.mpr ?_, entry?_put_same t _ _⟩⟩
      obtain ⟨isPath, walks⟩ := locate_eq_ok.mp found
      by_cases short : path.length ≤ maxPath
      · rw [if_pos short] at isPath walks
        obtain ⟨k, hk⟩ := trimSlashes_append path
        have empty : ∀ d ∈ List.replicate k ([] : Bytes), d = [] :=
          fun d hd => (List.mem_replicate.mp hd).2
        have made := walks.made missing grown (entry?_put_same t _ _) empty
        rw [← splitOn_slashes, ← hk] at made
        generalize Path.trimSlashes path = named at isPath walks hk made
        subst hk
        have start : startOf (named ++ List.replicate k Path.slash) t.workDir =
            startOf named t.workDir := by
          rw [startOf, startOf, Path.isAbsolute, Path.isAbsolute,
            List.head?_append_of_ne_nil _ isPath.nonempty]
        refine ⟨⟨?_, ?_, short⟩, ?_⟩
        · simp [isPath.nonempty]
        · intro zero
          rcases List.mem_append.mp zero with zero | zero
          · exact isPath.clean zero
          · exact absurd (List.mem_replicate.mp zero).2 (by decide)
        · rw [grown.workDir, start]
          exact made
      · rw [if_neg short] at isPath
        exact absurd isPath.short short

theorem stat_of_isDirAt (h : t.isDirAt path = true) : t.stat path = .ok .directory := by
  unfold isDirAt resolve at h
  cases found : t.locate false maxLinks path with
  | error e =>
    rw [found] at h
    cases h
  | ok s =>
    simp only [found, bind, Except.bind, pure, Except.pure] at h
    cases entry : t.entry? s.place with
    | none =>
      rw [entry] at h
      cases h
    | some e =>
      cases e with
      | directory =>
        obtain ⟨isPath, walks⟩ := locate_eq_ok.mp found
        refine stat_eq_ok.mpr ⟨s.place, locate_eq_ok.mpr ⟨isPath, ?_⟩, entry⟩
        rw [← locate_slashed found (by simp [entry])]
        exact walks.through (by simp [entry])
      | file | link =>
        rw [entry] at h
        cases h

/-- Making directories adds directories, even when not all can be made. -/
theorem makeDirsFor_grown {fuel : Nat} : t.Grown (makeDirsFor fuel t path).1 := by
  induction fuel generalizing t path with
  | zero => exact .refl t
  | succ fuel ih =>
    rw [makeDirsFor]
    split
    · exact .refl t
    · exact .refl t
    · have above : t.Grown
          (if Path.parent path = [] then (t, none) else makeDirsFor fuel t (Path.parent path)).1 := by
        split
        · exact .refl t
        · exact ih
      simp only
      split
      · next refused =>
        rw [refused] at above
        exact above
      · next made =>
        rw [made] at above
        split
        · next last => exact above.trans (makeDir_eq_ok last).1
        · exact above

theorem stat_makeDirsFor {fuel : Nat} (h : (makeDirsFor (fuel + 1) t path).2 = none) :
    (makeDirsFor (fuel + 1) t path).1.stat path = .ok .directory := by
  rw [makeDirsFor] at h ⊢
  split
  · assumption
  · next there => simp [there] at h
  · next missing =>
    simp only [missing] at h ⊢
    split
    · next refused => simp [refused] at h
    · next made =>
      simp only [made] at h
      split
      · next last => exact (makeDir_eq_ok last).2
      · next last =>
        simp only [last] at h
        split at h
        · next there => exact stat_of_isDirAt there
        · cases h

theorem withDirs_grown : t.Grown (t.withDirs path) := makeDirsFor_grown

theorem makeDirs_eq_withDirs (h : t.makeDirs path = .ok u) : u = t.withDirs path := by
  unfold makeDirs at h
  split at h
  · exact (Except.ok.inj h).symm
  · cases h

theorem makeDirs_eq_ok (h : t.makeDirs path = .ok u) :
    t.Grown u ∧ u.stat path = .ok .directory := by
  unfold makeDirs at h
  split at h
  · next none =>
    cases h
    exact ⟨withDirs_grown, stat_makeDirsFor none⟩
  · cases h

theorem makeDirs_of_stat (h : t.stat path = .ok .directory) : t.makeDirs path = .ok t := by
  have there : makeDirsFor (path.length + 1) t path = (t, none) := by rw [makeDirsFor, h]
  rw [makeDirs, withDirs, there]

end Directories

section Writing
variable {outs : Place → Prop} {t u v : FileTree} {path content : Bytes} {p q : Place}

structure Within (t : FileTree) (outs : Place → Prop) (u : FileTree) : Prop where
  workDir : u.workDir = t.workDir
  entry : ∀ q, u.entry? q = t.entry? q ∨
    outs q ∧ isLeaf (t.entry? q) = true ∧ isLeaf (u.entry? q) = true

theorem Within.refl (t : FileTree) (outs : Place → Prop) : t.Within outs t :=
  ⟨rfl, fun _ => .inl rfl⟩

theorem Within.isLeaf_eq (h : t.Within outs u) (q : Place) :
    isLeaf (u.entry? q) = isLeaf (t.entry? q) := by
  rcases h.entry q with same | ⟨-, leaf, leaf'⟩
  · rw [same]
  · rw [leaf, leaf']

theorem Within.trans {more : Place → Prop} (h : t.Within outs u) (h' : u.Within more v)
    (within : ∀ q, more q → outs q) : t.Within outs v := by
  refine ⟨h'.workDir.trans h.workDir, fun q => ?_⟩
  rcases h'.entry q with same | ⟨out, leaf, leaf'⟩
  · rw [same]
    exact h.entry q
  · exact .inr ⟨within q out, h.isLeaf_eq q ▸ leaf, leaf'⟩

theorem Within.mono {more : Place → Prop} (h : t.Within outs u) (within : ∀ q, outs q → more q) :
    t.Within more u :=
  (Within.refl t more).trans h within

theorem Within.keeps (h : t.Within outs u) : t.Keeps u := by
  refine ⟨h.workDir, fun q solid => ?_⟩
  rcases h.entry q with same | ⟨-, leaf, -⟩
  · exact same
  · simp [leaf] at solid

theorem Within.kept (h : t.Within outs u) : u.Keeps t := by
  refine ⟨h.workDir.symm, fun q solid => ?_⟩
  rw [h.isLeaf_eq] at solid
  exact (h.keeps.entry q solid).symm

theorem Within.leadsTo_iff (h : t.Within outs u) : u.LeadsTo path p ↔ t.LeadsTo path p :=
  ⟨fun leads => leads.keeps h.kept fun leaf => h.isLeaf_eq p ▸ leaf,
    fun leads => leads.keeps h.keeps fun leaf => (h.isLeaf_eq p).trans leaf⟩

theorem Within.stat_directory (h : t.Within outs u) (there : t.stat path = .ok .directory) :
    u.stat path = .ok .directory := by
  obtain ⟨p, leads, entry⟩ := stat_eq_ok.mp there
  refine stat_eq_ok.mpr ⟨p, h.leadsTo_iff.mpr leads, ?_⟩
  rw [h.keeps.entry p (by rw [entry]; rfl), entry]

/-- Nothing has changed but files at the given places. -/
structure Amended (t : FileTree) (outs : Place → Prop) (u : FileTree) : Prop where
  workDir : u.workDir = t.workDir
  entry : ∀ q, u.entry? q = t.entry? q ∨
    outs q ∧ isLeaf (t.entry? q) = true ∧ ∃ content x, u.entry? q = some (.file content x)

theorem Amended.within (h : t.Amended outs u) : t.Within outs u := by
  refine ⟨h.workDir, fun q => ?_⟩
  rcases h.entry q with same | ⟨out, leaf, content, x, file⟩
  · exact .inl same
  · exact .inr ⟨out, leaf, by rw [file]; rfl⟩

theorem Amended.refl (t : FileTree) (outs : Place → Prop) : t.Amended outs t :=
  ⟨rfl, fun _ => .inl rfl⟩

theorem Amended.isLeaf_eq (h : t.Amended outs u) (q : Place) :
    isLeaf (u.entry? q) = isLeaf (t.entry? q) := h.within.isLeaf_eq q

theorem Amended.trans {more : Place → Prop} (h : t.Amended outs u) (h' : u.Amended more v)
    (within : ∀ q, more q → outs q) : t.Amended outs v := by
  refine ⟨h'.workDir.trans h.workDir, fun q => ?_⟩
  rcases h'.entry q with same | ⟨out, leaf, file⟩
  · rw [same]
    exact h.entry q
  · exact .inr ⟨within q out, h.isLeaf_eq q ▸ leaf, file⟩

theorem Amended.mono {more : Place → Prop} (h : t.Amended outs u) (within : ∀ q, outs q → more q) :
    t.Amended more u :=
  (Amended.refl t more).trans h within

theorem Amended.leadsTo_iff (h : t.Amended outs u) : u.LeadsTo path p ↔ t.LeadsTo path p :=
  h.within.leadsTo_iff

/-- A file is read as before, if nothing has changed where its path leads. -/
theorem Amended.readFile_eq (h : t.Amended outs u) (h' : t.Amended outs v)
    (same : ∀ q, t.LeadsTo path q → v.entry? q = u.entry? q) (read : u.readFile path = .ok content) :
    v.readFile path = .ok content := by
  obtain ⟨p, x, leads, file⟩ := readFile_eq_ok.mp read
  have leads := h.leadsTo_iff.mp leads
  exact readFile_eq_ok.mpr ⟨p, x, h'.leadsTo_iff.mpr leads, (same p leads).trans file⟩

/-- Writing a file changes it and nothing else. -/
theorem writeFile_amended (leads : t.LeadsTo path p) (leaf : isLeaf (t.entry? p) = true)
    (content : Bytes) :
    ∃ u, t.writeFile path content = .ok u ∧ t.Amended (t.LeadsTo path) u ∧
      u.readFile path = .ok content := by
  obtain ⟨x, written⟩ := writeFile_of_leaf leads leaf content
  have amended : t.Amended (t.LeadsTo path) (t.put p (.file content x)) := by
    refine ⟨rfl, fun q => ?_⟩
    by_cases same : q = p
    · subst same
      exact .inr ⟨leads, leaf, content, x, entry?_put_same t _ q⟩
    · exact .inl (entry?_put_of_ne t _ same fun below => locate_above leads q below same)
  refine ⟨_, written, amended, readFile_eq_ok.mpr ⟨p, x, ?_, entry?_put_same t _ p⟩⟩
  exact amended.leadsTo_iff.mpr leads

theorem Amended.of_writeFile (h : t.writeFile path content = .ok u) :
    t.Amended (t.LeadsTo path) u := by
  obtain ⟨p, leads, leaf⟩ := leaf_of_writeFile h
  obtain ⟨v, written, amended, -⟩ := writeFile_amended leads leaf content
  obtain rfl : v = u := Except.ok.inj (written.symm.trans h)
  exact amended

/-- A file is read as before after directories are made. -/
theorem Grown.readFile_eq (h : t.Grown u) (read : t.readFile path = .ok content) :
    u.readFile path = .ok content := by
  obtain ⟨p, x, leads, file⟩ := readFile_eq_ok.mp read
  have kept : u.entry? p = some (.file content x) := by
    rcases h.entry p with same | ⟨gone, -⟩
    · rw [same, file]
    · simp [file] at gone
  refine readFile_eq_ok.mpr ⟨p, x, leads.keeps h.keeps fun _ => ?_, kept⟩
  rw [kept]
  rfl

end Writing

end FileTree

end PrintLang
