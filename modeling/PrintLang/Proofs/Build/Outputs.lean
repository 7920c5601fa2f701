import PrintLang.Proofs.Build.Interleaving
import PrintLang.Proofs.FileTree.Spelling

/-!
# Where the outputs of a build go

The files that are made from a source stand in one directory, under its stem. Two units of a build never
have a listing or an object in common. Only the listings are compared, however: an executable has no
extension of its own, and falls on the listing or the object of another unit when its stem is the stem
of that unit with `.asm` or `.o` behind it.
-/

set_option autoImplicit false

namespace PrintLang

namespace Path

theorem slash_not_mem_afterSlash (p : Bytes) : slash ∉ afterSlash p := by
  intro h
  have kept := List.all_eq_true.mp List.all_takeWhile slash (List.mem_reverse.mp h)
  simp at kept

theorem base_eq (p : Bytes) : base p = [slash] ∨ slash ∉ base p := by
  unfold base
  split
  · exact .inr (by decide)
  · simp only
    split
    · exact .inl rfl
    · exact .inr (slash_not_mem_afterSlash _)

theorem withoutTail_prefix (s tail : Bytes) : Bytes.withoutTail s tail <+: s := by
  unfold Bytes.withoutTail
  split
  · exact List.take_prefix _ _
  · exact List.prefix_rfl

/-- The stem under which files are made from a source. Only the root has a stem with a slash, and gives
no name to a file. -/
def fileStem (source : Bytes) : Bytes := if stem source = [slash] then [] else stem source

theorem slash_not_mem_fileStem (source : Bytes) : slash ∉ fileStem source := by
  unfold fileStem
  split
  · exact List.not_mem_nil
  · next other =>
    intro h
    have kept : stem source <+: base source := withoutTail_prefix _ _
    rcases base_eq source with root | clear
    · rw [root] at kept
      rcases List.prefix_cons_iff.mp kept with none | ⟨rest, same, nothing⟩
      · simp [none] at h
      · rw [List.prefix_nil.mp nothing] at same
        exact other same
    · exact clear (kept.subset h)

def home (source outDir : Bytes) : Bytes := if outDir = [] then dir source else outDir

theorem home_ne_nil (source outDir : Bytes) : home source outDir ≠ [] := by
  unfold home
  split
  · exact clean_ne_nil _
  · assumption

end Path

section Siblings
variable {t : FileTree} {source outDir extension : Bytes}

theorem FileTree.spelled_sibling (t : FileTree) (source outDir : Bytes)
    (noSlash : Path.slash ∉ extension) : t.spelled (Path.sibling source outDir extension) =
      Path.enter (t.spelled (Path.home source outDir)) (Path.fileStem source ++ extension) := by
  have noSlash' := Path.slash_not_mem_fileStem source
  have sibling : Path.sibling source outDir extension =
      Path.clean (Path.home source outDir ++ Path.slash :: (Path.stem source ++ extension)) :=
    if_pos (Path.home_ne_nil source outDir)
  rw [sibling, spelled_clean, spelled_append t (Path.home_ne_nil source outDir)]
  unfold Path.fileStem at noSlash' ⊢
  split
  · next root =>
    rw [root, List.singleton_append, Bytes.splitOn, if_pos rfl, List.foldl_cons, Path.enter_here rfl,
      Bytes.splitOn_of_not_mem noSlash]
    rfl
  · next other =>
    rw [if_neg other] at noSlash'
    rw [Bytes.splitOn_of_not_mem (by simp [noSlash, noSlash'])]
    rfl

def madeExtensions : List Bytes := [bytes ".asm", bytes ".o"]

theorem Path.IsName.of_last {c : Bytes} {b : UInt8} (last : c.getLast? = some b) (ne : b ≠ 46)
    (noSlash : slash ∉ c) : IsName c := by
  refine ⟨?_, ?_, noSlash⟩
  · by_contra here
    rw [Bool.not_eq_false, FileTree.isHere, Bool.or_eq_true, beq_iff_eq, beq_iff_eq] at here
    rcases here with rfl | rfl
    · cases last
    · exact ne (Option.some.inj last).symm
  · rintro rfl
    exact ne (Option.some.inj last).symm

theorem asm_mem_made : bytes ".asm" ∈ madeExtensions := List.mem_cons_self

theorem obj_mem_made : bytes ".o" ∈ madeExtensions := List.mem_cons_of_mem _ List.mem_cons_self

/-- How listings and objects end: not as a source does, nor as a name for a directory. -/
theorem last_made (h : extension ∈ madeExtensions) :
    Path.slash ∉ extension ∧ ∃ b, extension.getLast? = some b ∧ b ≠ 46 ∧ b ≠ 116 := by
  rcases List.mem_pair.mp h with rfl | rfl
  · exact ⟨by decide, 109, by decide⟩
  · exact ⟨by decide, 111, by decide⟩

theorem isName_made (h : extension ∈ madeExtensions) {stem : Bytes} (noSlash : Path.slash ∉ stem) :
    Path.IsName (stem ++ extension) := by
  obtain ⟨clear, b, last, ne, -⟩ := last_made h
  refine .of_last (b := b) ?_ ne (by simp [noSlash, clear])
  rw [List.getLast?_append, last]
  rfl

theorem FileTree.spelled_made (t : FileTree) (source outDir : Bytes)
    (h : extension ∈ madeExtensions) : t.spelled (Path.sibling source outDir extension) =
      t.spelled (Path.home source outDir) ++ [Path.fileStem source ++ extension] := by
  rw [spelled_sibling t source outDir (last_made h).1,
    (isName_made h (Path.slash_not_mem_fileStem source)).enter_eq]

theorem FileTree.spelled_exePath (t : FileTree) (outDir : Bytes)
    (named : Path.IsName (Path.fileStem source)) : t.spelled (Path.exePath source outDir) =
      t.spelled (Path.home source outDir) ++ [Path.fileStem source] := by
  rw [Path.exePath, spelled_sibling t source outDir List.not_mem_nil, List.append_nil, named.enter_eq]

theorem made_inj {e e' stem stem' : Bytes} (h : e ∈ madeExtensions) (h' : e' ∈ madeExtensions)
    (same : stem ++ e = stem' ++ e') : stem = stem' := by
  have each : ∀ e ∈ madeExtensions, ∀ e' ∈ madeExtensions, e ≠ [] ∧ e' ≠ [] ∧
      (e.getLast? = e'.getLast? → e = e') := by decide
  obtain ⟨ne, ne', determined⟩ := each e h e' h'
  have last := congrArg List.getLast? same
  rw [List.getLast?_append_of_ne_nil _ ne, List.getLast?_append_of_ne_nil _ ne'] at last
  obtain rfl := determined last
  exact List.append_cancel_right same

end Siblings

/-- The check finds no conflict if and only if all listings are new: different from those of the owners
and from one another. -/
theorem OutputConflict.find?_eq_none {t : FileTree} {owners : List (Place × Bytes)}
    {us : List BuildUnit} : find? t owners us = none ↔
      (∀ u ∈ us, owners.lookup (t.identity u.asm) = none) ∧
        us.Pairwise fun u v => t.identity u.asm ≠ t.identity v.asm := by
  induction us generalizing owners with
  | nil => exact iff_of_true rfl ⟨fun u hu => absurd hu List.not_mem_nil, .nil⟩
  | cons u us ih =>
    have later (v : BuildUnit) : ((t.identity u.asm, u.source) :: owners).lookup (t.identity v.asm) =
        none ↔ t.identity u.asm ≠ t.identity v.asm ∧ owners.lookup (t.identity v.asm) = none := by
      rw [List.lookup_cons]
      split
      · next same => exact iff_of_false (nofun) fun ne => ne.1 (eq_of_beq same).symm
      · next ne => exact ⟨fun none => ⟨Ne.symm (by simpa using ne), none⟩, And.right⟩
    rw [find?, List.forall_mem_cons, List.pairwise_cons]
    split
    · next taken => exact iff_of_false (nofun) fun none => by simp [taken] at none
    · next new =>
      rw [ih]
      simp only [later, new, true_and, forall_and]
      tauto

/-- A build is refused, and then nothing is done, or it is the run of its units. -/
theorem build_cases (o : BuildOptions) (site : Site) (t : FileTree) (sources : List Bytes)
    (cancel : Bool) :
    (∃ f, build o site t sources cancel = ⟨[], ⟨t, []⟩, some f⟩ ∧
      (o.target.fault? ≠ none ∨ f.has .outputConflict = true ∧
        OutputConflict.find? t [] (sources.map (BuildUnit.ofSource o.outDir)) ≠ none)) ∨
    (o.target.fault? = none ∧
      OutputConflict.find? t [] (sources.map (BuildUnit.ofSource o.outDir)) = none ∧
      let b := (BuildState.start o.outDir sources t cancel).run o site
        (site.group.order sources.length)
      build o site t sources cancel = ⟨b.units, b.world, b.result⟩) := by
  unfold build
  simp only
  split
  · next e fault => exact .inl ⟨_, rfl, .inl (by simp [fault])⟩
  · next fit =>
    split
    · next conflict =>
      exact .inl ⟨_, rfl, .inr ⟨rfl, fun none => nomatch conflict.symm.trans none⟩⟩
    · next passes => exact .inr ⟨fit, passes, rfl⟩

namespace BuildUnit

def origin (u : BuildUnit) : BuildUnit := { u with outcome := none, stage := .waiting }

theorem step_origin (o : BuildOptions) (site : Site) (u : BuildUnit) (w : World) :
    (u.step o site w).1.origin = u.origin := by
  unfold step
  split
  · split <;> rfl
  · simp only
    split <;> rfl
  · split <;> rfl
  · split <;> rfl
  · split <;> rfl
  · rfl

end BuildUnit

namespace BuildState
variable {o : BuildOptions} {site : Site} {b : BuildState}

theorem map_origin_set {us : List BuildUnit} {i : Nat} {u v : BuildUnit} (found : us[i]? = some u)
    (same : v.origin = u.origin) : (us.set i v).map BuildUnit.origin = us.map BuildUnit.origin := by
  rw [List.map_set, same]
  refine List.ext_getElem? fun j => ?_
  rw [List.getElem?_set]
  split
  · next here =>
    subst here
    rw [List.getElem?_map, found, List.length_map, if_pos (List.getElem?_eq_some_iff.mp found).choose]
    rfl
  · rfl

inductive Advance (o : BuildOptions) (site : Site) (b : BuildState) (i : Nat) : BuildState → Prop
  | none (gone : b.units[i]? = none) : Advance o site b i b
  | step {u : BuildUnit} (found : b.units[i]? = some u) (may : b.mayStep u = true) :
      Advance o site b i
        (let r := u.step o (site.now b.calledOff) b.world
        ⟨b.units.set i r.1, r.2.1, b.calledOff || r.2.2.any site.group.callsOff,
          site.group.after b.failure r.2.2⟩)
  | stop {u : BuildUnit} (found : b.units[i]? = some u) (mayNot : b.mayStep u = false) :
      Advance o site b i
        { b with
          units := b.units.set i { u with stage := .finished }
          failure := site.group.after b.failure (some canceled) }

theorem advance_spec (o : BuildOptions) (site : Site) (b : BuildState) (i : Nat) :
    Advance o site b i (b.advance o site i) := by
  unfold advance
  split
  · next gone => exact .none gone
  · next u found =>
    split
    · next may => exact .step found may
    · next mayNot => exact .stop found (by simpa using mayNot)

theorem run_preserves {P : BuildState → Prop} (h : ∀ b i c, P b → Advance o site b i c → P c)
    (schedule : List Nat) (start : P b) : P (b.run o site schedule) := by
  induction schedule generalizing b with
  | nil => exact start
  | cons i schedule ih => exact ih (h b i _ start (advance_spec o site b i))

/-- A build keeps its units, whatever order their steps are taken in. -/
theorem run_origin (schedule : List Nat) :
    (b.run o site schedule).units.map BuildUnit.origin = b.units.map BuildUnit.origin := by
  refine run_preserves (P := fun c => c.units.map BuildUnit.origin = b.units.map BuildUnit.origin)
    (fun c i d same advance => ?_) schedule rfl
  refine Eq.trans ?_ same
  cases advance with
  | none => rfl
  | step found _ => exact map_origin_set found (BuildUnit.step_origin o _ _ c.world)
  | stop found _ => exact map_origin_set found rfl

theorem run_start_origin (o : BuildOptions) (site : Site) (t : FileTree) (sources : List Bytes)
    (cancel : Bool) (schedule : List Nat) :
    ((start o.outDir sources t cancel).run o site schedule).units.map BuildUnit.origin =
      sources.map (BuildUnit.ofSource o.outDir) := by
  refine (run_origin schedule).trans ?_
  rw [start, List.map_map]
  rfl

end BuildState

def BuildOptions.Overlap (o : BuildOptions) (t : FileTree) (s s' : Bytes) : Prop :=
  ∃ e ∈ [] :: madeExtensions,
    t.spelled (Path.exePath s o.outDir) = t.spelled (Path.sibling s' o.outDir e) ∨
    t.spelled (Path.exePath s' o.outDir) = t.spelled (Path.sibling s o.outDir e)

/-- What the outputs of two units of one build may have in common. -/
structure BuildOptions.Apart (o : BuildOptions) (t : FileTree) (s s' : Bytes) : Prop where
  /-- Listings and objects are all different. -/
  made : ∀ e ∈ madeExtensions, ∀ e' ∈ madeExtensions,
    t.spelled (Path.sibling s o.outDir e) ≠ t.spelled (Path.sibling s' o.outDir e')
  outputs : (∀ x ∈ BuildUnit.outputs o s, ∀ y ∈ BuildUnit.outputs o s', t.spelled x ≠ t.spelled y) ↔
    ¬ (o.link = true ∧ o.Overlap t s s')
  /-- When an executable falls on another output. A stem that names no file is left out: it gives a
  directory as the path of the executable. -/
  stems : Path.IsName (Path.fileStem s) → Path.IsName (Path.fileStem s') → (o.Overlap t s s' ↔
    t.spelled (Path.home s o.outDir) = t.spelled (Path.home s' o.outDir) ∧
      ∃ e ∈ madeExtensions, Path.fileStem s = Path.fileStem s' ++ e ∨
        Path.fileStem s' = Path.fileStem s ++ e)

section Apart
variable {o : BuildOptions} {t : FileTree} {s s' : Bytes}

theorem mem_outputs {x : Bytes} : x ∈ BuildUnit.outputs o s ↔
    x = Path.asmPath s o.outDir ∨ o.link = true ∧ (x = Path.objPath s o.outDir ∨
      x = Path.exePath s o.outDir) := by
  unfold BuildUnit.outputs
  cases o.link <;> simp [BuildUnit.ofSource]

/-- The outputs of a build that links go by their extensions. -/
theorem mem_outputs_iff (link : o.link = true) {x : Bytes} : x ∈ BuildUnit.outputs o s ↔
    ∃ e ∈ [] :: madeExtensions, x = Path.sibling s o.outDir e := by
  rw [mem_outputs, Path.asmPath, Path.objPath, Path.exePath, madeExtensions]
  simp only [link, true_and, List.mem_cons, List.not_mem_nil, or_false, or_and_right, exists_or,
    exists_eq_left]
  exact or_assoc.symm.trans or_comm

/-- An executable falls on a listing or an object by its stem. -/
theorem exePath_eq_made_iff (named : Path.IsName (Path.fileStem s)) {e : Bytes}
    (he : e ∈ madeExtensions) :
    t.spelled (Path.exePath s o.outDir) = t.spelled (Path.sibling s' o.outDir e) ↔
      t.spelled (Path.home s o.outDir) = t.spelled (Path.home s' o.outDir) ∧
        Path.fileStem s = Path.fileStem s' ++ e := by
  rw [t.spelled_exePath o.outDir named, t.spelled_made s' o.outDir he]
  constructor
  · intro same
    obtain ⟨home, last⟩ := List.append_inj' same rfl
    exact ⟨home, List.singleton_inj.mp last⟩
  · rintro ⟨home, stem⟩
    rw [home, stem]

theorem BuildOptions.apart_of_listings
    (h : t.spelled (Path.asmPath s o.outDir) ≠ t.spelled (Path.asmPath s' o.outDir)) :
    o.Apart t s s' := by
  have asm (s : Bytes) := t.spelled_made s o.outDir asm_mem_made
  have stems (home : t.spelled (Path.home s o.outDir) = t.spelled (Path.home s' o.outDir))
      (stem : Path.fileStem s = Path.fileStem s') : False :=
    h (by rw [Path.asmPath, Path.asmPath, asm, asm, home, stem])
  have made : ∀ e ∈ madeExtensions, ∀ e' ∈ madeExtensions,
      t.spelled (Path.sibling s o.outDir e) ≠ t.spelled (Path.sibling s' o.outDir e') := by
    intro e he e' he' same
    rw [t.spelled_made s _ he, t.spelled_made s' _ he'] at same
    obtain ⟨home, last⟩ := List.append_inj' same rfl
    exact stems home (made_inj he he' (List.singleton_inj.mp last))
  refine ⟨made, ?_, fun name name' => ?_⟩
  · cases link : o.link with
    | false =>
      have only {s x : Bytes} (hx : x ∈ BuildUnit.outputs o s) : x = Path.asmPath s o.outDir := by
        simpa [mem_outputs, link] using hx
      refine iff_of_true (fun x hx y hy => ?_) (fun no => nomatch no.1)
      rw [only hx, only hy]
      exact h
    | true =>
      simp only [mem_outputs_iff link, true_and]
      constructor
      · rintro differ ⟨e, he, same | same⟩
        · exact differ _ ⟨[], List.mem_cons_self, rfl⟩ _ ⟨e, he, rfl⟩ same
        · exact differ _ ⟨e, he, rfl⟩ _ ⟨[], List.mem_cons_self, rfl⟩ same.symm
      · rintro apart x ⟨e, he, rfl⟩ y ⟨e', he', rfl⟩ same
        rcases List.mem_cons.mp he with rfl | made_e
        · exact apart ⟨e', he', .inl same⟩
        · rcases List.mem_cons.mp he' with rfl | made_e'
          · exact apart ⟨e, he, .inr same.symm⟩
          · exact made e made_e e' made_e' same
  · constructor
    · rintro ⟨e, he, overlap⟩
      rcases List.mem_cons.mp he with rfl | he
      · -- the two executables: of one directory and one stem, which the listings exclude
        have same : t.spelled (Path.exePath s o.outDir) = t.spelled (Path.exePath s' o.outDir) :=
          overlap.elim id Eq.symm
        rw [t.spelled_exePath o.outDir name, t.spelled_exePath o.outDir name'] at same
        obtain ⟨home, last⟩ := List.append_inj' same rfl
        exact (stems home (List.singleton_inj.mp last)).elim
      · rw [exePath_eq_made_iff name he, exePath_eq_made_iff name' he] at overlap
        rcases overlap with ⟨home, stem⟩ | ⟨home, stem⟩
        · exact ⟨home, e, he, .inl stem⟩
        · exact ⟨home.symm, e, he, .inr stem⟩
    · rintro ⟨home, e, he, overlap⟩
      refine ⟨e, List.mem_cons_of_mem _ he, ?_⟩
      rw [exePath_eq_made_iff name he, exePath_eq_made_iff name' he]
      exact overlap.imp (fun stem => ⟨home, stem⟩) fun stem => ⟨home.symm, stem⟩

end Apart

/-- The check compares the places of the listings. -/
theorem OutputConflict.find?_sources_eq_none {t : FileTree} (plain : t.Plain) (outDir : Bytes)
    (sources : List Bytes) : find? t [] (sources.map (BuildUnit.ofSource outDir)) = none ↔
      sources.Pairwise fun s s' => t.spelled (Path.asmPath s outDir) ≠
        t.spelled (Path.asmPath s' outDir) := by
  rw [find?_eq_none, List.pairwise_map]
  simp only [FileTree.identity_eq plain]
  exact and_iff_right fun _ _ => rfl

/-- In a tree without links a build is refused, for its target or for two listings at one place, and
then does nothing; or it keeps the outputs of its units apart, unless it links and the executable of one
falls on an output of another. -/
theorem build_outputs_apart (o : BuildOptions) (tools : Toolbox) (t : FileTree) (sources : List Bytes)
    (cancel : Bool) (plain : t.Plain) :
    let r := build o tools t sources cancel
    (r.units = [] ∧ r.world = ⟨t, []⟩ ∧ ∃ f, r.failure = some f ∧
      (o.target.fault? ≠ none ∨ f.has .outputConflict = true ∧
        ¬ sources.Pairwise fun s s' => t.spelled (Path.asmPath s o.outDir) ≠
          t.spelled (Path.asmPath s' o.outDir))) ∨
    (r.units.map BuildUnit.origin = sources.map (BuildUnit.ofSource o.outDir) ∧
      sources.Pairwise (o.Apart t)) := by
  intro r
  have check := OutputConflict.find?_sources_eq_none plain o.outDir sources
  rcases build_cases o tools t sources cancel with ⟨f, refused, why⟩ | ⟨-, passes, runs⟩
  · rw [show r = _ from refused]
    exact .inl ⟨rfl, rfl, f, rfl, why.imp_right fun ⟨conflict, found⟩ => ⟨conflict, mt check.mpr found⟩⟩
  · refine .inr ⟨?_, (check.mp passes).imp fun ne => BuildOptions.apart_of_listings ne⟩
    rw [show r = _ from runs]
    exact BuildState.run_start_origin o tools t sources cancel _

theorem mixedTree_plain : mixedTree.Plain :=
  .of_entries (by simp [mixedTree]) (by simp [mixedTree])

theorem mixedSources_apart :
    mixedTree.Plain ∧ mixedSources.Pairwise (linkingOptions.Apart mixedTree) := by
  refine ⟨mixedTree_plain, ?_⟩
  rcases build_outputs_apart linkingOptions stampTools mixedTree mixedSources false mixedTree_plain
    with ⟨none, -⟩ | ⟨-, apart⟩
  · exact absurd (congrArg List.length none) (by decide +kernel)
  · exact apart

/-- The stem of the second source is the name of the listing of the first. -/
def shadowedTree : FileTree where
  workDir := []
  entries := [([bytes "a.kt"], .file (bytes "println(1)") false),
    ([bytes "a.asm.kt"], .file (bytes "println(2)") false)]

/-- Nothing is refused and nothing fails, but the listing of the first unit is lost: the second has its
executable there. -/
theorem listing_lost_to_executable :
    let r := build linkingOptions stampTools shadowedTree [bytes "a.kt", bytes "a.asm.kt"] false
    shadowedTree.Plain ∧ r.failure = none ∧ r.units.map BuildUnit.compiled = [true, true] ∧
    Path.exePath (bytes "a.asm.kt") [] = Path.asmPath (bytes "a.kt") [] ∧
    r.world.tree.readFile (Path.asmPath (bytes "a.kt") []) = .ok (bytes "made") :=
  ⟨.of_entries (by simp [shadowedTree]) (by simp [shadowedTree]), by decide +kernel,
    by decide +kernel, by decide +kernel, by decide +kernel⟩

end PrintLang
