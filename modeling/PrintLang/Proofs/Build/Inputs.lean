import PrintLang.Proofs.Build.Outputs

/-!
# What a build leaves alone

A build writes at its outputs and nowhere else: a file that no output spells is kept, whatever the order
of the steps and however they end. A file that ends like a source is never a listing or an object, so
that only an executable can fall on it. Nothing keeps an output off a source of another name, or an
executable off a source with two extensions.
-/

set_option autoImplicit false

namespace PrintLang

namespace FileTree
variable {t u v : FileTree} {p : Place} {path content : Bytes}

theorem Keeps.trans (h : t.Keeps u) (h' : u.Keeps v) : t.Keeps v := by
  refine ⟨h'.workDir.trans h.workDir, fun q solid => ?_⟩
  have same := h.entry q solid
  rw [← same] at solid ⊢
  exact h'.entry q solid

/-- Directories stay, no link is made, and what stands at the place stays. -/
structure Spares (t : FileTree) (p : Place) (u : FileTree) : Prop where
  keeps : t.Keeps u
  noLink : ∀ q target, u.entry? q ≠ some (.link target)
  same : u.entry? p = t.entry? p

theorem Spares.refl (plain : t.Plain) (p : Place) : t.Spares p t :=
  ⟨⟨rfl, fun _ _ => rfl⟩, plain.noLink, rfl⟩

theorem Spares.plain (h : t.Spares p u) (plain : t.Plain) : u.Plain :=
  ⟨h.noLink, h.keeps.workDir ▸ plain.workDir⟩

theorem Spares.spelled_eq (h : t.Spares p u) (path : Bytes) : u.spelled path = t.spelled path := by
  rw [spelled, spelled, h.keeps.workDir]

theorem Spares.grown (h : t.Spares p u) (there : t.entry? p ≠ none) (grown : u.Grown v) :
    t.Spares p v := by
  refine ⟨h.keeps.trans grown.keeps, fun q target => ?_, ?_⟩
  · rcases grown.entry q with same | ⟨-, new⟩
    · rw [same]
      exact h.noLink q target
    · simp [new]
  · rcases grown.entry p with same | ⟨gone, -⟩
    · exact same.trans h.same
    · exact absurd (h.same.symm.trans gone) there

theorem Spares.within (h : t.Spares p u) (plain : t.Plain) (elsewhere : t.spelled path ≠ p)
    (within : u.Within (u.LeadsTo path) v) : t.Spares p v := by
  refine ⟨h.keeps.trans within.keeps, fun q target => ?_, ?_⟩
  · rcases within.entry q with same | ⟨-, -, leaf⟩
    · rw [same]
      exact h.noLink q target
    · intro link
      rw [link] at leaf
      cases leaf
  · rcases within.entry p with same | ⟨leads, -⟩
    · exact same.trans h.same
    · exact absurd ((h.spelled_eq path).symm.trans (leads.eq_spelled (h.plain plain)).symm) elsewhere

theorem Spares.readFile (plain : t.Plain) (h : t.Spares (t.spelled path) u)
    (read : t.readFile path = .ok content) : u.readFile path = .ok content := by
  obtain ⟨p, x, leads, file⟩ := readFile_eq_ok.mp read
  obtain rfl := leads.eq_spelled plain
  have same := h.same.trans file
  exact readFile_eq_ok.mpr ⟨_, x, leads.keeps h.keeps fun _ => by rw [same]; rfl, same⟩

end FileTree

/-- Tools that write only the path behind their `-o`. -/
def Toolbox.Confined (tools : Toolbox) : Prop :=
  ∀ (v : FileTree) (name out : Bytes) (rest : List Bytes),
    v.Within (v.LeadsTo out) (tools v ⟨name, bytes "-o" :: out :: rest⟩).1

theorem Toolbox.refused_confined : Toolbox.refused.Confined := fun v _ _ _ => .refl v _

/-- A disk that makes the directories that are asked for, or some of them when it refuses, and writes
only the file that a path leads to, whatever it leaves there. -/
structure Disk.Confined (disk : Disk) : Prop where
  makes : ∀ t path u, disk.makeDirs t path = (u, none) → t.makeDirs path = .ok u
  begins : ∀ t path u f, disk.makeDirs t path = (u, some f) → t.Grown u ∧ u.Grown (t.withDirs path)
  writes : ∀ (t : FileTree) (path content : Bytes),
    t.Within (t.LeadsTo path) (disk.write t path content).1

theorem Disk.host_confined : Disk.host.Confined := by
  refine ⟨fun t path u made => ?_, fun t path u f made => ?_, fun t path content => ?_⟩
  · simp only [host] at made
    split at made
    · next done =>
      obtain ⟨rfl, -⟩ := Prod.mk.inj made
      exact done
    · cases made
  · simp only [host] at made
    split at made
    · cases made
    · obtain ⟨rfl, -⟩ := Prod.mk.inj made
      exact ⟨FileTree.withDirs_grown, .refl _⟩
  · simp only [host]
    split
    · next written => exact (FileTree.Amended.of_writeFile written).within
    · exact .refl t _

theorem Disk.Confined.grown {disk : Disk} (h : disk.Confined) (t : FileTree) (path : Bytes) :
    t.Grown (disk.makeDirs t path).1 := by
  rcases made : disk.makeDirs t path with ⟨u, _ | f⟩
  · exact (FileTree.makeDirs_eq_ok (h.makes t path u made)).1
  · exact (h.begins t path u f made).1

/-- The disk and the tools of a site write where they are told to. -/
structure Site.Confined (site : Site) : Prop where
  disk : ∀ s, (site.disk s).Confined
  tools : site.tools.Confined
  late : site.late.Confined

theorem Toolbox.Confined.site {tools : Toolbox} (h : tools.Confined) : tools.site.Confined :=
  ⟨fun _ => Disk.host_confined, h, refused_confined⟩

theorem Site.Confined.now {site : Site} (h : site.Confined) (calledOff : Bool) :
    (site.now calledOff).Confined := by
  refine ⟨h.disk, ?_, h.late⟩
  cases calledOff
  · exact h.tools
  · exact h.late

section Steps
variable {o : BuildOptions} {site : Site} {t : FileTree} {p : Place} {sources : List Bytes}

theorem World.spares_writeListing {disk : Disk} {w : World} {path : Bytes} (confined : disk.Confined)
    (h : t.Spares p w.tree) (plain : t.Plain) (there : t.entry? p ≠ none)
    (elsewhere : t.spelled path ≠ p) (outDir content : Bytes) :
    t.Spares p (w.writeListing disk outDir path content).1.tree := by
  have home : t.Spares p (if outDir = [] then (w.tree, none) else disk.makeDirs w.tree outDir).1 := by
    split
    · exact h
    · exact h.grown there (confined.grown _ _)
  unfold writeListing
  split
  · next made =>
    rw [made] at home
    exact home
  · next u made =>
    rw [made] at home
    have written := home.within plain elsewhere (confined.writes u path content)
    split
    · next wrote =>
      rw [wrote] at written
      exact written
    · next wrote =>
      rw [wrote] at written
      exact written

namespace BuildUnit

structure Of (o : BuildOptions) (sources : List Bytes) (u : BuildUnit) : Prop where
  origin : ∃ s ∈ sources, u.origin = ofSource o.outDir s
  linked : u.stage = .written ∨ u.stage = .assembled → o.link = true

theorem Of.step {u : BuildUnit} (h : u.Of o sources) (site : Site) (w : World) :
    (u.step o site w).1.Of o sources := by
  refine ⟨(u.step_origin o site w).symm ▸ h.origin, fun stage => ?_⟩
  unfold BuildUnit.step at stage
  split at stage
  · split at stage <;> simp at stage
  · simp only at stage
    split at stage <;> simp at stage
  · split at stage
    · cases link : o.link with
      | true => rfl
      | false => simp [link] at stage
    · simp at stage
  · next before => exact h.linked (.inl before)
  · next before => exact h.linked (.inr before)
  · exact h.linked stage

theorem Of.mem_outputs {u : BuildUnit} (h : u.Of o sources) : ∃ s ∈ sources,
    u.asm ∈ outputs o s ∧ (o.link = true → u.obj ∈ outputs o s ∧ u.exe ∈ outputs o s) := by
  obtain ⟨s, mem, origin⟩ := h.origin
  have asm : u.asm = Path.asmPath s o.outDir := congrArg BuildUnit.asm origin
  have obj : u.obj = Path.objPath s o.outDir := congrArg BuildUnit.obj origin
  have exe : u.exe = Path.exePath s o.outDir := congrArg BuildUnit.exe origin
  refine ⟨s, mem, ?_, fun link => ?_⟩
  · rw [PrintLang.mem_outputs]
    exact .inl asm
  · rw [PrintLang.mem_outputs, PrintLang.mem_outputs]
    exact ⟨.inr ⟨link, .inl obj⟩, .inr ⟨link, .inr exe⟩⟩

/-- The step lemma: a step of a unit spares what none of the outputs spells. -/
theorem Of.spares {u : BuildUnit} {w : World} (unit : u.Of o sources) (confined : site.Confined)
    (plain : t.Plain) (there : t.entry? p ≠ none)
    (elsewhere : ∀ s ∈ sources, ∀ x ∈ outputs o s, t.spelled x ≠ p) (h : t.Spares p w.tree) :
    t.Spares p (u.step o site w).2.1.tree := by
  obtain ⟨s, mem, asm, tooled⟩ := unit.mem_outputs
  have asm := elsewhere s mem _ asm
  unfold BuildUnit.step
  split
  · split <;> exact h
  · simp only
    split <;> exact h
  · next listing _ =>
    have written := World.spares_writeListing (confined.disk u.source) h plain there asm o.outDir
      listing.render
    split
    · next same =>
      rw [same] at written
      exact written
    · next same =>
      rw [same] at written
      exact written
  · next stage =>
    have obj := elsewhere s mem _ (tooled (unit.linked (.inl stage))).1
    have called : t.Spares p (w.call site.tools (u.assemblerCall o)).1.tree :=
      h.within plain obj (confined.tools w.tree _ _ _)
    split
    · next call =>
      rw [call] at called
      exact called
    · next call =>
      rw [call] at called
      exact called
  · next stage =>
    have exe := elsewhere s mem _ (tooled (unit.linked (.inr stage))).2
    have called : t.Spares p (w.call site.tools (u.linkerCall o)).1.tree :=
      h.within plain exe (confined.tools w.tree _ _ _)
    split
    · next call =>
      rw [call] at called
      exact called
    · next call =>
      rw [call] at called
      exact called
  · exact h

end BuildUnit

/-- The run lemma. -/
theorem BuildState.run_spares {b : BuildState} (confined : site.Confined) (plain : t.Plain)
    (there : t.entry? p ≠ none)
    (elsewhere : ∀ s ∈ sources, ∀ x ∈ BuildUnit.outputs o s, t.spelled x ≠ p)
    (units : ∀ u ∈ b.units, u.Of o sources) (h : t.Spares p b.world.tree) (schedule : List Nat) :
    t.Spares p (b.run o site schedule).world.tree := by
  refine (run_preserves (P := fun c => (∀ u ∈ c.units, u.Of o sources) ∧ t.Spares p c.world.tree)
    (fun c i d ⟨units, h⟩ advance => ?_) schedule ⟨units, h⟩).2
  cases advance with
  | none => exact ⟨units, h⟩
  | @step u found =>
    have unit := units u (List.mem_of_getElem? found)
    refine ⟨fun v hv => ?_, unit.spares (confined.now c.calledOff) plain there elsewhere h⟩
    rcases List.mem_or_eq_of_mem_set hv with old | rfl
    · exact units v old
    · exact unit.step _ c.world
  | @stop u found =>
    have unit := units u (List.mem_of_getElem? found)
    refine ⟨fun v hv => ?_, h⟩
    rcases List.mem_or_eq_of_mem_set hv with old | rfl
    · exact units v old
    · exact ⟨unit.origin, by simp⟩

end Steps

section Names
variable {path : Bytes}

theorem Path.splitOn_afterSlash (path : Bytes) :
    ∃ before, Bytes.splitOn slash path = before ++ [afterSlash path] := by
  have name := Bytes.splitOn_of_not_mem (slash_not_mem_afterSlash path)
  have whole : path = (path.reverse.dropWhile (· != slash)).reverse ++ afterSlash path := by
    rw [afterSlash, ← List.reverse_append, List.takeWhile_append_dropWhile, List.reverse_reverse]
  cases rest : path.reverse.dropWhile (· != slash) with
  | nil =>
    rw [rest] at whole
    exact ⟨[], by rw [← name]; exact congrArg _ whole⟩
  | cons b rest' =>
    have at_slash : b = slash := by
      have fails := List.head?_dropWhile_not (· != slash) path.reverse
      rw [rest] at fails
      simpa using fails
    rw [rest, at_slash, List.reverse_cons, List.append_assoc, List.singleton_append] at whole
    refine ⟨Bytes.splitOn slash rest'.reverse, ?_⟩
    rw [← name, ← Bytes.splitOn_append]
    exact congrArg _ whole

theorem Path.afterSlash_of_isSource (h : isSource path = true) :
    (afterSlash path).getLast? = some 116 := by
  have same : ext path = sourceExt := by simpa [isSource] using h
  have last : (ext path).getLast? = some 116 := by
    rw [same]
    decide
  unfold ext at last
  simp only at last
  split at last
  · next i _ =>
    rw [← List.take_append_drop i (afterSlash path), List.getLast?_append, last]
    rfl
  · cases last

theorem FileTree.spelled_isSource (t : FileTree) (h : Path.isSource path = true) :
    ∃ above, t.spelled path = above ++ [Path.afterSlash path] := by
  obtain ⟨before, split⟩ := Path.splitOn_afterSlash path
  have name := Path.IsName.of_last (Path.afterSlash_of_isSource h) (by decide)
    (Path.slash_not_mem_afterSlash path)
  rw [spelled, split, List.foldl_append, List.foldl_cons, List.foldl_nil, name.enter_eq]
  exact ⟨_, rfl⟩

/-- A file that ends like a source is no listing and no object. -/
theorem FileTree.spelled_made_ne (t : FileTree) (h : Path.isSource path = true) (source outDir : Bytes)
    {extension : Bytes} (made : extension ∈ madeExtensions) :
    t.spelled (Path.sibling source outDir extension) ≠ t.spelled path := by
  intro same
  have last := Path.afterSlash_of_isSource h
  obtain ⟨above, named⟩ := t.spelled_isSource h
  rw [t.spelled_made source outDir made, named] at same
  have names := List.singleton_inj.mp (List.append_inj' same rfl).2
  obtain ⟨-, b, ends, -, ne⟩ := last_made made
  rw [← names, List.getLast?_append, ends] at last
  exact ne (Option.some.inj last)

end Names

/-- An output of the build falls on a file. -/
def BuildOptions.Endangers (o : BuildOptions) (t : FileTree) (sources : List Bytes) (file : Bytes) :
    Prop :=
  ∃ s ∈ sources, ∃ x ∈ BuildUnit.outputs o s, t.spelled x = t.spelled file

theorem BuildOptions.endangers_source_iff {o : BuildOptions} {t : FileTree} {sources : List Bytes}
    {file : Bytes} (h : Path.isSource file = true) : o.Endangers t sources file ↔
      o.link = true ∧ ∃ s ∈ sources, t.spelled (Path.exePath s o.outDir) = t.spelled file := by
  constructor
  · rintro ⟨s, mem, x, hx, same⟩
    rcases mem_outputs.mp hx with rfl | ⟨link, rfl | rfl⟩
    · exact absurd same (t.spelled_made_ne h s o.outDir asm_mem_made)
    · exact absurd same (t.spelled_made_ne h s o.outDir obj_mem_made)
    · exact ⟨link, s, mem, same⟩
  · rintro ⟨link, s, mem, same⟩
    exact ⟨s, mem, _, mem_outputs.mpr (.inr ⟨link, .inr rfl⟩), same⟩

/-- In a tree without links, and with tools that write only behind `-o`, a build keeps every file that
none of its outputs falls on, in whatever order its steps are taken and however they end. On a file that
ends like a source only executables can fall. -/
theorem build_keeps_files (o : BuildOptions) (tools : Toolbox) (t : FileTree) (sources : List Bytes)
    (cancel : Bool) (plain : t.Plain) (confined : tools.Confined) {file text : Bytes}
    (read : t.readFile file = .ok text) :
    (¬ o.Endangers t sources file →
      (build o tools t sources cancel).world.tree.readFile file = .ok text ∧
      ∀ schedule, ((BuildState.start o.outDir sources t cancel).run o tools
        schedule).world.tree.readFile file = .ok text) ∧
    (Path.isSource file = true → (o.Endangers t sources file ↔
      o.link = true ∧ ∃ s ∈ sources, t.spelled (Path.exePath s o.outDir) = t.spelled file)) := by
  refine ⟨fun safe => ?_, BuildOptions.endangers_source_iff⟩
  have there : t.entry? (t.spelled file) ≠ none := by
    obtain ⟨p, x, leads, entry⟩ := FileTree.readFile_eq_ok.mp read
    rw [← leads.eq_spelled plain, entry]
    exact Option.some_ne_none _
  have units : ∀ u ∈ (BuildState.start o.outDir sources t cancel).units, u.Of o sources := by
    intro u hu
    obtain ⟨s, mem, rfl⟩ := List.mem_map.mp hu
    exact ⟨⟨s, mem, rfl⟩, by simp [BuildUnit.ofSource]⟩
  have runs (schedule : List Nat) : ((BuildState.start o.outDir sources t cancel).run o tools
      schedule).world.tree.readFile file = .ok text :=
    (BuildState.run_spares confined.site plain there (fun s mem x hx same => safe ⟨s, mem, x, hx, same⟩)
      units (.refl plain _) schedule).readFile plain read
  refine ⟨?_, runs⟩
  rcases build_cases o tools t sources cancel with ⟨f, refused, -⟩ | ⟨-, -, ends⟩
  · rw [refused]
    exact read
  · rw [ends]
    exact runs _

theorem stampTools_confined : stampTools.Confined := by
  intro v name out rest
  unfold stampTools
  split
  · next written => exact (FileTree.Amended.of_writeFile written).within
  · exact (FileTree.Amended.refl v _).within

theorem mixedSources_kept :
    mixedTree.Plain ∧ stampTools.Confined ∧ ∀ s ∈ mixedSources, ∃ text,
      mixedTree.readFile s = .ok text ∧
      (build linkingOptions stampTools mixedTree mixedSources false).world.tree.readFile s =
        .ok text := by
  refine ⟨mixedTree_plain, stampTools_confined, fun s mem => ?_⟩
  have read : ∀ s ∈ mixedSources, mixedTree.readFile s = .ok (mixedTree.content s) := by
    decide +kernel
  have source : ∀ s ∈ mixedSources, Path.isSource s = true := by decide +kernel
  have apart : ∀ s ∈ mixedSources, ∀ s' ∈ mixedSources,
      mixedTree.spelled (Path.exePath s' linkingOptions.outDir) ≠ mixedTree.spelled s := by
    decide +kernel
  have keeps := build_keeps_files linkingOptions stampTools mixedTree mixedSources false
    mixedTree_plain stampTools_confined (read s mem)
  refine ⟨_, read s mem, (keeps.1 fun endangered => ?_).1⟩
  obtain ⟨-, s', mem', same⟩ := (keeps.2 (source s mem)).mp endangered
  exact apart s mem s' mem' same

/-- A source that is named like a listing. -/
def listingTree : FileTree where
  workDir := []
  entries := [([bytes "x.asm"], .file (bytes "println(1)") false)]

/-- A source with the extension of sources twice, beside one of the name in front of it. -/
def twiceExtendedTree : FileTree where
  workDir := []
  entries := [([bytes "a.kt"], .file (bytes "println(1)") false),
    ([bytes "a.kt.kt"], .file (bytes "println(2)") false)]

/-- Nothing is refused and nothing fails, but a source is lost: to its own listing without linking, and
to the executable of another with it. -/
theorem source_lost_to_output :
    let r := build plainOptions stampTools listingTree [bytes "x.asm"] false
    let r' := build linkingOptions stampTools twiceExtendedTree [bytes "a.kt", bytes "a.kt.kt"] false
    (listingTree.Plain ∧ twiceExtendedTree.Plain ∧ stampTools.Confined) ∧
    (listingTree.readFile (bytes "x.asm") = .ok (bytes "println(1)") ∧ r.failure = none ∧
      r.world.tree.readFile (bytes "x.asm") ≠ .ok (bytes "println(1)")) ∧
    twiceExtendedTree.readFile (bytes "a.kt") = .ok (bytes "println(1)") ∧ r'.failure = none ∧
      r'.world.tree.readFile (bytes "a.kt") = .ok (bytes "made") := by
  refine ⟨⟨.of_entries (by simp [listingTree]) (by simp [listingTree]), ?_, stampTools_confined⟩, ?_⟩
  · exact .of_entries (by simp [twiceExtendedTree]) (by simp [twiceExtendedTree])
  · decide +kernel

end PrintLang
