import PrintLang.Proofs.Build.Announced
import PrintLang.Proofs.Build.Inputs
import PrintLang.Proofs.Build.InTurn

/-!
# What a failure stops

The first failure of the system or of a tool ends a sequential build: it is what the build returns, the
units before it are built as they are without it, and the units behind it are not begun. Until then the
build has made the directory for its outputs and written the outputs of units that compiled.
-/

set_option autoImplicit false

namespace PrintLang

section Files
variable {o : BuildOptions} {disk : Disk} {site : Site} {tools : Toolbox} {t v v' : FileTree}
  {s : Bytes} {us : List BuildUnit} {r : Program × Listing}

/-- The directory for the outputs is made, when one is named. -/
def BuildOptions.Home (o : BuildOptions) (t v : FileTree) : Prop :=
  (if o.outDir = [] then .ok t else t.makeDirs o.outDir) = .ok v

def BuildOptions.withHome (o : BuildOptions) (t : FileTree) : FileTree :=
  if o.outDir = [] then t else t.withDirs o.outDir

theorem BuildOptions.withHome_grown (o : BuildOptions) (t : FileTree) : t.Grown (o.withHome t) := by
  unfold withHome
  split
  · exact .refl t
  · exact FileTree.withDirs_grown

theorem BuildOptions.Home.eq (h : o.Home t v) : v = o.withHome t ∧ v = o.prepared t := by
  unfold Home at h
  refine ⟨?_, by rw [prepared, h]⟩
  unfold withHome
  split at h
  · next here =>
    cases h
    rw [if_pos here]
  · next elsewhere =>
    rw [if_neg elsewhere]
    exact FileTree.makeDirs_eq_withDirs h

theorem BuildOptions.home_of_makeHome (confined : disk.Confined)
    (h : o.makeHome disk t = (v, none)) : o.Home t v := by
  unfold makeHome at h
  unfold Home
  split at h
  · next here =>
    cases h
    rw [if_pos here]
  · next elsewhere =>
    rw [if_neg elsewhere]
    exact confined.makes _ _ _ h

/-- A directory that is refused may have been made in part. -/
theorem BuildOptions.begun_of_makeHome (confined : disk.Confined) {f : Failure}
    (h : o.makeHome disk t = (v, some f)) : t.Grown v ∧ v.Grown (o.withHome t) := by
  unfold makeHome at h
  unfold withHome
  split at h
  · cases h
  · next elsewhere =>
    rw [if_neg elsewhere]
    exact confined.begins _ _ _ _ h

/-- The places where the units that have compiled may write. -/
def BuildOptions.WrittenFor (o : BuildOptions) (t : FileTree) (us : List BuildUnit) (q : Place) : Prop :=
  ∃ u ∈ us, u.compiled = true ∧ o.Own t u.source q

def BuildOptions.Wrote (o : BuildOptions) (t : FileTree) (us : List BuildUnit) (v : FileTree) : Prop :=
  o.Home t (o.prepared t) ∧ (o.prepared t).Within (o.WrittenFor t us) v

/-- Nothing has changed in the files, or only what units have written. -/
def BuildOptions.Since (o : BuildOptions) (t : FileTree) (us : List BuildUnit) (v : FileTree) : Prop :=
  v = t ∨ o.Wrote t us v

/-- What may differ after a build: directories on the way to the outputs, and files where units write. -/
def BuildOptions.Leaves (o : BuildOptions) (t : FileTree) (us : List BuildUnit) (v : FileTree) : Prop :=
  ∀ q, v.entry? q = t.entry? q ∨
    (t.entry? q = none ∧ v.entry? q = some .directory ∧
      FileTree.entry? (o.withHome t) q = some .directory) ∨
    (o.WrittenFor t us q ∧ FileTree.isLeaf (t.entry? q) = true ∧ FileTree.isLeaf (v.entry? q) = true)

/-- Whatever part of the directory has been made, nothing else has changed. -/
theorem BuildOptions.leaves_of_begun (us : List BuildUnit) (h : t.Grown v)
    (h' : v.Grown (o.withHome t)) : o.Leaves t us v := by
  intro q
  rcases h.entry q with same | ⟨gone, made⟩
  · exact .inl same
  · rcases h'.entry q with same | ⟨none, -⟩
    · exact .inr (.inl ⟨gone, made, same.trans made⟩)
    · cases made.symm.trans none

theorem BuildOptions.Since.leaves (h : o.Since t us v) : o.Leaves t us v := by
  rcases h with rfl | ⟨made, within⟩
  · exact fun q => .inl rfl
  · obtain ⟨same, -⟩ := made.eq
    rw [same] at within
    intro q
    rcases BuildOptions.leaves_of_begun us (o.withHome_grown t) (.refl _) q with
      old | ⟨gone, dir, -⟩ | ⟨written, leaf, leaf'⟩
    · rcases within.entry q with kept | ⟨written, leaf, leaf'⟩
      · exact .inl (kept.trans old)
      · exact .inr (.inr ⟨written, old ▸ leaf, leaf'⟩)
    · rcases within.entry q with kept | ⟨-, leaf, -⟩
      · exact .inr (.inl ⟨gone, kept.trans dir, dir⟩)
      · rw [dir] at leaf
        cases leaf
    · exact .inr (.inr ⟨written, leaf, (within.isLeaf_eq q).trans leaf'⟩)

theorem BuildOptions.WrittenFor.append {q : Place} (h : o.WrittenFor t us q) (more : List BuildUnit) :
    o.WrittenFor t (us ++ more) q := by
  obtain ⟨u, mem, compiled, own⟩ := h
  exact ⟨u, List.mem_append_left _ mem, compiled, own⟩

theorem BuildOptions.Wrote.append (h : o.Wrote t us v) (more : List BuildUnit) :
    o.Wrote t (us ++ more) v :=
  ⟨h.1, h.2.mono fun _ written => written.append more⟩

theorem BuildOptions.Since.append (h : o.Since t us v) (more : List BuildUnit) :
    o.Since t (us ++ more) v :=
  h.imp id fun wrote => wrote.append more

/-- The directory for the outputs is made once. -/
theorem BuildOptions.Since.home (h : o.Since t us v) : o.Home v v ∧ o.Wrote t us v ∨ v = t := by
  rcases h with rfl | ⟨made, within⟩
  · exact .inr rfl
  · refine .inl ⟨?_, made, within⟩
    unfold Home at made ⊢
    split at made
    · next here => rw [if_pos here]
    · next elsewhere =>
      rw [if_neg elsewhere]
      exact FileTree.makeDirs_of_stat (within.stat_directory (FileTree.makeDirs_eq_ok made).2)

theorem BuildOptions.Since.wrote (h : o.Since t us v) (home : o.Home v v') : o.Wrote t us v' := by
  rcases h.home with ⟨same, wrote⟩ | rfl
  · obtain rfl : v = v' := Except.ok.inj (same.symm.trans home)
    exact wrote
  · obtain ⟨-, rfl⟩ := home.eq
    exact ⟨home, .refl _ _⟩

/-- A directory that is there already is refused without a change. -/
theorem BuildOptions.Since.leaves_of_begun (h : o.Since t us v) (begun : v.Grown v')
    (begun' : v'.Grown (o.withHome v)) : o.Leaves t us v' := by
  rcases h.home with ⟨same, -⟩ | rfl
  · rw [← same.eq.1] at begun'
    have kept (q : Place) : v'.entry? q = v.entry? q := by
      rcases begun.entry q with same | ⟨gone, made⟩
      · exact same
      · rcases begun'.entry q with same | ⟨none, -⟩
        · exact same.symm
        · exact none.trans gone.symm
    intro q
    rw [kept q]
    exact h.leaves q
  · exact PrintLang.BuildOptions.leaves_of_begun us begun begun'

/-- A unit that has compiled writes one of its outputs. -/
theorem BuildOptions.Wrote.write (h : o.Wrote t us v) {u : BuildUnit} (mem : u ∈ us)
    (compiled : u.compiled = true) {x : Bytes} (hx : x ∈ BuildUnit.outputs o u.source)
    (within : v.Within (v.LeadsTo x) v') : o.Wrote t us v' :=
  ⟨h.1, h.2.trans within fun _ leads => ⟨u, mem, compiled, x, hx, h.2.leadsTo_iff.mp leads⟩⟩

/-- A listing is written, or a part of it. -/
theorem BuildOptions.Since.listing (h : o.Since t us v) (confined : disk.Confined)
    (home : o.makeHome disk v = (v', none)) {x : FileTree} {f : Option Failure}
    (write : disk.write v' (Path.asmPath s o.outDir) r.2.render = (x, f)) :
    o.Wrote t (us ++ [.closed o s (some (.ok r))]) x := by
  have before := (h.wrote (BuildOptions.home_of_makeHome confined home)).append
    [.closed o s (some (.ok r))]
  have within := confined.writes v' (Path.asmPath s o.outDir) r.2.render
  rw [write] at within
  exact before.write (List.mem_append_right _ (List.mem_singleton_self _)) rfl (asm_mem_outputs o s)
    within

theorem BuildOptions.Lists.wrote (h : o.Lists disk s v r v') (since : o.Since t us v)
    (confined : disk.Confined) : o.Wrote t (us ++ [.closed o s (some (.ok r))]) v' := by
  obtain ⟨-, w, home, write⟩ := h
  exact since.listing confined home write

theorem BuildOptions.Wrote.tool (confined : tools.Confined) (h : o.Wrote t us v) {u : BuildUnit}
    (mem : u ∈ us) (compiled : u.compiled = true) {x : Bytes} (hx : x ∈ BuildUnit.outputs o u.source)
    {name : Bytes} {rest : List Bytes} {f : Option Failure}
    (called : tools v ⟨name, bytes "-o" :: x :: rest⟩ = (v', f)) : o.Wrote t us v' := by
  have within := confined v name x rest
  rw [called] at within
  exact h.write mem compiled hx within

theorem BuildOptions.Lists.assembled (h : o.Lists (site.disk s) s v r v') (since : o.Since t us v)
    (confined : site.Confined) (link : o.link = true) {x : FileTree} {f : Option Failure}
    (assembler : site.tools v' ((BuildUnit.ofSource o.outDir s).assemblerCall o) = (x, f)) :
    o.Wrote t (us ++ [.closed o s (some (.ok r))]) x :=
  (h.wrote since (confined.disk s)).tool confined.tools
    (List.mem_append_right _ (List.mem_singleton_self _)) rfl
    (mem_outputs.mpr (.inr ⟨link, .inl rfl⟩)) assembler

theorem BuildOptions.Lists.linked (h : o.Lists (site.disk s) s v r v') (since : o.Since t us v)
    (confined : site.Confined) (link : o.link = true) {x y : FileTree} {f f' : Option Failure}
    (assembler : site.tools v' ((BuildUnit.ofSource o.outDir s).assemblerCall o) = (x, f))
    (linker : site.tools x ((BuildUnit.ofSource o.outDir s).linkerCall o) = (y, f')) :
    o.Wrote t (us ++ [.closed o s (some (.ok r))]) y :=
  (h.assembled since confined link assembler).tool confined.tools
    (List.mem_append_right _ (List.mem_singleton_self _)) rfl
    (mem_outputs.mpr (.inr ⟨link, .inr rfl⟩)) linker

/-- The step lemma: what the build of one source changes in the files. -/
theorem BuildUnit.Ends.since {w w' : World} {u : BuildUnit} {f : Option Failure}
    (h : Ends o site s w u w' f) (confined : site.Confined) (since : o.Since t us w.tree) :
    o.Since t (us ++ [u]) w'.tree ∨ f ≠ none ∧ o.Leaves t (us ++ [u]) w'.tree := by
  have disk := confined.disk s
  cases h with
  | unread => exact .inl (since.append _)
  | refused => exact .inl (since.append _)
  | homeless _ _ home =>
    obtain ⟨begun, begun'⟩ := BuildOptions.begun_of_makeHome disk home
    exact .inr ⟨nofun, (since.append _).leaves_of_begun begun begun'⟩
  | unwritten _ _ home write => exact .inl (.inr (since.listing disk home write))
  | written lists => exact .inl (.inr (lists.wrote since disk))
  | unassembled lists link assembler =>
    exact .inl (.inr (lists.assembled since confined link assembler))
  | unlinked lists link assembler linker =>
    exact .inl (.inr (lists.linked since confined link assembler linker))
  | linked lists link assembler linker =>
    exact .inl (.inr (lists.linked since confined link assembler linker))

/-- The run lemma. -/
theorem BuildUnit.InTurn.since {w w' : World} {sources : List Bytes} {past : List BuildUnit}
    (h : InTurn o site w sources us w') (confined : site.Confined) (since : o.Since t past w.tree) :
    o.Since t (past ++ us) w'.tree := by
  induction h generalizing past with
  | nil => rwa [List.append_nil]
  | @cons _ _ _ _ _ u us head _ ih =>
    have first := (head.since confined since).resolve_right fun fails => fails.1 rfl
    have rest := ih first
    rwa [List.append_assoc] at rest

end Files

open BuildUnit in
/-- What a build leaves behind in which the unit of `s` is the first to fail: the failure alone, with
the units before it closed, and none behind it begun. -/
structure BuildOptions.Halts (o : BuildOptions) (site : Site) (t : FileTree)
    (before : List Bytes) (s : Bytes) (after : List Bytes) (us : List BuildUnit) (u : BuildUnit)
    (w w' : World) (f : Failure) : Prop where
  result : build o site t (before ++ s :: after) false =
    ⟨us ++ u :: after.map (closed o · none), w', some f⟩
  /-- The units before are built as they are in front of anything else, or of nothing. -/
  earlier : ∀ rest, OutputConflict.find? t [] ((before ++ rest).map (ofSource o.outDir)) = none →
    (BuildState.start o.outDir (before ++ rest) t false).run o site
        (BuildState.sequential before.length) =
      ⟨us ++ rest.map (ofSource o.outDir), w, false, none⟩ ∧
    (build o site t (before ++ rest) false).units.take before.length = us ∧
    w.calls <+: (build o site t (before ++ rest) false).world.calls
  alone : build o site t before false =
    ⟨us, w, Failure.joinAll? (us.filterMap fun u => u.error?.map CompileError.failure)⟩
  /-- At no time has a unit behind it been read. -/
  later : ∀ schedule, schedule <+: BuildState.sequential (before ++ s :: after).length →
    ∀ i s', after[i]? = some s' → ∃ v,
      ((BuildState.start o.outDir (before ++ s :: after) t false).run o site
        schedule).units[before.length + 1 + i]? = some v ∧
      (v = ofSource o.outDir s' ∨ v = closed o s' none)
  files : site.Confined → o.Leaves t (us ++ [u]) w'.tree

section Halts
variable {o : BuildOptions} {site : Site} {t : FileTree} {before after sources : List Bytes}
  {s : Bytes} {us : List BuildUnit} {u : BuildUnit} {w w' : World} {f : Failure}

theorem build_eq (group : site.group.OneByOne) (fit : o.target.fault? = none)
    (passes : OutputConflict.find? t [] (sources.map (BuildUnit.ofSource o.outDir)) = none) :
    let b := (BuildState.start o.outDir sources t false).run o site
      (BuildState.sequential sources.length)
    build o site t sources false = ⟨b.units, b.world, b.result⟩ := by
  rcases build_cases o site t sources false with ⟨_, -, fault | ⟨-, conflict⟩⟩ | ⟨-, -, runs⟩
  · exact absurd fit fault
  · exact absurd passes conflict
  · rw [group.order] at runs
    exact runs

/-- The turns of the first units, whatever comes behind them. -/
theorem BuildState.run_before (group : site.group.OneByOne)
    (turns : BuildUnit.InTurn o site ⟨t, []⟩ before us w)
    (rest : List Bytes) :
    (start o.outDir (before ++ rest) t false).run o site (sequential before.length) =
      ⟨us ++ rest.map (.ofSource o.outDir), w, false, none⟩ := by
  rw [sequential_eq_turns, start, List.map_append]
  exact run_inTurn group turns [] (rest.map (.ofSource o.outDir))

theorem build_inTurn (group : site.group.OneByOne) (fit : o.target.fault? = none)
    (passes : OutputConflict.find? t [] (sources.map (BuildUnit.ofSource o.outDir)) = none)
    (turns : BuildUnit.InTurn o site ⟨t, []⟩ sources us w) : build o site t sources false =
      ⟨us, w, Failure.joinAll? (us.filterMap fun u => u.error?.map CompileError.failure)⟩ := by
  have run := BuildState.run_before group turns []
  rw [List.append_nil, List.map_nil, List.append_nil] at run
  rw [build_eq group fit passes, run]
  rfl

theorem BuildState.run_failed (group : site.group.OneByOne)
    (turns : BuildUnit.InTurn o site ⟨t, []⟩ before us w)
    (fails : BuildUnit.Ends o site s w u w' (some f)) (rest : List Bytes) :
    (start o.outDir (before ++ s :: rest) t false).run o site (sequential (before.length + 1)) =
      ⟨us ++ u :: rest.map (.ofSource o.outDir), w', true, some f⟩ := by
  have turn := run_turn group fails us (rest.map (.ofSource o.outDir))
  rw [turns.length_eq] at turn
  have last : BuildState.turns before.length 1 = List.replicate stepsPerUnit before.length := by
    simp [BuildState.turns]
  rw [sequential_add, run_append, run_before group turns, last]
  exact turn

theorem length_around (before after : List Bytes) (s : Bytes) :
    (before ++ s :: after).length = before.length + 1 + after.length := by
  rw [List.length_append, List.length_cons, Nat.add_assoc, Nat.add_comm 1]

theorem BuildState.run_through (group : site.group.OneByOne)
    (turns : BuildUnit.InTurn o site ⟨t, []⟩ before us w)
    (fails : BuildUnit.Ends o site s w u w' (some f)) (after : List Bytes) :
    (start o.outDir (before ++ s :: after) t false).run o site
        (sequential (before ++ s :: after).length) =
      ⟨us ++ u :: after.map (BuildUnit.closed o · none), w', true, some f⟩ := by
  have stopped := run_stopped (o := o) (w := w') group f (us ++ [u]) after
  rw [List.length_append, turns.length_eq, List.append_assoc, List.append_assoc] at stopped
  rw [length_around, sequential_add, run_append, run_failed group turns fails]
  exact stopped

theorem OutputConflict.passes_sublist (sub : before.Sublist sources)
    (passes : find? t [] (sources.map (BuildUnit.ofSource o.outDir)) = none) :
    find? t [] (before.map (BuildUnit.ofSource o.outDir)) = none := by
  obtain ⟨-, apart⟩ := find?_eq_none.mp passes
  exact find?_eq_none.mpr ⟨fun _ _ => rfl, apart.sublist (sub.map _)⟩

/-- Behind the unit that fails the steps only stop units, at whatever time one looks. -/
theorem BuildState.later_unstarted (group : site.group.OneByOne)
    (turns : BuildUnit.InTurn o site ⟨t, []⟩ before us w)
    (fails : BuildUnit.Ends o site s w u w' (some f)) {schedule : List Nat}
    (part : schedule <+: sequential (before ++ s :: after).length) {i : Nat} {s' : Bytes}
    (found : after[i]? = some s') : ∃ v,
      ((start o.outDir (before ++ s :: after) t false).run o site
        schedule).units[before.length + 1 + i]? = some v ∧
      (v = .ofSource o.outDir s' ∨ v = .closed o s' none) := by
  rw [length_around, sequential_add] at part
  rcases List.prefix_or_prefix_of_prefix part (List.prefix_append _ _) with early | late
  · -- the schedule does not come as far as this unit
    have untouched : before.length + 1 + i ∉ schedule := by
      intro mem
      have mem := early.subset mem
      rw [sequential_eq_turns] at mem
      have := (mem_turns mem).2
      omega
    refine ⟨_, ?_, .inl rfl⟩
    rw [run_of_notMem untouched, start, List.getElem?_map, List.getElem?_append_right (by omega)]
    have index : before.length + 1 + i - before.length = i + 1 := by omega
    rw [index, List.getElem?_cons_succ, found, Option.map_some]
  · obtain ⟨more, rfl⟩ := late
    rw [run_append, run_failed group turns fails]
    refine run_calledOff rfl more ?_
    rw [List.getElem?_append_right (by rw [turns.length_eq]; omega), turns.length_eq]
    have index : before.length + 1 + i - before.length = i + 1 := by omega
    rw [index, List.getElem?_cons_succ, List.getElem?_map, found, Option.map_some]

theorem build_halts (group : site.group.OneByOne) (fit : o.target.fault? = none)
    (passes : OutputConflict.find? t []
      ((before ++ s :: after).map (BuildUnit.ofSource o.outDir)) = none)
    (turns : BuildUnit.InTurn o site ⟨t, []⟩ before us w)
    (fails : BuildUnit.Ends o site s w u w' (some f)) :
    o.Halts site t before s after us u w w' f := by
  refine ⟨?_, fun rest passes' => ?_, ?_, fun schedule part i s' found => ?_, fun confined => ?_⟩
  · rw [build_eq group fit passes, BuildState.run_through group turns fails]
    rfl
  · have first := BuildState.run_before group turns rest
    refine ⟨first, ?_⟩
    rw [build_eq group fit passes', List.length_append, BuildState.sequential_add, BuildState.run_append,
      first]
    refine ⟨(BuildState.take_run fun j mem => (BuildState.mem_turns mem).1).trans ?_,
      BuildState.calls_prefix (b := ⟨_, w, false, none⟩) _⟩
    rw [← turns.length_eq]
    exact List.take_left
  · exact build_inTurn group fit (OutputConflict.passes_sublist (List.sublist_append_left _ _) passes) turns
  · exact BuildState.later_unstarted group turns fails part found
  · have before : o.Since t ([] ++ us) w.tree := turns.since confined (.inl rfl)
    rcases fails.since confined before with since | ⟨-, leaves⟩
    · exact since.leaves
    · exact leaves

theorem sequential_build_halts (o : BuildOptions) (site : Site) (t : FileTree)
    (sources : List Bytes) (group : site.group.OneByOne) (fit : o.target.fault? = none)
    (passes : OutputConflict.find? t [] (sources.map (BuildUnit.ofSource o.outDir)) = none) :
    ((∃ us w, BuildUnit.InTurn o site ⟨t, []⟩ sources us w ∧
        (build o site t sources false).failure =
          Failure.joinAll? (us.filterMap fun u => u.error?.map CompileError.failure)) ∨
      ∃ before s after us w u w' f, sources = before ++ s :: after ∧
        BuildUnit.InTurn o site ⟨t, []⟩ before us w ∧
        BuildUnit.Ends o site s w u w' (some f)) ∧
    ∀ before s after us w u w' f, sources = before ++ s :: after →
      BuildUnit.InTurn o site ⟨t, []⟩ before us w →
      BuildUnit.Ends o site s w u w' (some f) →
      o.Halts site t before s after us u w w' f := by
  refine ⟨?_, ?_⟩
  · rcases BuildUnit.inTurn_total o site ⟨t, []⟩ sources with ⟨us, w, turns⟩ | first
    · exact .inl ⟨us, w, turns, by rw [build_inTurn group fit passes turns]⟩
    · exact .inr first
  · rintro before s after us w u w' f rfl turns fails
    exact build_halts group fit passes turns fails

end Halts

theorem brokenTools_confined : brokenTools.Confined := fun v _ _ _ => .refl v _

def noRoom (path : Bytes) : Failure :=
  .plain none (bytes "write " ++ path ++ bytes ": no space left on device")

/-- A disk on which there is room for half of what is written. -/
def fullDisk : Disk :=
  { Disk.host with
    write := fun t path content =>
      ((Disk.host.write t path (content.take (content.length / 2))).1, some (noRoom path)) }

def fullSite : Site := { brokenTools.site with disk := fun _ => fullDisk }

theorem fullSite_confined : fullSite.Confined :=
  ⟨fun _ => ⟨Disk.host_confined.makes, Disk.host_confined.begins,
      fun t path _ => Disk.host_confined.writes t path _⟩,
    brokenTools_confined, Toolbox.refused_confined⟩

theorem mixedTree_compiles :
    ∃ r, compile (bytes "a.kt") (bytes "println(1)") linkingOptions.target = .ok r := by
  have good : (compile (bytes "a.kt") (bytes "println(1)") linkingOptions.target).isOk = true := by
    decide +kernel
  cases compiles : compile (bytes "a.kt") (bytes "println(1)") linkingOptions.target with
  | ok r => exact ⟨r, rfl⟩
  | error e =>
    rw [compiles] at good
    cases good

theorem mixedTree_refused (site : Site)
    (read : (site.disk (bytes "b.kt")).read mixedTree (bytes "b.kt") = .ok (bytes "@")) :
    ∃ us, BuildUnit.InTurn linkingOptions site ⟨mixedTree, []⟩ [bytes "b.kt"] us ⟨mixedTree, []⟩ := by
  have bad : (compile (bytes "b.kt") (bytes "@") linkingOptions.target).isOk = false := by
    decide +kernel
  cases refused : compile (bytes "b.kt") (bytes "@") linkingOptions.target with
  | error e => exact ⟨_, .cons (.refused read refused) .nil⟩
  | ok r =>
    rw [refused] at bad
    cases bad

/-- One source does not compile, and the last is not there. The assembler fails for the one between, or
there is no room for its listing, and half of it is left. -/
theorem failed_unit_halts :
    let before := [bytes "b.kt"]
    let after := [bytes "c.kt"]
    let f := .context (bytes "assembling a.asm") (.plain none (bytes "exit status 1"))
    let f' := .context (bytes "failed to write listing a.asm") (noRoom (bytes "a.asm"))
    (brokenTools.Confined ∧ ∃ us w u w',
      BuildUnit.InTurn linkingOptions brokenTools ⟨mixedTree, []⟩ before us w ∧
      BuildUnit.Ends linkingOptions brokenTools (bytes "a.kt") w u w' (some f) ∧
      linkingOptions.Halts brokenTools mixedTree before (bytes "a.kt") after us u w w' f) ∧
    fullSite.Confined ∧ ∃ us w u w',
      BuildUnit.InTurn linkingOptions fullSite ⟨mixedTree, []⟩ before us w ∧
      BuildUnit.Ends linkingOptions fullSite (bytes "a.kt") w u w' (some f') ∧
      linkingOptions.Halts fullSite mixedTree before (bytes "a.kt") after us u w w' f' ∧
      ∃ l : Listing,
        w'.tree.readFile (bytes "a.asm") = .ok (l.render.take (l.render.length / 2)) := by
  intro before after f f'
  obtain ⟨r, compiles⟩ := mixedTree_compiles
  have leads : mixedTree.LeadsTo (bytes "a.asm") [bytes "a.asm"] := by decide +kernel
  refine ⟨⟨brokenTools_confined, ?_⟩, fullSite_confined, ?_⟩
  · obtain ⟨us, turns⟩ := mixedTree_refused brokenTools (by decide +kernel)
    obtain ⟨x, written, -⟩ := FileTree.writeFile_amended leads (by decide +kernel) r.2.render
    have wrote : Disk.host.write mixedTree (bytes "a.asm") r.2.render = (x, none) := by
      simp only [Disk.host, written]
    have fails : BuildUnit.Ends linkingOptions brokenTools (bytes "a.kt") ⟨mixedTree, []⟩ _ _
        (some f) :=
      .unassembled ⟨⟨_, by decide +kernel, compiles⟩, mixedTree, rfl, wrote⟩ rfl rfl
    have halts := (sequential_build_halts linkingOptions brokenTools mixedTree
      (before ++ bytes "a.kt" :: after) Group.host_oneByOne (by decide +kernel)
      (by decide +kernel)).2
    exact ⟨_, _, _, _, turns, fails, halts _ _ _ _ _ _ _ _ rfl turns fails⟩
  · obtain ⟨us, turns⟩ := mixedTree_refused fullSite (by decide +kernel)
    obtain ⟨x, written, -, read⟩ := FileTree.writeFile_amended leads (by decide +kernel)
      (r.2.render.take (r.2.render.length / 2))
    have wrote : fullDisk.write mixedTree (bytes "a.asm") r.2.render =
        (x, some (noRoom (bytes "a.asm"))) := by
      simp only [fullDisk, Disk.host, written]
    have fails : BuildUnit.Ends linkingOptions fullSite (bytes "a.kt") ⟨mixedTree, []⟩ _ _
        (some f') :=
      .unwritten (by decide +kernel) compiles rfl wrote
    have halts := (sequential_build_halts linkingOptions fullSite mixedTree
      (before ++ bytes "a.kt" :: after) Group.host_oneByOne (by decide +kernel)
      (by decide +kernel)).2
    exact ⟨_, _, _, _, turns, fails, halts _ _ _ _ _ _ _ _ rfl turns fails, r.2, read⟩

end PrintLang
