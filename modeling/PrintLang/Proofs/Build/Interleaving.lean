import PrintLang.Proofs.Build.Steps

set_option autoImplicit false

namespace PrintLang

theorem perm_flatMap_set {α β : Type} {f : α → List β} {l : List α} {i : Nat} {a b : α} {cs : List β}
    (h : l[i]? = some a) (more : f b = f a ++ cs) :
    ((l.set i b).flatMap f).Perm (l.flatMap f ++ cs) := by
  induction l generalizing i with
  | nil => simp at h
  | cons x l ih =>
    cases i with
    | zero =>
      obtain rfl : x = a := by simpa using h
      rw [List.set_cons_zero, List.flatMap_cons, List.flatMap_cons, more, List.append_assoc,
        List.append_assoc]
      exact List.perm_append_comm.append_left _
    | succ i =>
      rw [List.set_cons_succ, List.flatMap_cons, List.flatMap_cons, List.append_assoc]
      exact (ih (by simpa using h)).append_left _

namespace BuildState
variable {o : BuildOptions} {tools : Toolbox} {t : FileTree} {sources : List Bytes}

def Files (o : BuildOptions) (t : FileTree) (sources : List Bytes) (units : List BuildUnit)
    (v : FileTree) : Prop :=
  (v = t ∧ ∀ u ∈ units, u.hasWritten = false) ∨
    (∃ u ∈ units, u.hasWritten = true) ∧ o.During t sources v

section Files
variable {units : List BuildUnit} {v : FileTree} {u u' : BuildUnit}

theorem Files.meets (h : Files o t sources units v) : o.Meets t sources v := by
  rcases h with ⟨same, -⟩ | ⟨-, during⟩
  · exact .inl same
  · exact .inr during

theorem Files.during (h : Files o t sources units v) (mem : u ∈ units)
    (written : u.hasWritten = true) : o.During t sources v := by
  rcases h with ⟨-, none⟩ | ⟨-, during⟩
  · simp [none u mem] at written
  · exact during

theorem Files.set {i : Nat} {s : Bytes} {w w' : World} (h : Files o t sources units w.tree)
    (found : units[i]? = some u) (moves : Moves o tools t sources s u u' w w') :
    Files o t sources (units.set i u') w'.tree := by
  have moved : u' ∈ units.set i u' := List.mem_set (List.getElem?_eq_some_iff.mp found).choose _
  rcases moves.files with ⟨same, written⟩ | ⟨written, after, -⟩
  · rw [same]
    rcases h with ⟨first, none⟩ | ⟨⟨z, hz, hasWritten⟩, during⟩
    · refine .inl ⟨first, fun z hz => ?_⟩
      rcases List.mem_or_eq_of_mem_set hz with old | rfl
      · exact none z old
      · exact written.trans (none u (List.mem_of_getElem? found))
    · refine .inr ⟨?_, during⟩
      obtain ⟨j, hj⟩ := List.mem_iff_getElem?.mp hz
      by_cases at_i : i = j
      · obtain rfl : u = z := by simpa [← at_i, found] using hj
        exact ⟨u', moved, written.trans hasWritten⟩
      · refine ⟨z, List.mem_iff_getElem?.mpr ⟨j, ?_⟩, hasWritten⟩
        rw [List.getElem?_set_ne at_i, hj]
  · exact .inr ⟨⟨u', moved, written⟩, after⟩

end Files

/-- A build of separate units after the steps in `taken`: each unit is where its own steps have taken
it, and the calls are those of the units. -/
structure Underway (o : BuildOptions) (tools : Toolbox) (t : FileTree) (sources : List Bytes)
    (taken : List Nat) (b : BuildState) : Prop where
  units : ∀ i, b.units[i]? = sources[i]?.map fun s => BuildUnit.after o t s (taken.count i)
  going : b.calledOff = false
  failure : b.failure = none
  files : Files o t sources b.units b.world.tree
  stands : ∀ u ∈ b.units, Stands o tools t sources u b.world.tree
  calls : b.world.calls.Perm (b.units.flatMap (BuildUnit.callsMade o))
  order : ∀ u ∈ b.units, (u.callsMade o).Sublist b.world.calls

section Advance
variable {taken : List Nat} {b : BuildState} {i : Nat} {u : BuildUnit}

theorem Underway.exists_source (h : Underway o tools t sources taken b) (found : b.units[i]? = some u) :
    ∃ s, sources[i]? = some s ∧ BuildUnit.after o t s (taken.count i) = u := by
  simpa [found] using (h.units i).symm

theorem count_append_of_ne {j : Nat} (ne : i ≠ j) : (taken ++ [i]).count j = taken.count j := by
  simp [List.count_append, ne]

/-- A position without a unit takes no step. -/
theorem Underway.skip (h : Underway o tools t sources taken b) (gone : b.units[i]? = none) :
    Underway o tools t sources (taken ++ [i]) b := by
  refine { h with units := fun j => ?_ }
  by_cases same : i = j
  · subst same
    have none : sources[i]? = none := by simpa [gone] using (h.units i).symm
    rw [h.units i, none]
    rfl
  · rw [h.units j, count_append_of_ne same]

theorem advance_eq {w' : World} (going : b.calledOff = false) (found : b.units[i]? = some u)
    (step : u.step o tools b.world = (u.alone o t, w', none)) :
    b.advance o tools i = ⟨b.units.set i (u.alone o t), w', false, b.failure⟩ := by
  have may : b.mayStep u = true := by
    unfold mayStep
    split <;> simp [going]
  simp [BuildState.advance, found, may, going, step, Group.after]

/-- The step lemma: whichever unit is next, the build goes on as it should. -/
theorem Underway.advance (h : Underway o tools t sources taken b)
    (separate : o.Separate tools t sources) (i : Nat) :
    Underway o tools t sources (taken ++ [i]) (b.advance o tools i) := by
  cases found : b.units[i]? with
  | none =>
    have same : b.advance o tools i = b := by simp only [BuildState.advance, found]
    rw [same]
    exact h.skip found
  | some u =>
    obtain ⟨s, hs, hu⟩ := h.exists_source found
    have mem : u ∈ b.units := List.mem_of_getElem? found
    obtain ⟨w', step, moves⟩ := separate.step_eq (List.mem_of_getElem? hs)
      (hu ▸ BuildUnit.after_along o t s _) b.world h.files.meets (h.files.during mem)
      (h.stands u mem)
    obtain ⟨cs, calls, made⟩ := moves.calls
    have bound : i < b.units.length := (List.getElem?_eq_some_iff.mp found).choose
    rw [advance_eq h.going found step]
    refine ⟨fun j => ?_, rfl, h.failure, h.files.set found moves, fun z hz => ?_, ?_, fun z hz => ?_⟩
    · by_cases same : i = j
      · subst same
        rw [List.getElem?_set_self bound, hs, List.count_append, List.count_singleton_self,
          Option.map_some, BuildUnit.after, hu]
      · rw [List.getElem?_set_ne same, h.units j, count_append_of_ne same]
    · obtain ⟨j, hj⟩ := List.mem_iff_getElem?.mp hz
      by_cases same : i = j
      · subst same
        obtain rfl : u.alone o t = z := by simpa [List.getElem?_set_self bound] using hj
        exact moves.stands
      · rw [List.getElem?_set_ne same] at hj
        have old := List.mem_of_getElem? hj
        obtain ⟨s', hs', hz'⟩ := h.exists_source hj
        exact separate.stands_frame hs hs' same moves (hz' ▸ BuildUnit.after_along o t s' _)
          (h.files.during old) (h.stands z old)
    · rw [calls]
      exact (h.calls.append_right cs).trans (perm_flatMap_set found made).symm
    · rw [calls]
      rcases List.mem_or_eq_of_mem_set hz with old | rfl
      · exact (h.order z old).trans (List.sublist_append_left _ _)
      · rw [made]
        exact (h.order u mem).append (.refl cs)

/-- The run lemma, by induction on the schedule. -/
theorem Underway.run (h : Underway o tools t sources taken b)
    (separate : o.Separate tools t sources) (schedule : List Nat) :
    Underway o tools t sources (taken ++ schedule) (b.run o tools schedule) := by
  induction schedule generalizing taken b with
  | nil => simpa [BuildState.run] using h
  | cons i schedule ih =>
    have rest := ih (h.advance separate i)
    rwa [List.append_assoc] at rest

end Advance

end BuildState

/-- The tool calls that a source is due: two for one that compiles, the assembler first, when the
build links. -/
def BuildUnit.toolCalls (o : BuildOptions) (t : FileTree) (s : Bytes) : List ToolCall :=
  match o.compiled t s with
  | .ok _ =>
    if o.link then [(ofSource o.outDir s).assemblerCall o, (ofSource o.outDir s).linkerCall o] else []
  | .error _ => []

/-- What a build of separate units leaves: units, result, files and calls. -/
structure BuildState.Built (o : BuildOptions) (t : FileTree) (sources : List Bytes) (b : BuildState) :
    Prop where
  units : b.units = sources.map (BuildUnit.done o t)
  /-- The errors of the sources are joined in their order. -/
  result : b.result = Failure.joinAll? (sources.filterMap fun s =>
    match o.compiled t s with
    | .ok _ => none
    | .error e => some e.failure)
  listings : ∀ s ∈ sources, ∀ r, o.compiled t s = .ok r →
    b.world.tree.readFile (Path.asmPath s o.outDir) = .ok r.2.render
  /-- What stood where a source that does not compile would have its listing still stands there. -/
  untouched : ∀ s ∈ sources, ∀ e, o.compiled t s = .error e → ∀ c,
    t.readFile (Path.asmPath s o.outDir) = .ok c →
    b.world.tree.readFile (Path.asmPath s o.outDir) = .ok c
  /-- Nothing else is written; the directory for the outputs is made. -/
  others : ∀ q, o.Writes t sources q ∨ b.world.tree.entry? q = t.entry? q ∨
    t.entry? q = none ∧ b.world.tree.entry? q = some .directory
  idle : (∀ s ∈ sources, ∀ r, o.compiled t s ≠ .ok r) → b.world.tree = t
  calls : b.world.calls.Perm (sources.flatMap (BuildUnit.toolCalls o t))
  order : ∀ s ∈ sources, (BuildUnit.toolCalls o t s).Sublist b.world.calls

theorem callsMade_done (o : BuildOptions) (t : FileTree) (s : Bytes) :
    (BuildUnit.done o t s).callsMade o = BuildUnit.toolCalls o t s := by
  unfold BuildUnit.toolCalls BuildUnit.callsMade
  cases compiles : o.compiled t s <;>
    simp [BuildUnit.done, BuildUnit.compiled, compiles, BuildUnit.assemblerCall, BuildUnit.linkerCall]

theorem hasWritten_done (o : BuildOptions) (t : FileTree) (s : Bytes) :
    (BuildUnit.done o t s).hasWritten = true ↔ ∃ r, o.compiled t s = .ok r := by
  cases compiles : o.compiled t s <;>
    simp [BuildUnit.done, BuildUnit.hasWritten, BuildUnit.compiled, compiles]

theorem BuildState.Underway.built {o : BuildOptions} {tools : Toolbox} {t : FileTree}
    {sources : List Bytes} {taken : List Nat} {b : BuildState}
    (h : b.Underway o tools t sources taken) (separate : o.Separate tools t sources)
    (complete : ∀ i < sources.length, stepsPerUnit ≤ taken.count i) : b.Built o t sources := by
  have units : b.units = sources.map (BuildUnit.done o t) := by
    refine List.ext_getElem? fun i => ?_
    rw [h.units i, List.getElem?_map]
    cases found : sources[i]? with
    | none => rfl
    | some s =>
      have bound : i < sources.length := (List.getElem?_eq_some_iff.mp found).choose
      rw [Option.map_some, Option.map_some, BuildUnit.after_done o t s (complete i bound)]
  have member {s : Bytes} (hs : s ∈ sources) : BuildUnit.done o t s ∈ b.units := by
    rw [units]
    exact List.mem_map_of_mem hs
  refine ⟨units, ?_, fun s hs r compiles => ?_, fun s hs e fails c old => ?_, fun q => ?_,
    fun none => ?_, ?_, fun s hs => ?_⟩
  · simp only [result, h.failure, units, List.filterMap_map]
    congr 2
    funext s
    cases compiles : o.compiled t s <;> simp [BuildUnit.done, BuildUnit.error?, compiles]
  · exact (h.stands _ (member hs)).listing ((hasWritten_done o t s).mpr ⟨r, compiles⟩) r
      (congrArg some compiles)
  · rcases h.files with ⟨same, -⟩ | ⟨-, during⟩
    · rwa [same]
    · refine (BuildOptions.During.refl o t sources).readFile_eq during during (fun q out leads => ?_)
        ((o.grown_prepared t).readFile_eq old)
      obtain ⟨s', hs', ⟨r, compiles⟩, own⟩ := out
      obtain ⟨i, hi⟩ := List.mem_iff_getElem?.mp hs
      obtain ⟨j, hj⟩ := List.mem_iff_getElem?.mp hs'
      have ne : j ≠ i := by
        rintro rfl
        obtain rfl : s = s' := by simpa [hi] using hj
        simp [fails] at compiles
      exact separate.apart hj hi ne (asm_mem_outputs o s) own leads
  · rcases h.files with ⟨same, -⟩ | ⟨-, during⟩
    · exact .inr (.inl (by rw [same]))
    · rcases during.entry q with same | ⟨out, -⟩
      · rw [same]
        exact .inr ((o.grown_prepared t).entry q)
      · exact .inl out
  · rcases h.files with ⟨same, -⟩ | ⟨⟨u, hu, written⟩, -⟩
    · exact same
    · rw [units] at hu
      obtain ⟨s, hs, rfl⟩ := List.mem_map.mp hu
      obtain ⟨r, compiles⟩ := (hasWritten_done o t s).mp written
      exact absurd compiles (none s hs r)
  · have calls := h.calls
    rw [units, List.flatMap_map] at calls
    simpa only [callsMade_done] using calls
  · rw [← callsMade_done]
    exact h.order _ (member hs)

theorem BuildState.sequential_complete {n i : Nat} (h : i < n) :
    stepsPerUnit ≤ (sequential n).count i := by
  rw [← List.replicate_sublist_iff]
  exact List.sublist_flatten_of_mem (List.mem_map_of_mem (List.mem_range.mpr h))

def linkingOptions : BuildOptions where
  target := .linux
  toolchain := ⟨bytes "as", bytes "ld", [], []⟩
  outDir := []
  link := true

def stampTools : Toolbox := fun v c =>
  match v.writeFile (c.args.getD 1 []) (bytes "made") with
  | .ok u => (u, none)
  | .error _ => (v, none)

/-- One source that compiles and one that does not, whose listing of another day is still there. -/
def mixedTree : FileTree where
  workDir := []
  entries := [([bytes "a.kt"], .file (bytes "println(1)") false),
    ([bytes "b.kt"], .file (bytes "@") false), ([bytes "b.asm"], .file (bytes "old") false)]

def mixedSources : List Bytes := [bytes "a.kt", bytes "b.kt"]

def plainOptions : BuildOptions := { linkingOptions with link := false }

end PrintLang
