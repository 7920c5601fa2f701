import PrintLang.Proofs.Build.Outputs

set_option autoImplicit false

namespace PrintLang

/-- What is relied on of a group that lets one unit run at a time: the first failure is kept and calls
the build off, and the units take their turns in order. -/
structure Group.OneByOne (g : Group) : Prop where
  first : ∀ f, g.keep none f = f
  keeps : ∀ f f', g.keep (some f) f' = f
  callsOff : ∀ f, g.callsOff f = true
  order : ∀ n, g.order n = BuildState.sequential n

namespace Group.OneByOne
variable {g : Group}

theorem after_eq (h : g.OneByOne) (kept new : Option Failure) : g.after kept new = kept.or new := by
  cases new with
  | none => rw [after, Option.or_none]
  | some f =>
    cases kept with
    | none => rw [after, h.first, Option.none_or]
    | some f' => rw [after, h.keeps, Option.some_or]

theorem any_callsOff (h : g.OneByOne) (f : Option Failure) : f.any g.callsOff = f.isSome := by
  cases f with
  | none => rfl
  | some f => exact h.callsOff f

end Group.OneByOne

theorem Group.host_oneByOne : Group.host.OneByOne :=
  ⟨fun _ => rfl, fun _ _ => rfl, fun _ => rfl, fun _ => rfl⟩

namespace BuildOptions

def makeHome (o : BuildOptions) (disk : Disk) (t : FileTree) : FileTree × Option Failure :=
  if o.outDir = [] then (t, none) else disk.makeDirs t o.outDir

structure Lists (o : BuildOptions) (disk : Disk) (s : Bytes) (t : FileTree) (r : Program × Listing)
    (v : FileTree) : Prop where
  compiles : ∃ text, disk.read t s = .ok text ∧ compile s text o.target = .ok r
  written : ∃ u, o.makeHome disk t = (u, none) ∧
    disk.write u (Path.asmPath s o.outDir) r.2.render = (v, none)

end BuildOptions

namespace BuildUnit

def closed (o : BuildOptions) (s : Bytes) (outcome : Option (Except CompileError (Program × Listing))) :
    BuildUnit :=
  { ofSource o.outDir s with outcome, stage := .finished }

/-- How the build of a source ends: the unit, the world after it, and the failure. The linker is called
only for what the assembler has made without failing. -/
inductive Ends (o : BuildOptions) (site : Site) (s : Bytes) (w : World) :
    BuildUnit → World → Option Failure → Prop where
  | unread {f : Failure} (read : (site.disk s).read w.tree s = .error f) :
      Ends o site s w (closed o s none) w (some (.context (bytes "failed to read source " ++ s) f))
  | refused {text : Bytes} {e : CompileError} (read : (site.disk s).read w.tree s = .ok text)
      (refused : compile s text o.target = .error e) :
      Ends o site s w (closed o s (some (.error e))) w none
  | homeless {text : Bytes} {r : Program × Listing} {v : FileTree} {f : Failure}
      (read : (site.disk s).read w.tree s = .ok text) (compiles : compile s text o.target = .ok r)
      (home : o.makeHome (site.disk s) w.tree = (v, some f)) :
      Ends o site s w (closed o s (some (.ok r))) { w with tree := v }
        (some (.context (bytes "failed to create output directory") f))
  | unwritten {text : Bytes} {r : Program × Listing} {u v : FileTree} {f : Failure}
      (read : (site.disk s).read w.tree s = .ok text) (compiles : compile s text o.target = .ok r)
      (home : o.makeHome (site.disk s) w.tree = (u, none))
      (write : (site.disk s).write u (Path.asmPath s o.outDir) r.2.render = (v, some f)) :
      Ends o site s w (closed o s (some (.ok r))) { w with tree := v }
        (some (.context (bytes "failed to write listing " ++ Path.asmPath s o.outDir) f))
  | written {r : Program × Listing} {v : FileTree} (lists : o.Lists (site.disk s) s w.tree r v)
      (link : o.link = false) :
      Ends o site s w (closed o s (some (.ok r))) { w with tree := v } none
  | unassembled {r : Program × Listing} {v x : FileTree} {f : Failure}
      (lists : o.Lists (site.disk s) s w.tree r v) (link : o.link = true)
      (assembler : site.tools v ((ofSource o.outDir s).assemblerCall o) = (x, some f)) :
      Ends o site s w (closed o s (some (.ok r)))
        ⟨x, w.calls ++ [(ofSource o.outDir s).assemblerCall o]⟩
        (some (.context (bytes "assembling " ++ Path.asmPath s o.outDir) f))
  | unlinked {r : Program × Listing} {v x y : FileTree} {f : Failure}
      (lists : o.Lists (site.disk s) s w.tree r v) (link : o.link = true)
      (assembler : site.tools v ((ofSource o.outDir s).assemblerCall o) = (x, none))
      (linker : site.tools x ((ofSource o.outDir s).linkerCall o) = (y, some f)) :
      Ends o site s w (closed o s (some (.ok r)))
        ⟨y, w.calls ++ [(ofSource o.outDir s).assemblerCall o, (ofSource o.outDir s).linkerCall o]⟩
        (some (.context (bytes "linking " ++ Path.exePath s o.outDir) f))
  | linked {r : Program × Listing} {v x y : FileTree}
      (lists : o.Lists (site.disk s) s w.tree r v) (link : o.link = true)
      (assembler : site.tools v ((ofSource o.outDir s).assemblerCall o) = (x, none))
      (linker : site.tools x ((ofSource o.outDir s).linkerCall o) = (y, none)) :
      Ends o site s w (closed o s (some (.ok r)))
        ⟨y, w.calls ++ [(ofSource o.outDir s).assemblerCall o, (ofSource o.outDir s).linkerCall o]⟩ none

/-- The sources come to their ends one after another, and none of them with a failure. -/
inductive InTurn (o : BuildOptions) (site : Site) :
    World → List Bytes → List BuildUnit → World → Prop where
  | nil {w : World} : InTurn o site w [] [] w
  | cons {w w' w'' : World} {s : Bytes} {sources : List Bytes} {u : BuildUnit} {us : List BuildUnit}
      (head : Ends o site s w u w' none) (tail : InTurn o site w' sources us w'') :
      InTurn o site w (s :: sources) (u :: us) w''

section Ends
variable {o : BuildOptions} {site : Site} {s : Bytes} {w w' : World} {u : BuildUnit}
  {f : Option Failure}

theorem ends_total (o : BuildOptions) (site : Site) (s : Bytes) (w : World) :
    ∃ u w' f, Ends o site s w u w' f := by
  cases read : (site.disk s).read w.tree s with
  | error f => exact ⟨_, _, _, .unread read⟩
  | ok text =>
    cases compiles : compile s text o.target with
    | error e => exact ⟨_, _, _, .refused read compiles⟩
    | ok r =>
      rcases home : o.makeHome (site.disk s) w.tree with ⟨h, _ | f⟩
      · rcases write : (site.disk s).write h (Path.asmPath s o.outDir) r.2.render with ⟨v, _ | f⟩
        · have lists : o.Lists (site.disk s) s w.tree r v := ⟨⟨text, read, compiles⟩, h, home, write⟩
          cases link : o.link with
          | false => exact ⟨_, _, _, .written lists link⟩
          | true =>
            rcases assembler : site.tools v ((ofSource o.outDir s).assemblerCall o) with ⟨x, _ | f⟩
            · rcases linker : site.tools x ((ofSource o.outDir s).linkerCall o) with ⟨y, _ | f⟩
              · exact ⟨_, _, _, .linked lists link assembler linker⟩
              · exact ⟨_, _, _, .unlinked lists link assembler linker⟩
            · exact ⟨_, _, _, .unassembled lists link assembler⟩
        · exact ⟨_, _, _, .unwritten read compiles home write⟩
      · exact ⟨_, _, _, .homeless read compiles home⟩

/-- Either all sources come to their ends without a failure, or there is a first one that fails. -/
theorem inTurn_total (o : BuildOptions) (site : Site) (w : World) (sources : List Bytes) :
    (∃ us w', InTurn o site w sources us w') ∨
    ∃ before s after us w' u w'' f, sources = before ++ s :: after ∧
      InTurn o site w before us w' ∧ Ends o site s w' u w'' (some f) := by
  induction sources generalizing w with
  | nil => exact .inl ⟨[], w, .nil⟩
  | cons s sources ih =>
    obtain ⟨u, w', _ | f, ends⟩ := ends_total o site s w
    · rcases ih w' with ⟨us, w'', turns⟩ | ⟨before, s', after, us, v, u', v', f, rfl, turns, fails⟩
      · exact .inl ⟨_, _, .cons ends turns⟩
      · exact .inr ⟨s :: before, s', after, u :: us, v, u', v', f, rfl, .cons ends turns, fails⟩
    · exact .inr ⟨[], s, sources, [], w, u, w', f, rfl, .nil, ends⟩

theorem InTurn.length_eq {sources : List Bytes} {us : List BuildUnit}
    (h : InTurn o site w sources us w') : us.length = sources.length := by
  induction h with
  | nil => rfl
  | cons _ _ ih => rw [List.length_cons, List.length_cons, ih]

def steps (o : BuildOptions) (site : Site) :
    (k : Nat) → BuildUnit → World → BuildUnit × World × Option Failure
  | 0, u, w => (u, w, none)
  | k + 1, u, w =>
    let (u, w, first) := u.step o site w
    let (u, w, more) := steps o site k u w
    (u, w, first.or more)

theorem steps_of_finished (h : u.stage = .finished) (k : Nat) :
    steps o site k u w = (u, w, none) := by
  induction k with
  | zero => rfl
  | succ k ih =>
    have step : u.step o site w = (u, w, none) := by rw [step, h]
    simp only [steps, step, ih, Option.or]

/-- A unit that fails takes no more steps. -/
theorem finished_of_step (o : BuildOptions) (site : Site) (u : BuildUnit) (w : World)
    (h : (u.step o site w).2.2 ≠ none) : (u.step o site w).1.stage = .finished := by
  unfold step at h ⊢
  split at h
  · split at h
    · exact absurd rfl h
    · rfl
  · simp only at h ⊢
    split at h <;> exact absurd rfl h
  · split at h
    · exact absurd rfl h
    · rfl
  · split at h
    · exact absurd rfl h
    · rfl
  · split at h
    · exact absurd rfl h
    · rfl
  · exact absurd rfl h

theorem writeListing_eq (o : BuildOptions) (disk : Disk) (w : World) (asm content : Bytes) :
    w.writeListing disk o.outDir asm content =
      match o.makeHome disk w.tree with
      | (v, some f) =>
        ({ w with tree := v }, some (.context (bytes "failed to create output directory") f))
      | (v, none) =>
        match disk.write v asm content with
        | (v, some f) =>
          ({ w with tree := v }, some (.context (bytes "failed to write listing " ++ asm) f))
        | (v, none) => ({ w with tree := v }, none) := rfl

theorem calls_writeListing (disk : Disk) (w : World) (outDir asm content : Bytes) :
    (w.writeListing disk outDir asm content).1.calls = w.calls := by
  unfold World.writeListing
  split
  · rfl
  · split <;> rfl

theorem calls_step_prefix (o : BuildOptions) (site : Site) (u : BuildUnit) (w : World) :
    w.calls <+: (u.step o site w).2.1.calls := by
  have called (c : ToolCall) : w.calls <+: (w.call site.tools c).1.calls := List.prefix_append _ _
  unfold step
  split
  · split <;> exact List.prefix_rfl
  · simp only
    split <;> exact List.prefix_rfl
  · next listing _ =>
    have written := calls_writeListing (site.disk u.source) w o.outDir u.asm listing.render
    split
    · next same => exact (same ▸ written) ▸ List.prefix_rfl
    · next same => exact (same ▸ written) ▸ List.prefix_rfl
  · have call := called (u.assemblerCall o)
    split
    · next same => rwa [same] at call
    · next same => rwa [same] at call
  · have call := called (u.linkerCall o)
    split
    · next same => rwa [same] at call
    · next same => rwa [same] at call
  · exact List.prefix_rfl

theorem steps_of_lists {r : Program × Listing} {v : FileTree}
    (h : o.Lists (site.disk s) s w.tree r v) (k : Nat) :
    steps o site (k + 3) (ofSource o.outDir s) w =
      steps o site k { ofSource o.outDir s with
        outcome := some (.ok r), stage := if o.link then .written else .finished }
        { w with tree := v } := by
  obtain ⟨⟨text, read, compiles⟩, h, home, write⟩ := h
  simp only [steps, step, ofSource, read, compiles, writeListing_eq, home, write, Option.none_or]

/-- The five steps of a unit take it to its end. -/
theorem Ends.steps_eq (h : Ends o site s w u w' f) :
    steps o site stepsPerUnit (ofSource o.outDir s) w = (u, w', f) := by
  cases h with
  | unread read =>
    simp only [stepsPerUnit, steps, step, ofSource, read]
    rfl
  | refused read refused =>
    simp only [stepsPerUnit, steps, step, ofSource, read, refused]
    rfl
  | homeless read compiles home =>
    simp only [stepsPerUnit, steps, step, ofSource, read, compiles, writeListing_eq, home]
    rfl
  | unwritten read compiles home write =>
    simp only [stepsPerUnit, steps, step, ofSource, read, compiles, writeListing_eq, home, write]
    rfl
  | written lists link =>
    rw [stepsPerUnit, steps_of_lists lists, link]
    rfl
  | unassembled lists link assembler =>
    rw [stepsPerUnit, steps_of_lists lists, link]
    simp only [assemblerCall, ofSource] at assembler
    simp only [steps, step, assemblerCall, ofSource, World.call, assembler, if_true]
    rfl
  | unlinked lists link assembler linker =>
    rw [stepsPerUnit, steps_of_lists lists, link]
    simp only [assemblerCall, linkerCall, ofSource] at assembler linker
    simp only [steps, step, assemblerCall, linkerCall, ofSource, World.call, assembler, linker,
      if_true]
    rw [List.append_assoc]
    rfl
  | linked lists link assembler linker =>
    rw [stepsPerUnit, steps_of_lists lists, link]
    simp only [assemblerCall, linkerCall, ofSource] at assembler linker
    simp only [steps, step, assemblerCall, linkerCall, ofSource, World.call, assembler, linker,
      if_true]
    rw [List.append_assoc]
    rfl

end Ends

end BuildUnit

namespace BuildState
variable {o : BuildOptions} {site : Site} {b : BuildState}

theorem run_append (b : BuildState) (first more : List Nat) :
    b.run o site (first ++ more) = (b.run o site first).run o site more :=
  List.foldl_append

/-- A unit that has come to its end changes nothing. -/
theorem run_finished {i : Nat} {u : BuildUnit} (found : b.units[i]? = some u)
    (finished : u.stage = .finished) (k : Nat) : b.run o site (List.replicate k i) = b := by
  obtain ⟨bound, same⟩ := List.getElem?_eq_some_iff.mp found
  have may : b.mayStep u = true := by rw [mayStep, finished]
  have step : u.step o (site.now b.calledOff) b.world = (u, b.world, none) := by
    rw [BuildUnit.step, finished]
  have advance : b.advance o site i = b := by
    simp only [advance, found, may, if_true, step, Group.after, Option.any_none, Bool.or_false]
    rw [← same, List.set_getElem_self]
  induction k with
  | zero => rfl
  | succ k ih => exact (congrArg (run o site · (List.replicate k i)) advance).trans ih

/-- Steps of one unit while the build is going on. -/
theorem run_replicate (group : site.group.OneByOne) {i : Nat} {u : BuildUnit}
    (found : b.units[i]? = some u) (going : b.calledOff = false) (k : Nat) :
    let r := u.steps o site k b.world
    b.run o site (List.replicate k i) =
      ⟨b.units.set i r.1, r.2.1, r.2.2.isSome, b.failure.or r.2.2⟩ := by
  induction k generalizing b u with
  | zero =>
    obtain ⟨bound, rfl⟩ := List.getElem?_eq_some_iff.mp found
    simp only [BuildUnit.steps, List.set_getElem_self, Option.isSome_none, Option.or_none, ← going]
    rfl
  | succ k ih =>
    have goes : b.mayStep u = true := by
      unfold mayStep
      split <;> simp [going]
    obtain ⟨bound, -⟩ := List.getElem?_eq_some_iff.mp found
    generalize first : u.step o site b.world = r
    obtain ⟨u', w', f⟩ := r
    have advance : b.advance o site i = ⟨b.units.set i u', w', f.isSome, b.failure.or f⟩ := by
      simp only [advance, found, goes, if_true, going, Site.now_false, first, Bool.false_or,
        group.any_callsOff, group.after_eq]
    have next : (b.advance o site i).units[i]? = some u' := by
      rw [advance, List.getElem?_set_self bound]
    rw [List.replicate_succ]
    cases f with
    | none =>
      refine Eq.trans (ih next (by rw [advance]; rfl)) ?_
      simp only [BuildUnit.steps, first, advance, List.set_set, Option.or_none, Option.none_or]
    | some f =>
      have finished : u'.stage = .finished := by
        have done := BuildUnit.finished_of_step o site u b.world
        rw [first] at done
        exact done (Option.some_ne_none f)
      refine Eq.trans (run_finished next finished k) ?_
      simp only [BuildUnit.steps, first, BuildUnit.steps_of_finished finished, Option.or_none, advance]

def turns (i n : Nat) : List Nat := (List.range' i n).flatMap (List.replicate stepsPerUnit)

theorem sequential_eq_turns (n : Nat) : sequential n = turns 0 n := by
  rw [sequential, turns, List.range_eq_range']

theorem turns_succ (i n : Nat) :
    turns i (n + 1) = List.replicate stepsPerUnit i ++ turns (i + 1) n := by
  rw [turns, List.range'_succ, List.flatMap_cons, turns]

theorem turns_add (i m n : Nat) : turns i (m + n) = turns i m ++ turns (i + m) n := by
  rw [turns, ← List.range'_append_1, List.flatMap_append, turns, turns]

theorem sequential_add (m n : Nat) : sequential (m + n) = sequential m ++ turns m n := by
  rw [sequential_eq_turns, turns_add, Nat.zero_add, sequential_eq_turns]

theorem mem_turns {i n j : Nat} (h : j ∈ turns i n) : i ≤ j ∧ j < i + n := by
  obtain ⟨k, hk, hj⟩ := List.mem_flatMap.mp h
  obtain rfl := (List.mem_replicate.mp hj).2
  exact List.mem_range'_1.mp hk

section Turns
variable {w w' : World} {s : Bytes} {sources : List Bytes} {past rest us : List BuildUnit}
  {u : BuildUnit} {f : Option Failure}

/-- The turn of a unit, when nothing has failed. -/
theorem run_turn (group : site.group.OneByOne) (h : BuildUnit.Ends o site s w u w' f)
    (past rest : List BuildUnit) :
    run o site ⟨past ++ BuildUnit.ofSource o.outDir s :: rest, w, false, none⟩
      (List.replicate stepsPerUnit past.length) = ⟨past ++ u :: rest, w', f.isSome, f⟩ := by
  have turn := run_replicate (o := o) group (k := stepsPerUnit) (i := past.length)
    (b := ⟨past ++ BuildUnit.ofSource o.outDir s :: rest, w, false, none⟩)
    (u := .ofSource o.outDir s) (by simp) rfl
  rw [turn]
  simp [h.steps_eq]

/-- The turns of units that come to their ends without a failure. -/
theorem run_inTurn (group : site.group.OneByOne) (h : BuildUnit.InTurn o site w sources us w')
    (past rest : List BuildUnit) :
    run o site ⟨past ++ sources.map (.ofSource o.outDir) ++ rest, w, false, none⟩
      (turns past.length sources.length) = ⟨past ++ us ++ rest, w', false, none⟩ := by
  induction h generalizing past with
  | nil => rfl
  | @cons _ _ _ s sources u us head _ ih =>
    have turn := run_turn group head past (sources.map (.ofSource o.outDir) ++ rest)
    have more := ih (past ++ [u])
    rw [List.length_cons, turns_succ, run_append, List.map_cons, List.append_assoc, List.cons_append,
      turn]
    simpa using more

/-- The turn of a unit after a failure. -/
theorem run_stop (group : site.group.OneByOne) (failure : Failure) (s : Bytes)
    (past rest : List BuildUnit) :
    run o site ⟨past ++ .ofSource o.outDir s :: rest, w, true, some failure⟩
      (List.replicate stepsPerUnit past.length) =
      ⟨past ++ .closed o s none :: rest, w, true, some failure⟩ := by
  have stops : run o site ⟨past ++ .ofSource o.outDir s :: rest, w, true, some failure⟩
      [past.length] = ⟨past ++ .closed o s none :: rest, w, true, some failure⟩ := by
    have found : (past ++ .ofSource o.outDir s :: rest)[past.length]? =
        some (.ofSource o.outDir s) := by simp
    have stays : mayStep ⟨past ++ .ofSource o.outDir s :: rest, w, true, some failure⟩
        (.ofSource o.outDir s) = false := rfl
    simp only [run, List.foldl_cons, List.foldl_nil, advance, found, stays, Bool.false_eq_true,
      if_false, List.set_append_right _ _ (Nat.le_refl past.length), Nat.sub_self, List.set_cons_zero,
      group.after_eq, Option.some_or]
    rfl
  have split : List.replicate stepsPerUnit past.length =
      [past.length] ++ List.replicate 4 past.length := rfl
  rw [split, run_append, stops]
  exact run_finished (u := .closed o s none) (by simp) rfl 4

/-- After a failure, the turns that are left stop their units. -/
theorem run_stopped (group : site.group.OneByOne) (failure : Failure) (past : List BuildUnit)
    (sources : List Bytes) :
    run o site ⟨past ++ sources.map (.ofSource o.outDir), w, true, some failure⟩
      (turns past.length sources.length) =
      ⟨past ++ sources.map (BuildUnit.closed o · none), w, true, some failure⟩ := by
  induction sources generalizing past with
  | nil => rfl
  | cons s sources ih =>
    have more := ih (past ++ [.closed o s none])
    rw [List.length_cons, turns_succ, run_append, List.map_cons, run_stop group]
    simpa using more

theorem run_of_notMem {j : Nat} {schedule : List Nat} (h : j ∉ schedule) :
    (b.run o site schedule).units[j]? = b.units[j]? := by
  induction schedule generalizing b with
  | nil => rfl
  | cons i schedule ih =>
    rw [List.mem_cons, not_or] at h
    refine (ih h.2).trans ?_
    have step := advance_spec o site b i
    generalize b.advance o site i = c at step
    cases step with
    | none => rfl
    | step | stop => exact List.getElem?_set_ne (Ne.symm h.1)

theorem take_run {k : Nat} {schedule : List Nat} (h : ∀ j ∈ schedule, k ≤ j) :
    (b.run o site schedule).units.take k = b.units.take k := by
  refine List.ext_getElem? fun i => ?_
  rw [List.getElem?_take, List.getElem?_take]
  split
  · next before => exact run_of_notMem fun mem => Nat.not_lt.mpr (h i mem) before
  · rfl

/-- Once a build is called off, a unit that has not started never does. -/
theorem run_calledOff (off : b.calledOff = true) {j : Nat} {s : Bytes} (schedule : List Nat)
    (h : b.units[j]? = some (.ofSource o.outDir s)) :
    ∃ u, (b.run o site schedule).units[j]? = some u ∧
      (u = .ofSource o.outDir s ∨ u = .closed o s none) := by
  refine (run_preserves (P := fun c => c.calledOff = true ∧ ∃ u, c.units[j]? = some u ∧
    (u = .ofSource o.outDir s ∨ u = .closed o s none))
    (fun c i d ⟨off, u, found, rests⟩ advance => ?_) schedule ⟨off, _, h, .inl rfl⟩).2
  have bound := (List.getElem?_eq_some_iff.mp found).choose
  cases advance with
  | none => exact ⟨off, u, found, rests⟩
  | @step v at_i may =>
    refine ⟨by rw [off]; rfl, ?_⟩
    by_cases here : i = j
    · subst here
      obtain rfl : v = u := Option.some.inj (at_i.symm.trans found)
      refine ⟨_, List.getElem?_set_self bound, ?_⟩
      rcases rests with rfl | rfl
      · simp [mayStep, off, BuildUnit.ofSource] at may
      · exact .inr rfl
    · exact ⟨u, (List.getElem?_set_ne here).trans found, rests⟩
  | @stop v at_i mayNot =>
    refine ⟨off, ?_⟩
    by_cases here : i = j
    · subst here
      obtain rfl : v = u := Option.some.inj (at_i.symm.trans found)
      refine ⟨_, List.getElem?_set_self bound, .inr ?_⟩
      rcases rests with rfl | rfl <;> rfl
    · exact ⟨u, (List.getElem?_set_ne here).trans found, rests⟩

theorem calls_prefix (schedule : List Nat) :
    b.world.calls <+: (b.run o site schedule).world.calls := by
  refine run_preserves (P := fun c => b.world.calls <+: c.world.calls)
    (fun c i d old advance => ?_) schedule List.prefix_rfl
  cases advance with
  | none => exact old
  | stop => exact old
  | step => exact old.trans (BuildUnit.calls_step_prefix o _ _ c.world)

end Turns

end BuildState

end PrintLang
