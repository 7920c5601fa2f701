import PrintLang.Build
import PrintLang.Proofs.FileTree.Change

set_option autoImplicit false

namespace PrintLang

def FileTree.content (t : FileTree) (path : Bytes) : Bytes :=
  match t.readFile path with
  | .ok text => text
  | .error _ => []

theorem FileTree.content_eq {t : FileTree} {path text : Bytes} (h : t.readFile path = .ok text) :
    t.content path = text := by
  simp only [content, h]

def BuildOptions.compiled (o : BuildOptions) (t : FileTree) (source : Bytes) :
    Except CompileError (Program × Listing) :=
  compile source (t.content source) o.target

theorem Disk.read_host {t : FileTree} {path text : Bytes} (h : t.readFile path = .ok text) :
    Disk.host.read t path = .ok text := by
  simp only [host, h, Except.mapError]

theorem World.writeListing_host {w w' : World} {outDir path content : Bytes} :
    w.writeListing .host outDir path content = (w', none) ↔
      ∃ u v, (if outDir = [] then .ok w.tree else w.tree.makeDirs outDir) = .ok u ∧
        u.writeFile path content = .ok v ∧ w' = { w with tree := v } := by
  by_cases beside : outDir = []
  · simp only [writeListing, beside, if_true, Except.ok.injEq]
    cases wrote : w.tree.writeFile path content <;> simp [Disk.host, wrote, eq_comm]
  · simp only [writeListing, beside, if_false]
    cases made : w.tree.makeDirs outDir with
    | error e => simp [Disk.host, made]
    | ok u =>
      simp only [Disk.host, made, Except.ok.injEq]
      cases wrote : u.writeFile path content <;> simp [wrote, eq_comm]

namespace BuildUnit

/-- The next stage of a unit that nothing disturbs, with its source as it was in the tree. -/
def alone (o : BuildOptions) (t : FileTree) (u : BuildUnit) : BuildUnit :=
  match u.stage with
  | .waiting => { u with stage := .loaded (t.content u.source) }
  | .loaded text =>
    match compile u.source text o.target with
    | .ok r => { u with outcome := some (.ok r), stage := .compiled r.2 }
    | .error e => { u with outcome := some (.error e), stage := .finished }
  | .compiled _ => { u with stage := if o.link then .written else .finished }
  | .written => { u with stage := .assembled }
  | .assembled => { u with stage := .finished }
  | .finished => u

def after (o : BuildOptions) (t : FileTree) (source : Bytes) : (k : Nat) → BuildUnit
  | 0 => ofSource o.outDir source
  | k + 1 => (after o t source k).alone o t

def done (o : BuildOptions) (t : FileTree) (source : Bytes) : BuildUnit :=
  { ofSource o.outDir source with outcome := some (o.compiled t source), stage := .finished }

theorem after_done (o : BuildOptions) (t : FileTree) (source : Bytes) {k : Nat}
    (h : stepsPerUnit ≤ k) : after o t source k = done o t source := by
  induction h with
  | refl =>
    change ((((ofSource o.outDir source).alone o t).alone o t).alone o t |>.alone o t).alone o t = _
    simp only [alone, ofSource, done, BuildOptions.compiled]
    cases compile source (t.content source) o.target with
    | error e => rfl
    | ok r => cases o.link <;> rfl
  | step _ ih => rw [after, ih]; rfl

inductive Along (o : BuildOptions) (t : FileTree) (source : Bytes) : BuildUnit → Prop where
  | waiting : Along o t source (ofSource o.outDir source)
  | loaded : Along o t source { ofSource o.outDir source with stage := .loaded (t.content source) }
  | refused {e : CompileError} (h : o.compiled t source = .error e) :
      Along o t source { ofSource o.outDir source with outcome := some (.error e), stage := .finished }
  | compiled {r : Program × Listing} (h : o.compiled t source = .ok r) :
      Along o t source { ofSource o.outDir source with outcome := some (.ok r), stage := .compiled r.2 }
  | written {r : Program × Listing} (h : o.compiled t source = .ok r) (link : o.link = true) :
      Along o t source { ofSource o.outDir source with outcome := some (.ok r), stage := .written }
  | assembled {r : Program × Listing} (h : o.compiled t source = .ok r) (link : o.link = true) :
      Along o t source { ofSource o.outDir source with outcome := some (.ok r), stage := .assembled }
  | finished {r : Program × Listing} (h : o.compiled t source = .ok r) :
      Along o t source { ofSource o.outDir source with outcome := some (.ok r), stage := .finished }

theorem after_along (o : BuildOptions) (t : FileTree) (source : Bytes) (k : Nat) :
    Along o t source (after o t source k) := by
  induction k with
  | zero => exact .waiting
  | succ k ih =>
    rw [after]
    generalize after o t source k = u at ih
    cases ih with
    | waiting => exact .loaded
    | loaded =>
      simp only [alone, ofSource]
      split
      · next h => exact .compiled h
      · next h => exact .refused h
    | refused h => exact .refused h
    | compiled h =>
      cases link : o.link with
      | true =>
        simp only [alone, link]
        exact .written h link
      | false =>
        simp only [alone, link]
        exact .finished h
    | written h link => exact .assembled h link
    | assembled h _ => exact .finished h
    | finished h => exact .finished h

def hasWritten (u : BuildUnit) : Bool :=
  match u.stage with
  | .written | .assembled => true
  | .finished => u.compiled
  | _ => false

def callsMade (o : BuildOptions) (u : BuildUnit) : List ToolCall :=
  match u.stage with
  | .assembled => [u.assemblerCall o]
  | .finished => if o.link && u.compiled then [u.assemblerCall o, u.linkerCall o] else []
  | _ => []

def outputs (o : BuildOptions) (source : Bytes) : List Bytes :=
  let u := ofSource o.outDir source
  if o.link then [u.asm, u.obj, u.exe] else [u.asm]

end BuildUnit

namespace BuildOptions
variable (o : BuildOptions) (t : FileTree) (sources : List Bytes)

def prepared : FileTree :=
  match if o.outDir = [] then .ok t else t.makeDirs o.outDir with
  | .ok u => u
  | .error _ => t

def Own (s : Bytes) (q : Place) : Prop :=
  ∃ x ∈ BuildUnit.outputs o s, (o.prepared t).LeadsTo x q

def Writes (q : Place) : Prop := ∃ s ∈ sources, (∃ r, o.compiled t s = .ok r) ∧ o.Own t s q

/-- A tree in which nothing has changed but what the units write. -/
def During (v : FileTree) : Prop := (o.prepared t).Amended (o.Writes t sources) v

end BuildOptions

/-- What is asked of the tools for a unit: each writes the file behind its `-o` at most; the assembler
accepts the listing, and the linker what the assembler made of it. -/
structure Toolbox.Serves (tools : Toolbox) (o : BuildOptions) (t : FileTree) (sources : List Bytes)
    (u : BuildUnit) (l : Listing) : Prop where
  assembler : ∀ v : FileTree, v.Amended (v.LeadsTo u.obj) (tools v (u.assemblerCall o)).1
  linker : ∀ v : FileTree, v.Amended (v.LeadsTo u.exe) (tools v (u.linkerCall o)).1
  assembles : ∀ v, o.During t sources v → v.readFile u.asm = .ok l.render →
    (tools v (u.assemblerCall o)).2 = none
  links : ∀ v w, o.During t sources v → v.readFile u.asm = .ok l.render → o.During t sources w →
    (∀ c, (tools v (u.assemblerCall o)).1.readFile u.obj = .ok c → w.readFile u.obj = .ok c) →
    (tools w (u.linkerCall o)).2 = none

/-- Sources that can be read, listings that can be written, tools that work, and outputs that lead
neither to a source nor to one another. -/
structure BuildOptions.Separate (o : BuildOptions) (tools : Toolbox) (t : FileTree)
    (sources : List Bytes) : Prop where
  readable : ∀ s ∈ sources, ∃ text, t.readFile s = .ok text
  writable : ∀ s ∈ sources, ∀ r, o.compiled t s = .ok r → ∃ w,
    World.writeListing ⟨t, []⟩ .host o.outDir (BuildUnit.ofSource o.outDir s).asm r.2.render = (w, none)
  tools : o.link = true → ∀ s ∈ sources, ∀ r, o.compiled t s = .ok r →
    Toolbox.Serves tools o t sources (.ofSource o.outDir s) r.2
  outputs : (sources.flatMap (BuildUnit.outputs o)).Pairwise fun x y =>
    ∀ q, (o.prepared t).LeadsTo x q → ¬ (o.prepared t).LeadsTo y q
  inputs : ∀ s ∈ sources, ∀ x ∈ sources.flatMap (BuildUnit.outputs o), ∀ q,
    (o.prepared t).LeadsTo x q → ¬ (o.prepared t).LeadsTo s q

section Files
variable {o : BuildOptions} {tools : Toolbox} {t v : FileTree} {sources : List Bytes} {s : Bytes}
  {r : Program × Listing}

/-- What a step finds: the tree as it was, or the outputs of units beside it. -/
def BuildOptions.Meets (o : BuildOptions) (t : FileTree) (sources : List Bytes) (v : FileTree) : Prop :=
  v = t ∨ o.During t sources v

theorem BuildOptions.During.refl (o : BuildOptions) (t : FileTree) (sources : List Bytes) :
    o.During t sources (o.prepared t) :=
  FileTree.Amended.refl _ _

theorem BuildOptions.grown_prepared (o : BuildOptions) (t : FileTree) : t.Grown (o.prepared t) := by
  unfold prepared
  split
  · next made =>
    split at made
    · cases made
      exact .refl t
    · exact (FileTree.makeDirs_eq_ok made).1
  · exact .refl t

/-- Before the first listing is written, its directory is made; after that, it stays. -/
theorem BuildOptions.Separate.prepares (h : o.Separate tools t sources) (mem : s ∈ sources)
    (compiles : o.compiled t s = .ok r) :
    (if o.outDir = [] then .ok t else t.makeDirs o.outDir) = .ok (o.prepared t) ∧
      (∀ v, o.During t sources v →
        (if o.outDir = [] then .ok v else v.makeDirs o.outDir) = .ok v) ∧
      ∃ p, (o.prepared t).LeadsTo (BuildUnit.ofSource o.outDir s).asm p ∧
        FileTree.isLeaf (FileTree.entry? (o.prepared t) p) = true := by
  obtain ⟨w, written⟩ := h.writable s mem r compiles
  obtain ⟨base, v, made, wrote, -⟩ := World.writeListing_host.mp written
  have prepared : o.prepared t = base := by
    unfold prepared
    rw [made]
  rw [prepared]
  refine ⟨made, fun v during => ?_, FileTree.leaf_of_writeFile wrote⟩
  split
  · rfl
  · next dir =>
    rw [if_neg dir] at made
    refine FileTree.makeDirs_of_stat ?_
    rw [During, prepared] at during
    exact during.within.stat_directory (FileTree.makeDirs_eq_ok made).2

theorem asm_mem_outputs (o : BuildOptions) (s : Bytes) :
    (BuildUnit.ofSource o.outDir s).asm ∈ BuildUnit.outputs o s := by
  unfold BuildUnit.outputs
  cases o.link <;> simp

theorem BuildOptions.Own.writes {q : Place} (h : o.Own t s q) (mem : s ∈ sources)
    (compiles : o.compiled t s = .ok r) : o.Writes t sources q :=
  ⟨s, mem, ⟨r, compiles⟩, h⟩

/-- A listing is written in whatever tree the units have left. -/
theorem BuildOptions.Separate.writeListing (h : o.Separate tools t sources) (mem : s ∈ sources)
    (compiles : o.compiled t s = .ok r) (w : World) (meets : o.Meets t sources w.tree) :
    ∃ u v, World.writeListing w .host o.outDir (BuildUnit.ofSource o.outDir s).asm r.2.render =
        ({ w with tree := v }, none) ∧
      (o.During t sources w.tree → u = w.tree) ∧ o.During t sources u ∧
      u.Amended (o.Own t s) v ∧ o.During t sources v ∧
      v.readFile (BuildUnit.ofSource o.outDir s).asm = .ok r.2.render := by
  obtain ⟨first, later, p, leads, leaf⟩ := h.prepares mem compiles
  have made : ∃ u, (if o.outDir = [] then .ok w.tree else w.tree.makeDirs o.outDir) = .ok u ∧
      (o.During t sources w.tree → u = w.tree) ∧ o.During t sources u := by
    by_cases during : o.During t sources w.tree
    · exact ⟨_, later _ during, fun _ => rfl, during⟩
    · rw [meets.resolve_right during]
      exact ⟨_, first, fun no => absurd (meets.resolve_right during ▸ no) during, .refl o t sources⟩
  obtain ⟨u, made, origin, during⟩ := made
  obtain ⟨v, wrote, amended, read⟩ := FileTree.writeFile_amended (during.leadsTo_iff.mpr leads)
    ((during.isLeaf_eq p).trans leaf) r.2.render
  have own : u.Amended (o.Own t s) v :=
    amended.mono fun q there => ⟨_, asm_mem_outputs o s, during.leadsTo_iff.mp there⟩
  refine ⟨u, v, ?_, origin, during, own, ?_, read⟩
  · exact World.writeListing_host.mpr ⟨u, v, made, wrote, rfl⟩
  · exact during.trans own fun q there => there.writes mem compiles

/-- No output of another unit leads to where a unit writes. -/
theorem BuildOptions.Separate.apart (h : o.Separate tools t sources) {i j : Nat} {s' : Bytes}
    (hi : sources[i]? = some s) (hj : sources[j]? = some s') (ne : i ≠ j) {y : Bytes}
    (hy : y ∈ BuildUnit.outputs o s') {q : Place} (own : o.Own t s q) :
    ¬ (o.prepared t).LeadsTo y q := by
  obtain ⟨x, hx, leads⟩ := own
  intro leads'
  obtain ⟨-, between⟩ := List.pairwise_flatMap.mp h.outputs
  obtain ⟨li, rfl⟩ := List.getElem?_eq_some_iff.mp hi
  obtain ⟨lj, rfl⟩ := List.getElem?_eq_some_iff.mp hj
  rcases Nat.lt_or_gt_of_ne ne with lt | gt
  · exact List.pairwise_iff_getElem.mp between i j li lj lt x hx y hy q leads leads'
  · exact List.pairwise_iff_getElem.mp between j i lj li gt y hy x hx q leads' leads

theorem BuildOptions.Separate.own_apart (h : o.Separate tools t sources) (mem : s ∈ sources)
    (link : o.link = true) {q : Place}
    (leads : (o.prepared t).LeadsTo (BuildUnit.ofSource o.outDir s).asm q) :
    ¬ (o.prepared t).LeadsTo (BuildUnit.ofSource o.outDir s).obj q ∧
      ¬ (o.prepared t).LeadsTo (BuildUnit.ofSource o.outDir s).exe q := by
  have within := (List.pairwise_flatMap.mp h.outputs).1 s mem
  simp only [BuildUnit.outputs, link, if_true, List.pairwise_cons] at within
  exact ⟨within.1 _ (by simp) q leads, within.1 _ (by simp) q leads⟩

/-- A source is read as it was. -/
theorem BuildOptions.Separate.readFile (h : o.Separate tools t sources) (mem : s ∈ sources)
    (meets : o.Meets t sources v) : v.readFile s = .ok (t.content s) := by
  obtain ⟨text, read⟩ := h.readable s mem
  rw [FileTree.content_eq read]
  rcases meets with rfl | during
  · exact read
  · refine (During.refl o t sources).readFile_eq during (fun q leads => ?_)
      ((o.grown_prepared t).readFile_eq read)
    rcases during.entry q with same | ⟨⟨s', mem', -, x, hx, leads'⟩, -⟩
    · exact same
    · exact absurd leads (h.inputs s mem x (List.mem_flatMap.mpr ⟨s', mem', hx⟩) q leads')

/-- A tool writes one of the outputs of its unit. -/
theorem BuildOptions.During.amend (during : o.During t sources v) (mem : s ∈ sources)
    (compiles : o.compiled t s = .ok r) {x : Bytes} (hx : x ∈ BuildUnit.outputs o s) {v' : FileTree}
    (amended : v.Amended (v.LeadsTo x) v') :
    v.Amended (o.Own t s) v' ∧ o.During t sources v' := by
  have own : v.Amended (o.Own t s) v' :=
    amended.mono fun q there => ⟨x, hx, during.leadsTo_iff.mp there⟩
  exact ⟨own, during.trans own fun q there => there.writes mem compiles⟩

/-- What is written elsewhere does not change what a path reads. -/
theorem BuildOptions.During.readFile_eq (during : o.During t sources v) {v' : FileTree}
    {outs : Place → Prop} (during' : o.During t sources v') (amended : v.Amended outs v')
    {y c : Bytes} (apart : ∀ q, outs q → ¬ (o.prepared t).LeadsTo y q) (read : v.readFile y = .ok c) :
    v'.readFile y = .ok c := by
  refine FileTree.Amended.readFile_eq during during' (fun q leads => ?_) read
  rcases amended.entry q with same | ⟨out, -⟩
  · exact same
  · exact absurd leads (apart q out)

theorem World.call_eq (w : World) {c : ToolCall} (h : (tools w.tree c).2 = none) :
    w.call tools c = (⟨(tools w.tree c).1, w.calls ++ [c]⟩, none) := by
  simp only [World.call, h]

/-- What stands in the files for a unit: its listing once it is written, and what the assembler
made of it until the linker has run. -/
structure Stands (o : BuildOptions) (tools : Toolbox) (t : FileTree) (sources : List Bytes)
    (u : BuildUnit) (v : FileTree) : Prop where
  listing : u.hasWritten = true → ∀ r, u.outcome = some (.ok r) → v.readFile u.asm = .ok r.2.render
  object : u.stage = .assembled → ∀ r, u.outcome = some (.ok r) → ∃ w, o.During t sources w ∧
    w.readFile u.asm = .ok r.2.render ∧
    ∀ c, (tools w (u.assemblerCall o)).1.readFile u.obj = .ok c → v.readFile u.obj = .ok c

theorem Stands.of_not_written {u : BuildUnit} (h : u.hasWritten = false) :
    Stands o tools t sources u v := by
  refine ⟨fun written => ?_, fun assembled => ?_⟩
  · simp [h] at written
  · simp [BuildUnit.hasWritten, assembled] at h

/-- What a step does beside moving its unit on: it makes calls, and writes at its own outputs. -/
structure Moves (o : BuildOptions) (tools : Toolbox) (t : FileTree) (sources : List Bytes) (s : Bytes)
    (u u' : BuildUnit) (w w' : World) : Prop where
  calls : ∃ cs, w'.calls = w.calls ++ cs ∧ u'.callsMade o = u.callsMade o ++ cs
  files : (w'.tree = w.tree ∧ u'.hasWritten = u.hasWritten) ∨
    u'.hasWritten = true ∧ o.During t sources w'.tree ∧
      ∃ v, (o.During t sources w.tree → v = w.tree) ∧ v.Amended (o.Own t s) w'.tree
  stands : Stands o tools t sources u' w'.tree

theorem BuildOptions.Separate.step_eq (h : o.Separate tools t sources) (mem : s ∈ sources)
    {u : BuildUnit} (along : u.Along o t s) (w : World) (meets : o.Meets t sources w.tree)
    (during : u.hasWritten = true → o.During t sources w.tree)
    (stands : Stands o tools t sources u w.tree) :
    ∃ w', u.step o tools w = (u.alone o t, w', none) ∧
      Moves o tools t sources s u (u.alone o t) w w' := by
  cases along with
  | waiting =>
    refine ⟨w, ?_, ⟨[], by simp, rfl⟩, .inl ⟨rfl, rfl⟩, .of_not_written rfl⟩
    simp only [BuildUnit.step, BuildUnit.ofSource, Toolbox.disk_site,
      Disk.read_host (h.readFile mem meets), BuildUnit.alone]
  | loaded =>
    cases compiles : compile s (t.content s) o.target with
    | ok r =>
      refine ⟨w, ?_, ⟨[], by simp, ?_⟩, .inl ⟨rfl, ?_⟩, .of_not_written ?_⟩
      all_goals simp only [BuildUnit.step, BuildUnit.alone, BuildUnit.ofSource, compiles]
      all_goals rfl
    | error e =>
      refine ⟨w, ?_, ⟨[], by simp, ?_⟩, .inl ⟨rfl, ?_⟩, .of_not_written ?_⟩
      all_goals simp only [BuildUnit.step, BuildUnit.alone, BuildUnit.ofSource, compiles]
      all_goals simp [BuildUnit.callsMade, BuildUnit.hasWritten, BuildUnit.compiled]
  | refused _ =>
    exact ⟨w, rfl, ⟨[], by simp, by simp [BuildUnit.alone]⟩, .inl ⟨rfl, rfl⟩, .of_not_written rfl⟩
  | @compiled r compiles =>
    obtain ⟨v, v', wrote, origin, -, amended, after, read⟩ := h.writeListing mem compiles w meets
    refine ⟨{ w with tree := v' }, ?_, ⟨[], by simp, ?_⟩, .inr ⟨?_, after, v, origin, amended⟩,
      ?_⟩
    · simp only [BuildUnit.ofSource] at wrote
      simp only [BuildUnit.step, BuildUnit.ofSource, Toolbox.disk_site, wrote, BuildUnit.alone]
    · cases link : o.link <;> simp [BuildUnit.alone, BuildUnit.callsMade, link]
    · cases link : o.link <;> simp [BuildUnit.alone, BuildUnit.hasWritten, BuildUnit.compiled, link]
    · refine ⟨fun _ r' same => ?_, fun assembled => ?_⟩
      · cases same
        exact read
      · cases link : o.link <;> simp [BuildUnit.alone, link] at assembled
  | @written r compiles link =>
    have serves := h.tools link s mem r compiles
    have before := during rfl
    have read := stands.listing rfl r rfl
    have obj : (BuildUnit.ofSource o.outDir s).obj ∈ BuildUnit.outputs o s := by
      simp [BuildUnit.outputs, link]
    obtain ⟨amended, after⟩ := before.amend mem compiles obj (serves.assembler w.tree)
    have called := World.call_eq w (serves.assembles w.tree before read)
    refine ⟨⟨_, w.calls ++ [(BuildUnit.ofSource o.outDir s).assemblerCall o]⟩, ?_, ⟨_, rfl, rfl⟩,
      .inr ⟨rfl, after, w.tree, fun _ => rfl, amended⟩, ?_⟩
    · simp only [BuildUnit.assemblerCall] at called
      simp only [BuildUnit.step, BuildUnit.assemblerCall, Toolbox.tools_site, called, BuildUnit.alone]
    · refine ⟨fun _ r' same => ?_, fun _ r' same => ?_⟩
      · cases same
        refine before.readFile_eq after (serves.assembler w.tree) (fun q out leads => ?_) read
        exact (h.own_apart mem link leads).1 (before.leadsTo_iff.mp out)
      · cases same
        exact ⟨w.tree, before, read, fun c object => object⟩
  | @assembled r compiles link =>
    have serves := h.tools link s mem r compiles
    have before := during rfl
    obtain ⟨v, earlier, listed, object⟩ := stands.object rfl r rfl
    have exe : (BuildUnit.ofSource o.outDir s).exe ∈ BuildUnit.outputs o s := by
      simp [BuildUnit.outputs, link]
    obtain ⟨amended, after⟩ := before.amend mem compiles exe (serves.linker w.tree)
    have called := World.call_eq w (serves.links v w.tree earlier listed before object)
    refine ⟨⟨_, w.calls ++ [(BuildUnit.ofSource o.outDir s).linkerCall o]⟩, ?_, ⟨_, rfl, ?_⟩,
      .inr ⟨rfl, after, w.tree, fun _ => rfl, amended⟩, ?_⟩
    · simp only [BuildUnit.linkerCall] at called
      simp only [BuildUnit.step, BuildUnit.linkerCall, Toolbox.tools_site, called, BuildUnit.alone]
    · simp only [BuildUnit.callsMade, BuildUnit.alone, link, BuildUnit.compiled]
      rfl
    · refine ⟨fun _ r' same => ?_, fun assembled => by cases assembled⟩
      cases same
      refine before.readFile_eq after (serves.linker w.tree) (fun q out leads => ?_)
        (stands.listing rfl r rfl)
      exact (h.own_apart mem link leads).2 (before.leadsTo_iff.mp out)
  | finished compiles =>
    exact ⟨w, rfl, ⟨[], by simp, by simp [BuildUnit.alone]⟩, .inl ⟨rfl, rfl⟩, stands⟩

theorem BuildUnit.Along.outputs_eq {u : BuildUnit} (h : u.Along o t s) :
    u.asm = (ofSource o.outDir s).asm ∧ u.obj = (ofSource o.outDir s).obj ∧
      (u.stage = .assembled → o.link = true) := by
  cases h with
  | assembled _ link => exact ⟨rfl, rfl, fun _ => link⟩
  | waiting | loaded | refused | compiled | written | finished =>
    exact ⟨rfl, rfl, fun assembled => by cases assembled⟩

/-- What stands in the files for a unit stands there after a step of another. -/
theorem BuildOptions.Separate.stands_frame (h : o.Separate tools t sources) {i j : Nat} {s' : Bytes}
    (hi : sources[i]? = some s) (hj : sources[j]? = some s') (ne : i ≠ j) {u u' z : BuildUnit}
    {w w' : World} (moves : Moves o tools t sources s u u' w w') (along : z.Along o t s')
    (during : z.hasWritten = true → o.During t sources w.tree)
    (stands : Stands o tools t sources z w.tree) : Stands o tools t sources z w'.tree := by
  obtain ⟨asm, obj, linked⟩ := along.outputs_eq
  rcases moves.files with ⟨same, -⟩ | ⟨-, after, v, origin, amended⟩
  · rwa [same]
  · cases written : z.hasWritten with
    | false => exact .of_not_written written
    | true =>
      have before := during written
      obtain rfl := origin before
      have read {y c : Bytes} (hy : y ∈ BuildUnit.outputs o s') (read : w.tree.readFile y = .ok c) :
          w'.tree.readFile y = .ok c :=
        before.readFile_eq after amended (fun q own => h.apart hi hj ne hy own) read
      refine ⟨fun _ r compiles => read (asm ▸ asm_mem_outputs o s') (stands.listing written r compiles),
        fun assembled r compiles => ?_⟩
      obtain ⟨x, earlier, listed, object⟩ := stands.object assembled r compiles
      have hy : z.obj ∈ BuildUnit.outputs o s' := by simp [BuildUnit.outputs, linked assembled, obj]
      exact ⟨x, earlier, listed, fun c made => read hy (object c made)⟩

end Files

end PrintLang
