import PrintLang.Proofs.Build.Outputs
import PrintLang.Session

set_option autoImplicit false

namespace PrintLang

/-- What is done for a unit beyond compiling it. -/
inductive Deed where
  | write
  | assemble
  | link
deriving DecidableEq, Repr

structure Event where
  unit : Nat
  deed : Deed
  well : Bool
deriving DecidableEq, Repr

/-- What is due for every unit that compiles. -/
def BuildOptions.deeds (o : BuildOptions) : List Deed :=
  if o.link then [.write, .assemble, .link] else [.write]

theorem BuildOptions.write_mem_deeds (o : BuildOptions) : .write ∈ o.deeds := by
  unfold deeds
  split <;> exact List.mem_cons_self

theorem BuildOptions.deeds_nodup (o : BuildOptions) : o.deeds.Nodup := by
  unfold deeds
  split <;> decide

namespace Event

def own (i : Nat) (events : List Event) : List (Deed × Bool) :=
  (events.filter (·.unit = i)).map fun e => (e.deed, e.well)

theorem own_append (i : Nat) (events more : List Event) :
    own i (events ++ more) = own i events ++ own i more := by
  rw [own, List.filter_append, List.map_append]
  rfl

theorem mem_own {i : Nat} {events : List Event} {d : Deed} {well : Bool} :
    (d, well) ∈ own i events ↔ ⟨i, d, well⟩ ∈ events := by
  unfold own
  constructor
  · intro h
    obtain ⟨⟨j, d', well'⟩, he, same⟩ := List.mem_map.mp h
    obtain ⟨mem, here⟩ := List.mem_filter.mp he
    obtain ⟨rfl, rfl⟩ := Prod.mk.inj same
    obtain rfl : j = i := by simpa using here
    exact mem
  · intro h
    exact List.mem_map.mpr ⟨_, List.mem_filter.mpr ⟨h, by simp⟩, rfl⟩

/-- All that is due went well for the unit at a position. -/
def Produced (o : BuildOptions) (events : List Event) (i : Nat) : Prop :=
  ∀ d ∈ o.deeds, ⟨i, d, true⟩ ∈ events

def Spoiled (events : List Event) (i : Nat) : Prop := ∃ e ∈ events, e.unit = i ∧ e.well = false

instance (o : BuildOptions) (events : List Event) (i : Nat) : Decidable (Produced o events i) :=
  inferInstanceAs (Decidable (∀ _ ∈ _, _))

instance (events : List Event) (i : Nat) : Decidable (Spoiled events i) :=
  inferInstanceAs (Decidable (∃ _ ∈ _, _))

end Event

theorem Group.after_eq_none_iff {g : Group} {kept new : Option Failure} :
    g.after kept new = none ↔ kept = none ∧ new = none := by
  cases new <;> simp [after]

namespace BuildUnit
variable {o : BuildOptions} {site : Site} {u : BuildUnit} {log : List (Deed × Bool)}

def deed? (o : BuildOptions) (site : Site) (u : BuildUnit) (w : World) : Option (Deed × Bool) :=
  match u.stage with
  | .compiled listing =>
    some (.write, (w.writeListing (site.disk u.source) o.outDir u.asm listing.render).2.isNone)
  | .written => some (.assemble, (site.tools w.tree (u.assemblerCall o)).2.isNone)
  | .assembled => some (.link, (site.tools w.tree (u.linkerCall o)).2.isNone)
  | _ => none

/-- How far the deeds for a unit have come is told by its stage. -/
def Tells (o : BuildOptions) (u : BuildUnit) (log : List (Deed × Bool)) : Prop :=
  match u.stage with
  | .waiting | .loaded _ => u.compiled = false ∧ log = []
  | .compiled _ => u.compiled = true ∧ log = []
  | .written => u.compiled = true ∧ o.link = true ∧ log = [(.write, true)]
  | .assembled => u.compiled = true ∧ o.link = true ∧ log = [(.write, true), (.assemble, true)]
  | .finished =>
    u.compiled = false ∧ log = [] ∨
    u.compiled = true ∧ (log = o.deeds.map (·, true) ∨
      ∃ done d, done ++ [d] <+: o.deeds ∧ log = done.map (·, true) ++ [(d, false)])

theorem Tells.fails (done : List Deed) {d : Deed} (stage : u.stage = .finished)
    (compiled : u.compiled = true) (due : done ++ [d] <+: o.deeds) :
    u.Tells o (done.map (·, true) ++ [(d, false)]) := by
  unfold Tells
  rw [stage]
  exact .inr ⟨compiled, .inr ⟨done, d, due, rfl⟩⟩

/-- The step lemma. A deed that fails is a failure of the step. -/
theorem Tells.step (h : u.Tells o log) (site : Site) (w : World) :
    (u.step o site w).1.Tells o (log ++ (u.deed? o site w).toList) ∧
      ∀ d, u.deed? o site w = some (d, false) → (u.step o site w).2.2 ≠ none := by
  obtain ⟨source, asm, obj, exe, outcome, stage⟩ := u
  cases stage with
  | waiting =>
    obtain ⟨fresh, rfl⟩ := h
    simp only [BuildUnit.step, deed?]
    split
    · exact ⟨⟨fresh, rfl⟩, fun _ deed => by cases deed⟩
    · exact ⟨.inl ⟨fresh, rfl⟩, fun _ deed => by cases deed⟩
  | loaded text =>
    obtain ⟨-, rfl⟩ := h
    simp only [BuildUnit.step, deed?]
    split
    · next result => exact ⟨⟨by simp only [BuildUnit.compiled, result], rfl⟩, fun _ deed => by cases deed⟩
    · next result => exact ⟨.inl ⟨by simp only [BuildUnit.compiled, result], rfl⟩, fun _ deed => by cases deed⟩
  | compiled listing =>
    obtain ⟨compiled, rfl⟩ := h
    rcases written : w.writeListing (site.disk source) o.outDir asm listing.render with ⟨w', _ | f⟩
    · simp only [BuildUnit.step, deed?, written]
      refine ⟨?_, fun _ deed => by cases deed⟩
      cases link : o.link with
      | true => exact ⟨compiled, link, rfl⟩
      | false => exact .inr ⟨compiled, .inl (by rw [BuildOptions.deeds, link]; rfl)⟩
    · simp only [BuildUnit.step, deed?, written]
      refine ⟨.fails [] rfl compiled ?_, fun _ _ none => by cases none⟩
      unfold BuildOptions.deeds
      split <;> exact ⟨_, rfl⟩
  | written =>
    obtain ⟨compiled, link, rfl⟩ := h
    cases called : (site.tools w.tree (assemblerCall ⟨source, asm, obj, exe, outcome, .written⟩ o)).2 with
    | none =>
      simp only [BuildUnit.step, deed?, World.call, called]
      exact ⟨⟨compiled, link, rfl⟩, fun _ deed => by cases deed⟩
    | some f =>
      simp only [BuildUnit.step, deed?, World.call, called]
      refine ⟨.fails [.write] rfl compiled ?_, fun _ _ none => by cases none⟩
      rw [BuildOptions.deeds, link]
      exact ⟨_, rfl⟩
  | assembled =>
    obtain ⟨compiled, link, rfl⟩ := h
    have deeds : o.deeds = [.write, .assemble, .link] := if_pos link
    cases called : (site.tools w.tree (linkerCall ⟨source, asm, obj, exe, outcome, .assembled⟩ o)).2 with
    | none =>
      simp only [BuildUnit.step, deed?, World.call, called]
      exact ⟨.inr ⟨compiled, .inl (by rw [deeds]; rfl)⟩, fun _ deed => by cases deed⟩
    | some f =>
      simp only [BuildUnit.step, deed?, World.call, called]
      refine ⟨.fails [.write, .assemble] rfl compiled ?_, fun _ _ none => by cases none⟩
      rw [deeds]
      exact ⟨[], rfl⟩
  | finished =>
    refine ⟨?_, fun _ deed => by cases deed⟩
    simp only [BuildUnit.step, deed?, Option.toList_none, List.append_nil]
    exact h

/-- A unit that has come to its end was compiled if and only if something was done for it. -/
theorem Tells.compiled_iff {events : List Event} {i : Nat} (h : u.Tells o (Event.own i events))
    (finished : u.stage = .finished) :
    (u.compiled = true ↔ Event.Produced o events i ∨ Event.Spoiled events i) ∧
      (Event.Spoiled events i → ¬ Event.Produced o events i) := by
  have spoiled_iff : Event.Spoiled events i ↔ ∃ d, (d, false) ∈ Event.own i events := by
    constructor
    · rintro ⟨⟨_, d, _⟩, mem, rfl, rfl⟩
      exact ⟨d, Event.mem_own.mpr mem⟩
    · rintro ⟨d, mem⟩
      exact ⟨_, Event.mem_own.mp mem, rfl, rfl⟩
  have produced_iff : Event.Produced o events i ↔ ∀ d ∈ o.deeds, (d, true) ∈ Event.own i events :=
    forall₂_congr fun d _ => Event.mem_own.symm
  rw [spoiled_iff, produced_iff]
  unfold Tells at h
  rw [finished] at h
  rcases h with ⟨fresh, none⟩ | ⟨compiled, all | ⟨done, d, due, log⟩⟩
  · rw [none, fresh]
    refine ⟨iff_of_false (by decide) ?_, by simp⟩
    rintro (all | ⟨d, no⟩)
    · exact absurd (all _ o.write_mem_deeds) List.not_mem_nil
    · exact absurd no List.not_mem_nil
  · rw [all]
    refine ⟨iff_of_true compiled (.inl fun d hd => List.mem_map_of_mem hd), ?_⟩
    rintro ⟨d, no⟩
    simp at no
  · rw [log]
    refine ⟨iff_of_true compiled (.inr ⟨d, by simp⟩), fun _ all => ?_⟩
    -- no deed is due twice, so what has failed has not gone well before
    have new : d ∉ done := by
      have nodup := o.deeds_nodup.sublist due.sublist
      rw [List.nodup_append] at nodup
      exact fun old => nodup.2.2 d old d List.mem_cons_self rfl
    have old := all d (due.subset (by simp))
    simp [new] at old

def stepsLeft (u : BuildUnit) : Nat :=
  match u.stage with
  | .waiting => 5
  | .loaded _ => 4
  | .compiled _ => 3
  | .written => 2
  | .assembled => 1
  | .finished => 0

theorem stepsLeft_step (o : BuildOptions) (site : Site) (u : BuildUnit) (w : World) :
    (u.step o site w).1.stepsLeft ≤ u.stepsLeft - 1 := by
  obtain ⟨source, asm, obj, exe, outcome, stage⟩ := u
  cases stage with
  | waiting | loaded | written | assembled =>
    simp only [BuildUnit.step]
    split <;> simp [stepsLeft]
  | compiled =>
    simp only [BuildUnit.step]
    split
    · cases o.link <;> simp [stepsLeft]
    · simp [stepsLeft]
  | finished => exact Nat.le_refl 0

theorem finished_of_stepsLeft (h : u.stepsLeft = 0) : u.stage = .finished := by
  unfold stepsLeft at h
  cases stage : u.stage <;> simp_all

end BuildUnit

namespace BuildState
variable {o : BuildOptions} {site : Site} {b : BuildState} {past : List Event} {taken : List Nat}

def event? (o : BuildOptions) (site : Site) (b : BuildState) (i : Nat) : Option Event :=
  b.units[i]?.bind fun u =>
    (u.deed? o (site.now b.calledOff) b.world).map fun x => ⟨i, x.1, x.2⟩

def events (o : BuildOptions) (site : Site) : BuildState → (schedule : List Nat) → List Event
  | _, [] => []
  | b, i :: schedule =>
    (b.event? o site i).toList ++ events o site (b.advance o site i) schedule

/-- A build after some steps and what was done in them. -/
structure Records (o : BuildOptions) (taken : List Nat) (past : List Event) (b : BuildState) :
    Prop where
  tells : ∀ (i : Nat) (u : BuildUnit), b.units[i]? = some u → u.Tells o (Event.own i past)
  left : ∀ (i : Nat) (u : BuildUnit), b.units[i]? = some u →
    u.stepsLeft ≤ stepsPerUnit - taken.count i
  failure : ∀ e ∈ past, e.well = false → b.failure ≠ none

theorem records_start (o : BuildOptions) (sources : List Bytes) (t : FileTree) (cancel : Bool) :
    (start o.outDir sources t cancel).Records o [] [] := by
  have fresh : ∀ (i : Nat) (u : BuildUnit), (start o.outDir sources t cancel).units[i]? = some u →
      ∃ s, u = .ofSource o.outDir s := by
    intro i u found
    obtain ⟨s, -, rfl⟩ := List.mem_map.mp (List.mem_of_getElem? found)
    exact ⟨s, rfl⟩
  refine ⟨fun i u found => ?_, fun i u found => ?_, fun e he => absurd he List.not_mem_nil⟩
  · obtain ⟨s, rfl⟩ := fresh i u found
    exact ⟨rfl, rfl⟩
  · obtain ⟨s, rfl⟩ := fresh i u found
    exact Nat.le_refl _

theorem event?_of_found {i : Nat} {u : BuildUnit} (found : b.units[i]? = some u) :
    b.event? o site i =
      (u.deed? o (site.now b.calledOff) b.world).map fun x => ⟨i, x.1, x.2⟩ := by
  rw [event?, found]
  rfl

theorem own_event? {i : Nat} {u : BuildUnit} (found : b.units[i]? = some u) :
    Event.own i (b.event? o site i).toList =
      (u.deed? o (site.now b.calledOff) b.world).toList := by
  rw [event?_of_found found]
  cases u.deed? o (site.now b.calledOff) b.world <;> simp [Event.own]

theorem own_event?_of_ne {i j : Nat} (ne : i ≠ j) : Event.own j (b.event? o site i).toList = [] := by
  unfold event?
  cases b.units[i]? with
  | none => rfl
  | some u =>
    cases deed : u.deed? o (site.now b.calledOff) b.world <;> simp [Event.own, deed, ne]

theorem Records.set (h : b.Records o taken past) {i : Nat} {u v : BuildUnit} {c : BuildState}
    (found : b.units[i]? = some u) (units : c.units = b.units.set i v)
    (tells : v.Tells o (Event.own i past ++ (u.deed? o (site.now b.calledOff) b.world).toList))
    (left : v.stepsLeft ≤ u.stepsLeft - 1)
    (kept : b.failure ≠ none → c.failure ≠ none)
    (failure : ∀ d, u.deed? o (site.now b.calledOff) b.world = some (d, false) →
      c.failure ≠ none) :
    c.Records o (taken ++ [i]) (past ++ (b.event? o site i).toList) := by
  have bound : i < b.units.length := (List.getElem?_eq_some_iff.mp found).choose
  refine ⟨fun j z hz => ?_, fun j z hz => ?_, fun e he => ?_⟩
  · rw [units] at hz
    rw [Event.own_append]
    by_cases same : i = j
    · subst same
      obtain rfl : v = z := by simpa [List.getElem?_set_self bound] using hz
      rwa [own_event? found]
    · rw [List.getElem?_set_ne same] at hz
      rw [own_event?_of_ne same, List.append_nil]
      exact h.tells j z hz
  · rw [units] at hz
    by_cases same : i = j
    · subst same
      obtain rfl : v = z := by simpa [List.getElem?_set_self bound] using hz
      have before := h.left i u found
      rw [List.count_append, List.count_singleton_self]
      omega
    · rw [List.getElem?_set_ne same] at hz
      rw [count_append_of_ne same]
      exact h.left j z hz
  · rcases List.mem_append.mp he with old | new
    · exact fun fails => kept (h.failure e old fails)
    · rw [event?_of_found found, Option.mem_toList, Option.map_eq_some_iff] at new
      obtain ⟨⟨d, well⟩, deed, rfl⟩ := new
      rintro rfl
      exact failure d deed

theorem Records.advance (h : b.Records o taken past) {i : Nat} {c : BuildState}
    (step : Advance o site b i c) :
    c.Records o (taken ++ [i]) (past ++ (b.event? o site i).toList) := by
  cases step with
  | none gone =>
    have nothing : b.event? o site i = none := by
      rw [event?, gone]
      rfl
    rw [nothing, Option.toList_none, List.append_nil]
    refine { h with left := fun j z hz => ?_ }
    have other : i ≠ j := by
      rintro rfl
      rw [gone] at hz
      cases hz
    rw [count_append_of_ne other]
    exact h.left j z hz
  | @step u found =>
    obtain ⟨tells, fails⟩ := (h.tells i u found).step (site.now b.calledOff) b.world
    refine h.set found rfl tells (u.stepsLeft_step o _ b.world) (fun had no => ?_) fun d deed no => ?_
    · exact had (Group.after_eq_none_iff.mp no).1
    · exact fails d deed (Group.after_eq_none_iff.mp no).2
  | @stop u found mayNot =>
    have stage : u.stage = .waiting := by
      unfold mayStep at mayNot
      split at mayNot
      · assumption
      · cases mayNot
    have tells := h.tells i u found
    have nothing : u.deed? o (site.now b.calledOff) b.world = none := by
      simp only [BuildUnit.deed?, stage]
    simp only [BuildUnit.Tells, stage] at tells
    refine h.set found rfl ?_ (Nat.zero_le _) (fun _ no => ?_) fun d deed => ?_
    · rw [nothing, Option.toList_none, List.append_nil]
      exact .inl tells
    · exact absurd no (Option.some_ne_none _)
    · rw [nothing] at deed
      cases deed

/-- The run lemma, by induction on the schedule. -/
theorem Records.run (h : b.Records o taken past) (site : Site) (schedule : List Nat) :
    (b.run o site schedule).Records o (taken ++ schedule) (past ++ b.events o site schedule) := by
  induction schedule generalizing b taken past with
  | nil =>
    rw [events, List.append_nil, List.append_nil]
    exact h
  | cons i schedule ih =>
    have rest := ih (h.advance (advance_spec o site b i))
    rwa [List.append_assoc, List.append_assoc] at rest

end BuildState

def BuildOptions.line (o : BuildOptions) (s : Bytes) : Bytes :=
  s ++ bytes " -> " ++ (if o.link then Path.exePath s o.outDir else Path.asmPath s o.outDir) ++ [10]

theorem announce_eq {o : BuildOptions} {sources : List Bytes} {units : List BuildUnit} (k : Nat)
    (origin : units.map BuildUnit.origin = sources.map (BuildUnit.ofSource o.outDir))
    {p : Nat → Prop} [DecidablePred p]
    (compiled : ∀ (i : Nat) (u : BuildUnit), units[i]? = some u → (u.compiled = true ↔ p (k + i))) :
    announce o.link units =
      ((sources.zipIdx k).filter fun x => p x.2).flatMap fun x => o.line x.1 := by
  induction sources generalizing units k with
  | nil =>
    rw [List.map_eq_nil_iff.mp origin]
    rfl
  | cons s sources ih =>
    obtain ⟨u, us, rfl, first, rest⟩ := List.map_eq_cons_iff.mp origin
    have rest := ih (k + 1) rest fun i v found => by
      rw [Nat.add_assoc, Nat.add_comm 1 i]
      exact compiled (i + 1) v found
    have line : o.line s =
        u.source ++ bytes " -> " ++ (if o.link then u.exe else u.asm) ++ [10] := by
      have source : u.source = s := congrArg BuildUnit.source first
      have asm : u.asm = Path.asmPath s o.outDir := congrArg BuildUnit.asm first
      have exe : u.exe = Path.exePath s o.outDir := congrArg BuildUnit.exe first
      rw [BuildOptions.line, source, asm, exe]
    have here := compiled 0 u rfl
    rw [announce] at rest ⊢
    rw [List.zipIdx_cons, List.filter_cons, List.filter_cons]
    by_cases yes : u.compiled = true
    · rw [if_pos yes, if_pos (by simpa using here.mp yes), List.flatMap_cons, List.flatMap_cons, rest,
        line]
    · rw [if_neg yes, if_neg (by simpa using mt here.mpr yes), rest]

/-- What is printed for a build. -/
structure BuildOptions.Reports (o : BuildOptions) (sources : List Bytes) (events : List Event)
    (fails : Prop) (out : Bytes) : Prop where
  /-- One line for every unit that is produced or spoiled, in the order of the sources. -/
  lines : out = (sources.zipIdx.filter fun x => Event.Produced o events x.2 ∨
    Event.Spoiled events x.2).flatMap fun x => o.line x.1
  apart : ∀ i < sources.length, Event.Spoiled events i → ¬ Event.Produced o events i
  spoils : ∀ i, Event.Spoiled events i → fails
  /-- In a build that does not fail the lines are those of the units that are produced. -/
  success : ¬ fails → out = (sources.zipIdx.filter fun x =>
    Event.Produced o events x.2).flatMap fun x => o.line x.1

theorem BuildState.result_ne_none {b : BuildState} (h : b.failure ≠ none) : b.result ≠ none := by
  unfold result
  split
  · exact nofun
  · next none => exact absurd none h

theorem BuildState.reports (o : BuildOptions) (site : Site) (t : FileTree) (sources : List Bytes)
    (cancel : Bool) (schedule : List Nat)
    (complete : ∀ i < sources.length, stepsPerUnit ≤ schedule.count i) :
    let start := BuildState.start o.outDir sources t cancel
    o.Reports sources (start.events o site schedule) ((start.run o site schedule).result ≠ none)
      (announce o.link (start.run o site schedule).units) := by
  intro start
  have records := (records_start o sources t cancel).run site schedule
  have origin := run_start_origin o site t sources cancel schedule
  have length : (start.run o site schedule).units.length = sources.length := by
    simpa using congrArg List.length origin
  rw [List.nil_append, List.nil_append] at records
  have ends (i : Nat) (u : BuildUnit) (found : (start.run o site schedule).units[i]? = some u) :=
    (records.tells i u found).compiled_iff <| BuildUnit.finished_of_stepsLeft <| by
      have left := records.left i u found
      have bound := (List.getElem?_eq_some_iff.mp found).choose
      have enough := complete i (length ▸ bound)
      omega
  have lines := announce_eq 0 origin
    (p := fun i => Event.Produced o (start.events o site schedule) i ∨
      Event.Spoiled (start.events o site schedule) i)
    fun i u found => by simpa using (ends i u found).1
  have spoils : ∀ i, Event.Spoiled (start.events o site schedule) i →
      (start.run o site schedule).result ≠ none := by
    rintro i ⟨e, mem, -, fails⟩
    exact result_ne_none (records.failure e mem fails)
  refine ⟨lines, fun i bound => ?_, spoils, fun well => ?_⟩
  · exact (ends i _ (List.getElem?_eq_getElem (length ▸ bound))).2
  · have none : ∀ i, ¬ Event.Spoiled (start.events o site schedule) i :=
      fun i spoiled => well (spoils i spoiled)
    simp only [none, or_false] at lines
    exact lines

/-- What a build command prints: nothing, when the sources cannot be collected or the build is refused
for its target or for two listings at one place, or else the lines of the units for which
everything went well and of those for which something failed, whichever order their steps are taken in.
The latter are there only if the command fails. -/
theorem performBuild_reports (s : Session) (tools : Toolbox) (tree : FileTree) (opts : Options)
    (args : List Bytes) :
    let r := performBuild s tools tree opts args
    let o : BuildOptions := ⟨s.target, s.settings.toolchain, opts.outDir, opts.link⟩
    (r.stdout = [] ∧ r.tree = tree ∧ ∃ f, r.failure = some f ∧
      ((∃ e, tree.collectSources args = .error e ∧ f = e.failure) ∨
      ∃ sources, tree.collectSources args = .ok sources ∧ (s.target.fault? ≠ none ∨
        f.has .outputConflict = true ∧ OutputConflict.find? tree []
          (sources.map (BuildUnit.ofSource o.outDir)) ≠ none))) ∨
    ∃ sources, tree.collectSources args = .ok sources ∧
      let start := BuildState.start o.outDir sources tree false
      o.Reports sources (start.events o tools (BuildState.sequential sources.length))
        (r.failure ≠ none) r.stdout ∧
      ∀ schedule, (∀ i < sources.length, stepsPerUnit ≤ schedule.count i) →
        o.Reports sources (start.events o tools schedule)
          ((start.run o tools schedule).result ≠ none)
          (announce o.link (start.run o tools schedule).units) := by
  intro r o
  cases found : tree.collectSources args with
  | error e =>
    have same : r = ⟨[], tree, some e.failure⟩ := by simp only [r, performBuild, found]
    rw [same]
    exact .inl ⟨rfl, rfl, _, rfl, .inl ⟨e, rfl, rfl⟩⟩
  | ok sources =>
    have same : r = ⟨announce o.link (build o tools tree sources false).units,
        (build o tools tree sources false).world.tree,
        (build o tools tree sources false).failure⟩ := by simp only [r, performBuild, found, o]
    rw [same]
    rcases build_cases o tools tree sources false with ⟨f, refused, why⟩ | ⟨-, -, ends⟩
    · rw [refused]
      exact .inl ⟨rfl, rfl, f, rfl, .inr ⟨sources, rfl, why⟩⟩
    · rw [ends]
      have reports := BuildState.reports o tools tree sources false
      exact .inr ⟨sources, rfl, reports _ fun i hi => BuildState.sequential_complete hi,
        reports⟩

/-- A directory stands where the listing of the source goes. -/
def blockedTree : FileTree where
  workDir := []
  entries := [([bytes "a.kt"], .file (bytes "println(1)") false), ([bytes "a.asm"], .directory)]

def brokenTools : Toolbox := fun v _ => (v, some (.plain none (bytes "exit status 1")))

/-- A listing is announced that could not be written, and an executable without an assembler that
worked. -/
theorem failed_output_announced :
    let s : Session := ⟨.default, .linux⟩
    let r := performBuild s brokenTools blockedTree {} [bytes "a.kt"]
    let r' := performBuild s brokenTools shadowedTree { link := true } [bytes "a.kt"]
    (r.stdout = bytes "a.kt -> a.asm\n" ∧ r.tree = blockedTree) ∧
    r'.stdout = bytes "a.kt -> a\n" ∧ r'.tree.stat (bytes "a") =
      .error ⟨bytes "stat", bytes "a", .notFound⟩ := by
  decide +kernel

end PrintLang
