import PrintLang.Proofs.Compile.Run

set_option autoImplicit false

namespace PrintLang

/-- Both computations succeed, with related results, or both fail with the same error. -/
inductive Alike {ε α β : Type} (R : α → β → Prop) : Except ε α → Except ε β → Prop where
  | ok {a : α} {b : β} (h : R a b) : Alike R (.ok a) (.ok b)
  | error (e : ε) : Alike R (.error e) (.error e)

namespace Alike
variable {ε α β γ δ : Type} {R : α → β → Prop} {S : γ → δ → Prop}

theorem bind {x : Except ε α} {y : Except ε β} {k : α → Except ε γ} {l : β → Except ε δ}
    (h : Alike R x y) (next : ∀ a b, R a b → Alike S (k a) (l b)) : Alike S (x >>= k) (y >>= l) := by
  cases h with
  | ok h => exact next _ _ h
  | error e => exact .error e

theorem cases {x : Except ε α} {y : Except ε β} (h : Alike R x y) :
    (∃ a b, x = .ok a ∧ y = .ok b ∧ R a b) ∨ ∃ e, x = .error e ∧ y = .error e := by
  cases h with
  | ok h => exact .inl ⟨_, _, rfl, rfl, h⟩
  | error e => exact .inr ⟨e, rfl, rfl⟩

theorem mapM {f : γ → Except ε α} {g : γ → Except ε β} (h : ∀ x, Alike R (f x) (g x))
    (xs : List γ) : Alike (List.Forall₂ R) (xs.mapM f) (xs.mapM g) := by
  induction xs with
  | nil => exact .ok .nil
  | cons x xs ih =>
    rw [List.mapM_cons, List.mapM_cons]
    refine (h x).bind fun a b first => ih.bind fun as bs rest => ?_
    exact .ok (.cons first rest)

end Alike

inductive Line.Renamed (f g : Bytes) : Line → Line → Prop where
  | same (l : Line) : Renamed f g l l
  | comment (loc : Location) :
    Renamed f g (.comment (bytes "println at " ++ f ++ bytes ":" ++ loc.render))
      (.comment (bytes "println at " ++ g ++ bytes ":" ++ loc.render))

section Generate
variable {f g : Bytes}

theorem forall₂_renamed_refl (ls : Listing) : List.Forall₂ (Line.Renamed f g) ls ls :=
  List.forall₂_same.mpr fun l _ => .same l

theorem statement_renamed (ts : TokenStream) (s : Store) (i : Int) :
    Alike (List.Forall₂ (Line.Renamed f g)) (Lowering.statement ⟨f, ts, s⟩ i)
      (Lowering.statement ⟨g, ts, s⟩ i) := by
  unfold Lowering.statement
  cases s.node? i with
  | none => exact .error _
  | some n =>
    dsimp only
    cases n.shape with
    | println arg =>
      dsimp only
      cases atIndex? ts.tokens n.first with
      | none => exact .error _
      | some tok =>
        cases s.expr? arg.toNat with
        | none => exact .error _
        | some e =>
          dsimp only
          cases e.obstacle? with
          | some err => exact .error _
          | none => exact .ok (.cons (.comment tok.loc) (forall₂_renamed_refl _))
    | _ => exact .error _

theorem generate_renamed (ts : TokenStream) (s : Store) (t : Target) :
    Alike (List.Forall₂ (Line.Renamed f g)) (generate ⟨f, ts, s⟩ t) (generate ⟨g, ts, s⟩ t) := by
  unfold generate
  cases t.fault? with
  | some e => exact .error _
  | none =>
    dsimp only
    obtain ⟨a, b, left, right, parts⟩ | ⟨e, left, right⟩ :=
      (Alike.mapM (fun i => statement_renamed (f := f) (g := g) ts s i) s.stmts.toList).cases
    · rw [left, right]
      exact .ok (List.rel_append (List.rel_append (forall₂_renamed_refl _) (List.rel_flatten parts))
        (forall₂_renamed_refl _))
    · rw [left, right]
      exact .error e

end Generate

section Read
variable {f g : Bytes}

def Reader.ReadAlike (a b : Bytes) : Prop := ∀ line, readLine a line = readLine b line

theorem Reader.mapM_readLine_congr {xs ys : List Bytes} (h : List.Forall₂ ReadAlike xs ys) (k : Nat) :
    (xs.zipIdx k).mapM (fun (raw, i) => readLine raw (i + 1)) =
      (ys.zipIdx k).mapM fun (raw, i) => readLine raw (i + 1) := by
  induction h generalizing k with
  | nil => rfl
  | cons first _ ih =>
    rw [List.zipIdx_cons, List.zipIdx_cons, List.mapM_cons, List.mapM_cons, ih]
    simp only [first (k + 1)]

theorem Line.newline_not_mem_comment {name : Bytes} (h : 10 ∉ name) (loc : Location) :
    10 ∉ (Line.comment (bytes "println at " ++ name ++ bytes ":" ++ loc.render)).render := by
  rw [Line.render]
  simp only [List.mem_append, not_or]
  exact ⟨by decide, ⟨⟨by decide, h⟩, by decide⟩,
    loc.newline_not_mem_render⟩

theorem Line.Renamed.readAlike {l l' : Line} (h : l.Renamed f g l') (hf : 10 ∉ f) (hg : 10 ∉ g) :
    List.Forall₂ Reader.ReadAlike (Bytes.splitOn 10 l.render) (Bytes.splitOn 10 l'.render) := by
  cases h with
  | same l => exact List.forall₂_same.mpr fun raw _ line => rfl
  | comment loc =>
    rw [Bytes.splitOn_of_not_mem (newline_not_mem_comment hf loc),
      Bytes.splitOn_of_not_mem (newline_not_mem_comment hg loc)]
    refine .cons (fun line => ?_) .nil
    exact (Reader.readLine_comment 2 _ line).trans (Reader.readLine_comment 2 _ line).symm

theorem Listing.splitOn_render_cons (l : Line) (ls : Listing) :
    Bytes.splitOn 10 (Listing.render (l :: ls)) =
      Bytes.splitOn 10 l.render ++ Bytes.splitOn 10 ls.render := by
  rw [← Bytes.splitOn_append, Listing.render, List.map_cons, Bytes.lines, List.flatMap_cons,
    List.append_assoc]
  rfl

theorem readAlike_of_renamed {ls ls' : Listing} (h : List.Forall₂ (Line.Renamed f g) ls ls')
    (hf : 10 ∉ f) (hg : 10 ∉ g) :
    List.Forall₂ Reader.ReadAlike (Bytes.splitOn 10 ls.render) (Bytes.splitOn 10 ls'.render) := by
  induction h with
  | nil => exact List.forall₂_same.mpr fun raw _ line => rfl
  | @cons l l' ls ls' first _ ih =>
    rw [Listing.splitOn_render_cons, Listing.splitOn_render_cons]
    exact List.rel_append (first.readAlike hf hg) ih

/-- Listings that differ in the name only have the same image. -/
theorem assemble_renamed {ls ls' : Listing} (h : List.Forall₂ (Line.Renamed f g) ls ls')
    (hf : 10 ∉ f) (hg : 10 ∉ g) : assemble ls.render = assemble ls'.render := by
  have read : Reader.readLines ls.render = Reader.readLines ls'.render :=
    Reader.mapM_readLine_congr (readAlike_of_renamed h hf hg) 0
  rw [assemble, assemble, Assembler.assemble, Assembler.assemble, read]

end Read

/-- Two compilations under two names: programs and listings that differ in the name only, or the same
error under the one name and under the other. -/
inductive Recompiled (f g : Bytes) : Except CompileError (Program × Listing) →
    Except CompileError (Program × Listing) → Prop where
  | ok {p : Program} {ls ls' : Listing} (h : List.Forall₂ (Line.Renamed f g) ls ls') :
    Recompiled f g (.ok ({ p with file := f }, ls)) (.ok ({ p with file := g }, ls'))
  | lexical (tokens : List InvalidToken) :
    Recompiled f g (.error (.lexical ⟨f, tokens⟩)) (.error (.lexical ⟨g, tokens⟩))
  | parse (e : ParseError) :
    Recompiled f g (.error (.parse { e with file := f })) (.error (.parse { e with file := g }))
  | generate (e : GenerateError) : Recompiled f g (.error (.generate e)) (.error (.generate e))

theorem TokenStream.rejected_eq (ts : TokenStream) (file : Bytes) (r : Rejection) :
    ts.rejected file r = { ts.rejected [] r with file } := by
  cases r <;> rfl

theorem compile_recompiled (f g source : Bytes) (t : Target) :
    Recompiled f g (compile f source t) (compile g source t) := by
  unfold compile parse
  dsimp only
  split
  · exact .lexical _
  · cases Parser.statements _ _ _ with
    | error r =>
      dsimp only
      rw [TokenStream.rejected_eq _ f, TokenStream.rejected_eq _ g]
      exact .parse _
    | ok sts =>
      dsimp only
      obtain ⟨ls, ls', left, right, lines⟩ | ⟨e, left, right⟩ :=
        (generate_renamed (f := f) (g := g) (lex source).stream (Store.ofStatements sts) t).cases
      · rw [left, right]
        exact .ok (p := ⟨[], (lex source).stream, Store.ofStatements sts⟩) lines
      · rw [left, right]
        exact .generate e

theorem Recompiled.isOk_eq {f g : Bytes} {x y : Except CompileError (Program × Listing)}
    (h : Recompiled f g x y) : x.isOk = y.isOk := by
  cases h <;> rfl

/-- The same failure, of the same stage, under the one name and under the other. -/
inductive Failure.Renamed (f g : Bytes) : Failure → Failure → Prop where
  | lexical (tokens : List InvalidToken) : Renamed f g (.lexical ⟨f, tokens⟩) (.lexical ⟨g, tokens⟩)
  | parse (e : ParseError) :
    Renamed f g (.parse { e with file := f }) (.parse { e with file := g })
  | stopped (stop : Stop) : Renamed f g (.context f stop.failure) (.context g stop.failure)
  | same (a : Failure) : Renamed f g a a

theorem Failure.Renamed.has_eq {f g : Bytes} {a b : Failure} (h : a.Renamed f g b) (c : ErrorClass) :
    a.has c = b.has c := by
  cases h <;> rfl

theorem Failure.Renamed.class?_eq {f g : Bytes} {a b : Failure} (h : a.Renamed f g b) :
    a.class? = b.class? := by
  unfold class?
  rw [funext h.has_eq]

structure RunResult.Renamed (f g : Bytes) (r s : RunResult) : Prop where
  stdout : r.stdout = s.stdout
  status : (∃ code, r.status = .ok code ∧ s.status = .ok code) ∨
    ∃ a b, r.status = .error a ∧ s.status = .error b ∧ a.Renamed f g b ∧ a.class? = b.class?

namespace RunResult.Renamed
variable {f g : Bytes}

theorem failed {out : Bytes} {a b : Failure} (h : a.Renamed f g b) :
    Renamed f g ⟨out, .error a⟩ ⟨out, .error b⟩ :=
  ⟨rfl, .inr ⟨a, b, rfl, rfl, h, h.class?_eq⟩⟩

theorem refl (r : RunResult) : Renamed f g r r := by
  cases r with
  | mk out status =>
    cases status with
    | ok code => exact ⟨rfl, .inl ⟨code, rfl, rfl⟩⟩
    | error a => exact failed (.same a)

end RunResult.Renamed

theorem runSource_renamed {f g : Bytes} (hf : 10 ∉ f) (hg : 10 ∉ g) (source : Bytes) (t : Target)
    (cancel : Bool) :
    RunResult.Renamed f g (runSource f source t cancel) (runSource g source t cancel) := by
  have compiled := compile_recompiled f g source t
  unfold runSource
  -- The relation splits only on variables: what the two results were compiled from is not needed here.
  generalize compile f source t = x at compiled ⊢
  generalize compile g source t = y at compiled ⊢
  cases compiled with
  | lexical tokens => exact .failed (.lexical tokens)
  | parse e => exact .failed (.parse e)
  | generate e => exact .refl _
  | ok lines =>
    dsimp only
    rw [assemble_renamed lines hf hg]
    cases assemble _ with
    | error e => exact .refl _
    | ok image =>
      dsimp only
      cases Machine.load image with
      | error e => exact .refl _
      | ok m =>
        dsimp only
        split
        · exact .refl _
        · cases Machine.run image t.entry { m with syscalls := t.syscalls } with
          | mk after stop =>
            cases stop with
            | none => exact .refl _
            | some stop => exact .failed (.stopped stop)

/-- The name decides neither whether a source compiles nor, when it has no newline, what its run does. -/
theorem file_name_only_shown (f g source : Bytes) (t : Target) (cancel : Bool) :
    (compile f source t).isOk = (compile g source t).isOk ∧
      Recompiled f g (compile f source t) (compile g source t) ∧
      (10 ∉ f → 10 ∉ g →
        RunResult.Renamed f g (runSource f source t cancel) (runSource g source t cancel)) := by
  have compiled := compile_recompiled f g source t
  exact ⟨compiled.isOk_eq, compiled, fun hf hg => runSource_renamed hf hg source t cancel⟩

def oneSource : Bytes := bytes "println(1)"

theorem file_name_only_shown_one : 10 ∉ bytes "a.kt" ∧ 10 ∉ bytes "x: nop # \r.kt" ∧
    RunResult.Renamed (bytes "a.kt") (bytes "x: nop # \r.kt")
      (runSource (bytes "a.kt") oneSource .linux false)
      (runSource (bytes "x: nop # \r.kt") oneSource .linux false) := by
  have plain : 10 ∉ bytes "a.kt" := by decide +kernel
  have odd : 10 ∉ bytes "x: nop # \r.kt" := by decide +kernel
  exact ⟨plain, odd, (file_name_only_shown _ _ oneSource .linux false).2.2 plain odd⟩

def onePhrase : Phrase :=
  ⟨(⟨.kwPrintln, 0, 7, ⟨1, 1⟩⟩, 0), (⟨.lparen, 7, 8, ⟨1, 8⟩⟩, 1), (⟨.integer, 8, 9, ⟨1, 9⟩⟩, 2),
    (⟨.rparen, 9, 10, ⟨1, 10⟩⟩, 3)⟩

theorem grammatical_oneSource :
    Grammatical oneSource (lex oneSource).stream.significant [onePhrase] :=
  ⟨by decide, ⟨(⟨.eof, 10, 10, ⟨1, 11⟩⟩, 4), rfl, by decide +kernel⟩,
    List.forall_mem_singleton.mpr ⟨rfl, rfl, by decide, fun _ => by decide +kernel, rfl⟩⟩

/-- A name with a newline ends the comment that it stands in; what follows is read as code. -/
theorem newline_in_file_name_is_read :
    (runSource (bytes "a.kt") oneSource .linux false).status = .ok 0 ∧
    (runSource (bytes "a.kt") oneSource .linux false).stdout = bytes "1\n" ∧
    (runSource (bytes "a\nb.kt") oneSource .linux false).status =
      .error (.context (bytes "reading generated listing")
        (.plain none (bytes "invalid label '1' on line 45"))) := by
  have plain : 10 ∉ bytes "a.kt" := by decide +kernel
  have prints := runSource_prints plain (.inl rfl) grammatical_oneSource (by decide) (by decide +kernel)
  refine ⟨prints.1, prints.2.trans (by decide +kernel), ?_⟩
  decide +kernel

end PrintLang
