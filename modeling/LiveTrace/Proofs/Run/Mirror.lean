import LiveTrace.Proofs.Host.Agreement
import LiveTrace.Proofs.Run.Progress
import LiveTrace.Proofs.Workspace.Mirror
import Mathlib.Data.List.Forall2

/-
  The stages of two runs of one submission under the ids `a` and `b`. The hosts agree on the
  submission, and the trees are the same but for the two working directories (`Stage.Mirror`). Every
  stage does the same in both: it comes to the same, or to errors that differ in the id of the
  run (`prepare_same`).
-/
namespace LiveTrace

open LiveTrace.Path (Avoids Interchangeable)

/-! ## What stages come to -/

/-- A project without anything that has the id of a run in its path. -/
structure Project.Avoids (p : Project) (id : String) : Prop where
  sources : ∀ path, Source.file path ∈ p.sources → Path.Avoids path id
  references : ∀ path ∈ p.references, Path.Avoids path id

/-- The same outcome, told of the run `b` instead of the run `a`. -/
inductive RunOutcome.Twin (root a b : String) : RunOutcome → RunOutcome → Prop where
  | same (o : RunOutcome) : Twin root a b o o
  | workspace {e e' : WorkspaceError} (h : e.Twin root a b e') :
    Twin root a b (.faulted (.workspace e)) (.faulted (.workspace e'))
  | load {path path' : String} (h : Path.Twin root a b path path') :
    Twin root a b (.compileErrors (.load path)) (.compileErrors (.load path'))

/-- The same end of a run's stages, told of the run `b` instead of the run `a`. -/
inductive Stage.Halt.Twin (root a b : String) : Stage.Halt → Stage.Halt → Prop where
  | outcome {o o' : RunOutcome} (h : o.Twin root a b o') : Twin root a b (.outcome o) (.outcome o')
  | panicked (p : Panic) : Twin root a b (.panicked p) (.panicked p)

theorem Stage.moduleName_twin {root a b path path' : String} (h : Path.Twin root a b path path') :
    moduleName path' = moduleName path := by
  cases h with
  | same => rfl
  | own hn =>
    unfold moduleName Path.stem?
    rw [hn.fileName?_join, hn.fileName?_join]

section

variable {root a b : String} {d : Place} {f g : Files}

/-- Both runs read the same sources. -/
theorem Source.read_mirror (hm : f.Mirror root a b d g) (hi : Interchangeable a b)
    {sources : List Source} (hs : ∀ path, file path ∈ sources → Avoids path a ∧ Avoids path b) :
    sources.mapM (Source.read g) = sources.mapM (Source.read f) := by
  induction sources with
  | nil => rfl
  | cons s rest ih =>
    have hfirst : s.read g = s.read f := by
      cases s with
      | text t => rfl
      | file path =>
        obtain ⟨ha, hb⟩ := hs path List.mem_cons_self
        unfold Source.read
        dsimp only
        rw [hm.readText hi (.same ha hb)]
    rw [List.mapM_cons, List.mapM_cons, hfirst,
      ih fun path hpath => hs path (List.mem_cons_of_mem s hpath)]

end

/-! ## The stages -/

namespace Stage

variable {σ α β : Type}

/-- Two runs of the submission `k` under the ids `a` and `b` stand in the same place. -/
structure Mirror (k : Key) (root a b : String) (d : Place) (s t : Stage σ) : Prop where
  hosts : s.host.Agree k t.host
  workspaces : s.workspace.Twin root a b t.workspace
  files : s.host.files.Mirror root a b d t.host.files

/-- Two runs have done the same, and `R` relates what it came to. -/
structure Same (k : Key) (root a b : String) (d : Place) (R : α → β → Prop) (x : Stage σ × α)
    (y : Stage σ × β) : Prop where
  stages : x.1.Mirror k root a b d y.1
  results : R x.2 y.2

variable {k : Key} {root a b : String} {d : Place} {s t : Stage σ}

/-- What is done in both working directories is the same for both runs. -/
theorem inWorkspace_same (hs : s.Mirror k root a b d t) {x y : Workspace → Files → Staging}
    (hxy : (x s.workspace s.host.files).Twin root a b d (y t.workspace t.host.files)) :
    Same k root a b d (Paired (RunOutcome.Twin root a b) (Path.Twin root a b)) (s.inWorkspace x)
      (t.inWorkspace y) := by
  obtain ⟨hworkspaces, hfiles, hresults⟩ := hxy
  unfold inWorkspace
  generalize x s.workspace s.host.files = x' at hworkspaces hfiles hresults ⊢
  generalize y t.workspace t.host.files = y' at hworkspaces hfiles hresults ⊢
  obtain ⟨w, f, result⟩ := x'
  obtain ⟨w', f', result'⟩ := y'
  have hstages : Mirror k root a b d ⟨{ s.host with files := f }, w⟩
      ⟨{ t.host with files := f' }, w'⟩ :=
    ⟨hs.hosts.outside hfiles.now _ _ _ _, hworkspaces, hfiles⟩
  cases hresults with
  | error h => exact ⟨hstages, .error (.workspace h)⟩
  | ok h => exact ⟨hstages, .ok h⟩

theorem stageDependency_same (hs : s.Mirror k root a b d t) (hi : Interchangeable a b)
    (c : EvaluatorConfig) {path : String} (ha : Avoids path a) (hb : Avoids path b) :
    Same k root a b d (Paired (RunOutcome.Twin root a b) (Path.Twin root a b))
      (stageDependency c s path) (stageDependency c t path) := by
  unfold stageDependency
  rw [hs.files.pathExists hi (.same ha hb)]
  split
  · exact ⟨hs, .error (.same _)⟩
  · split
    · exact ⟨hs, .ok (.same ha hb)⟩
    · exact inWorkspace_same hs (Workspace.stageFile_twin hs.workspaces hs.files hi ha hb)

theorem stageDependencies_same (hs : s.Mirror k root a b d t) (hi : Interchangeable a b)
    (c : EvaluatorConfig) {paths : List String}
    (hp : ∀ path ∈ paths, Avoids path a ∧ Avoids path b) :
    Same k root a b d (Paired (RunOutcome.Twin root a b) (List.Forall₂ (Path.Twin root a b)))
      (stageDependencies c s paths) (stageDependencies c t paths) := by
  induction paths generalizing s t with
  | nil => exact ⟨hs, .ok .nil⟩
  | cons path rest ih =>
    obtain ⟨ha, hb⟩ := hp path List.mem_cons_self
    obtain ⟨hstages, hfirst⟩ := stageDependency_same hs hi c ha hb
    unfold stageDependencies
    generalize stageDependency c s path = x at hstages hfirst ⊢
    generalize stageDependency c t path = y at hstages hfirst ⊢
    obtain ⟨s', x⟩ := x
    obtain ⟨t', y⟩ := y
    cases hfirst with
    | error h => exact ⟨hstages, .error h⟩
    | @ok first first' h =>
      obtain ⟨hstages', hrest⟩ :=
        ih hstages fun path hpath => hp path (List.mem_cons_of_mem _ hpath)
      dsimp only at hstages' hrest ⊢
      generalize stageDependencies c s' rest = x at hstages' hrest ⊢
      generalize stageDependencies c t' rest = y at hstages' hrest ⊢
      obtain ⟨s'', x⟩ := x
      obtain ⟨t'', y⟩ := y
      cases hrest with
      | error h' => exact ⟨hstages', .error h'⟩
      | ok h' => exact ⟨hstages', .ok (.cons h h')⟩

variable [Engine]

theorem loadModule?_same (hs : s.Mirror k root a b d t) (hi : Interchangeable a b)
    (core : Engine.Core) {path path' : String} (hp : Path.Twin root a b path path') :
    t.loadModule? core path' = s.loadModule? core path := by
  unfold loadModule?
  rw [hs.files.read hi hp]

theorem setUp_same (hs : s.Mirror k root a b d t) (hi : Interchangeable a b)
    (options : CompilerOptions) (id : SubmissionId) {path path' : String}
    (hp : Path.Twin root a b path path') :
    t.setUp options id path' = s.setUp options id path := by
  unfold setUp
  cases Engine.create options with
  | error text => rfl
  | ok core =>
    dsimp only
    rw [loadModule?_same hs hi core hp]

variable [TraceSink σ]

omit [Engine] in
/-- Code that calls hooks leaves the trees alone. -/
theorem Mirror.code (hs : s.Mirror k root a b d t) {h g : Host σ} {p q : Option Panic}
    (hr : s.host.Reported p h) (hr' : t.host.Reported q g) (ha : h.Agree k g) :
    Mirror k root a b d { s with host := h } { t with host := g } := by
  refine ⟨ha, hs.workspaces, ?_⟩
  dsimp only
  rw [hr.files, hr'.files]
  exact hs.files

theorem linkDependency_same (hs : s.Mirror k root a b d t) (hi : Interchangeable a b) (fuel : Nat)
    (l : Linking) {path path' : String} (hp : Path.Twin root a b path path') :
    Same k root a b d (Option.Rel (Paired (Halt.Twin root a b) Eq)) (linkDependency fuel s l path)
      (linkDependency fuel t l path') := by
  unfold linkDependency
  rw [moduleName_twin hp, loadModule?_same hs hi l.core hp]
  cases s.loadModule? l.core path with
  | none => exact ⟨hs, .some (.error (.outcome (.load hp)))⟩
  | some m =>
    obtain ⟨hagree, hresult⟩ := instantiate_same hs.hosts fuel l m
    have hstages := hs.code (instantiate_reported fuel s.host l m)
      (instantiate_reported fuel t.host l m) hagree
    dsimp only
    generalize instantiate fuel s.host l m = x at hstages hresult ⊢
    generalize instantiate fuel t.host l m = y at hstages hresult ⊢
    obtain ⟨h, i⟩ := x
    obtain ⟨g, j⟩ := y
    obtain rfl : i = j := hresult
    rcases i with _ | store | _ | p
    · exact ⟨hstages, .none⟩
    · dsimp only
      cases Engine.register? l.linker store (moduleName path) _ with
      | some linker => exact ⟨hstages, .some (.ok rfl)⟩
      | none => exact ⟨hstages, .some (.error (.outcome (.same _)))⟩
    · exact ⟨hstages, .some (.error (.outcome (.same _)))⟩
    · exact ⟨hstages, .some (.error (.panicked p))⟩

theorem linkDependencies_same (hs : s.Mirror k root a b d t) (hi : Interchangeable a b) (fuel : Nat)
    (l : Linking) {paths paths' : List String}
    (hp : List.Forall₂ (Path.Twin root a b) paths paths') :
    Same k root a b d (Option.Rel (Paired (Halt.Twin root a b) Eq))
      (linkDependencies fuel s l paths) (linkDependencies fuel t l paths') := by
  induction hp generalizing s t l with
  | nil => exact ⟨hs, .some (.ok rfl)⟩
  | @cons path path' rest rest' h hrest ih =>
    obtain ⟨hstages, hfirst⟩ := linkDependency_same hs hi fuel l h
    unfold linkDependencies
    generalize linkDependency fuel s l path = x at hstages hfirst ⊢
    generalize linkDependency fuel t l path' = y at hstages hfirst ⊢
    obtain ⟨s', x⟩ := x
    obtain ⟨t', y⟩ := y
    cases hfirst with
    | none => exact ⟨hstages, .none⟩
    | some hfirst =>
      cases hfirst with
      | error h' => exact ⟨hstages, .some (.error h')⟩
      | ok h' =>
        subst h'
        exact ih hstages _

theorem compile_same (hs : s.Mirror k root a b d t) (hi : Interchangeable a b) (fuel : Nat)
    (id : SubmissionId) {dependencies dependencies' : List String}
    (hd : List.Forall₂ (Path.Twin root a b) dependencies dependencies') (sources : List String)
    (code options : String) :
    Same k root a b d (Option.Rel (Paired (Halt.Twin root a b) Eq))
      (compile fuel s id dependencies sources code options)
      (compile fuel t id dependencies' sources code options) := by
  unfold compile
  obtain ⟨parsed, ds⟩ := CompilerOptions.parse options
  dsimp only
  split
  · exact ⟨hs, .some (.error (.outcome (.same _)))⟩
  · have hname : Path.IsName Assembly.unitFileName := ⟨by decide, by decide, by decide, by decide⟩
    generalize Utf8.encode (Assembly.assemble sources code).toList = bytes
    generalize ds.map (fun d : Diagnostic => (⟨.debug, d.render⟩ : LogLine)) = lines
    have hnoted : Mirror k root a b d { s with host := s.host.write lines }
        { t with host := t.host.write lines } :=
      ⟨hs.hosts.write lines lines, hs.workspaces, hs.files⟩
    obtain ⟨hstages, hunit⟩ := inWorkspace_same hnoted
      (x := fun w f => w.writeFile f Assembly.unitFileName bytes)
      (y := fun w f => w.writeFile f Assembly.unitFileName bytes)
      (Workspace.writeFile_twin hs.workspaces hs.files hi hname bytes)
    generalize inWorkspace { s with host := _ } _ = x at hstages hunit ⊢
    generalize inWorkspace { t with host := _ } _ = y at hstages hunit ⊢
    obtain ⟨s', x⟩ := x
    obtain ⟨t', y⟩ := y
    cases hunit with
    | error h => exact ⟨hstages, .some (.error (.outcome h))⟩
    | @ok path path' hp =>
      dsimp only at hstages ⊢
      rw [setUp_same hstages hi parsed id hp]
      rcases s'.setUp parsed id path with o | ⟨m, l⟩
      · exact ⟨hstages, .some (.error (.outcome (.same o)))⟩
      · obtain ⟨hstages', hlinked⟩ := linkDependencies_same hstages hi fuel l hd
        dsimp only
        generalize linkDependencies fuel s' _ dependencies = x at hstages' hlinked ⊢
        generalize linkDependencies fuel t' _ dependencies' = y at hstages' hlinked ⊢
        obtain ⟨s'', x⟩ := x
        obtain ⟨t'', y⟩ := y
        cases hlinked with
        | none => exact ⟨hstages', .none⟩
        | some hlinked =>
          cases hlinked with
          | error h => exact ⟨hstages', .some (.error h)⟩
          | @ok l _ h =>
            subst h
            obtain ⟨hagree, hresult⟩ := instantiate_same hstages'.hosts fuel l m
            have hstages'' := hstages'.code (instantiate_reported fuel s''.host l m)
              (instantiate_reported fuel t''.host l m) hagree
            dsimp only at hagree hresult hstages'' ⊢
            generalize instantiate fuel s''.host l m = x at hstages'' hresult ⊢
            generalize instantiate fuel t''.host l m = y at hstages'' hresult ⊢
            obtain ⟨h, i⟩ := x
            obtain ⟨g, j⟩ := y
            obtain rfl : i = j := hresult
            rcases i with _ | _ | _ | p
            · exact ⟨hstages'', .none⟩
            · exact ⟨hstages'', .some (.ok rfl)⟩
            · exact ⟨hstages'', .some (.error (.outcome (.same _)))⟩
            · exact ⟨hstages'', .some (.error (.panicked p))⟩

theorem prepare_same (hs : s.Mirror k root a b d t) (hi : Interchangeable a b) (fuel : Nat)
    (c : EvaluatorConfig) {sub : Submission σ} (ha : sub.project.Avoids a)
    (hb : sub.project.Avoids b) :
    Same k root a b d (Option.Rel (Paired (Halt.Twin root a b) Eq)) (prepare fuel c s sub)
      (prepare fuel c t sub) := by
  have hreferences : ∀ path ∈ sub.project.references, Avoids path a ∧ Avoids path b :=
    fun path hpath => ⟨ha.references path hpath, hb.references path hpath⟩
  obtain ⟨hstages, hstaged⟩ := stageDependencies_same hs hi c hreferences
  unfold prepare
  generalize stageDependencies c s sub.project.references = x at hstages hstaged ⊢
  generalize stageDependencies c t sub.project.references = y at hstages hstaged ⊢
  obtain ⟨s', x⟩ := x
  obtain ⟨t', y⟩ := y
  cases hstaged with
  | error h => exact ⟨hstages, .some (.error (.outcome h))⟩
  | ok hd =>
    dsimp only at hstages ⊢
    unfold Project.readSources
    rw [Source.read_mirror hstages.files hi fun path h => ⟨ha.sources path h, hb.sources path h⟩]
    cases sub.project.sources.mapM (Source.read s'.host.files) with
    | error e => exact ⟨hstages, .some (.error (.outcome (.same _)))⟩
    | ok sources => exact compile_same hstages hi fuel sub.id hd sources _ _

end Stage

end LiveTrace
