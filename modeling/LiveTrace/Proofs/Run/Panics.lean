import LiveTrace.Proofs.Run.Ending

/-
  What counts as a panic. No stage of a run has a panic for its outcome, and neither has code that
  comes to an end without one (`prepare_isCalm`, `isCalm_outcomeOf`). So the result of a run never
  says that it panicked (`start_isCalm`, `advance_isCalm`): whoever is told so was told by the
  guard around runs.
-/
namespace LiveTrace

/-- Any outcome but a panic. -/
def RunOutcome.IsCalm (o : RunOutcome) : Prop := ∀ m, o ≠ .faulted (.panicked m)

/-- If a run is over, its result does not say that it panicked. -/
def RunState.IsCalm [Engine] : RunState → Prop
  | done r => r.outcome.IsCalm
  | running _ | panicked _ => True

variable {σ : Type}

/-! ## The stages -/

namespace Stage

/-- If a step of a run has an outcome for its result, the run did not panic. -/
def Decides {α : Type} : Except RunOutcome α → Prop
  | .error o => o.IsCalm
  | .ok _ => True

/-- If the run goes no further because of an outcome, it did not panic. -/
def Halts {α : Type} : Option (Except Halt α) → Prop
  | some (.error (.outcome o)) => o.IsCalm
  | _ => True

theorem inWorkspace_isCalm (s : Stage σ) (action : Workspace → Files → Staging) :
    Decides (s.inWorkspace action).2 := by
  unfold inWorkspace
  dsimp only
  cases (action s.workspace s.host.files).result with
  | ok path => trivial
  | error e => exact nofun

theorem stageDependency_isCalm (c : EvaluatorConfig) (s : Stage σ) (path : String) :
    Decides (stageDependency c s path).2 := by
  unfold stageDependency
  split
  · exact nofun
  · split
    · trivial
    · exact s.inWorkspace_isCalm _

theorem stageDependencies_isCalm (c : EvaluatorConfig) (s : Stage σ) (paths : List String) :
    Decides (stageDependencies c s paths).2 := by
  induction paths generalizing s with
  | nil => trivial
  | cons path rest ih =>
    have hfirst := stageDependency_isCalm c s path
    unfold stageDependencies
    generalize stageDependency c s path = after at hfirst ⊢
    obtain ⟨s', e | first⟩ := after
    · exact hfirst
    · have hrest := ih s'
      dsimp only
      generalize stageDependencies c s' rest = last at hrest ⊢
      obtain ⟨s'', e | others⟩ := last
      · exact hrest
      · trivial

variable [Engine]

theorem Linking.initial_isCalm (core : Engine.Core) (id : SubmissionId) :
    Decides (Linking.initial core id) := by
  unfold Linking.initial
  cases Engine.hooks core with
  | error text => exact nofun
  | ok linker =>
    dsimp only
    cases Engine.defineSubmission core linker (Engine.emptyStore core) id with
    | error text => exact nofun
    | ok _ => trivial

theorem setUp_isCalm (s : Stage σ) (options : CompilerOptions) (id : SubmissionId)
    (unitPath : String) : Decides (s.setUp options id unitPath) := by
  unfold setUp
  cases Engine.create options with
  | error text => exact nofun
  | ok core =>
    dsimp only
    cases s.loadModule? core unitPath with
    | none => exact nofun
    | some m =>
      have hinitial := Linking.initial_isCalm core id
      dsimp only
      generalize Linking.initial core id = begun at hinitial ⊢
      cases begun with
      | error o => exact hinitial
      | ok l => trivial

variable [TraceSink σ]

theorem linkDependency_isCalm (fuel : Nat) (s : Stage σ) (l : Linking) (path : String) :
    Halts (linkDependency fuel s l path).2 := by
  unfold linkDependency
  cases s.loadModule? l.core path with
  | none => exact nofun
  | some m =>
    dsimp only
    obtain ⟨h', _ | i⟩ := instantiate fuel s.host l m
    · trivial
    · cases i with
      | failed => exact nofun
      | panicked p => trivial
      | ok store unit =>
        dsimp only
        cases Engine.register? l.linker store (moduleName path) unit with
        | none => exact nofun
        | some linker => trivial

theorem linkDependencies_isCalm (fuel : Nat) (s : Stage σ) (l : Linking) (paths : List String) :
    Halts (linkDependencies fuel s l paths).2 := by
  induction paths generalizing s l with
  | nil => trivial
  | cons path rest ih =>
    have hfirst := linkDependency_isCalm fuel s l path
    unfold linkDependencies
    generalize linkDependency fuel s l path = after at hfirst ⊢
    obtain ⟨s', _ | e | l'⟩ := after
    · exact hfirst
    · exact hfirst
    · exact ih s' l'

theorem compile_isCalm (fuel : Nat) (s : Stage σ) (id : SubmissionId)
    (dependencies sources : List String) (code options : String) :
    Halts (compile fuel s id dependencies sources code options).2 := by
  unfold compile
  obtain ⟨parsed, ds⟩ := CompilerOptions.parse options
  dsimp only
  split
  · exact nofun
  · have hwritten := inWorkspace_isCalm
      { s with host := s.host.write (ds.map fun d : Diagnostic => ⟨.debug, d.render⟩) }
      fun w f => w.writeFile f Assembly.unitFileName
        (Utf8.encode (Assembly.assemble sources code).toList)
    generalize Stage.inWorkspace _ _ = unit at hwritten ⊢
    obtain ⟨s₁, o | path⟩ := unit
    · exact hwritten
    · dsimp only
      have hsetup := s₁.setUp_isCalm parsed id path
      generalize s₁.setUp parsed id path = begun at hsetup ⊢
      obtain o | ⟨m, l⟩ := begun
      · exact hsetup
      · have hlinked := linkDependencies_isCalm fuel s₁ l dependencies
        dsimp only
        generalize linkDependencies fuel s₁ l dependencies = linked at hlinked ⊢
        obtain ⟨s₂, _ | (o | p) | l⟩ := linked
        · trivial
        · exact hlinked
        · trivial
        · dsimp only
          obtain ⟨h', _ | i⟩ := instantiate fuel s₂.host l m
          · trivial
          · cases i with
            | failed => exact nofun
            | panicked p => trivial
            | ok store unit => trivial

theorem prepare_isCalm (fuel : Nat) (c : EvaluatorConfig) (s : Stage σ) (sub : Submission σ) :
    Halts (prepare fuel c s sub).2 := by
  have hstaged := stageDependencies_isCalm c s sub.project.references
  unfold prepare
  generalize stageDependencies c s sub.project.references = staged at hstaged ⊢
  obtain ⟨s₁, o | dependencies⟩ := staged
  · exact hstaged
  · dsimp only
    cases sub.project.readSources s₁.host.files with
    | error e => exact nofun
    | ok sources => exact compile_isCalm fuel s₁ _ _ _ _ _

end Stage

/-! ## Whole runs -/

variable [Engine] [TraceSink σ]

namespace Run

theorem finish_isCalm (h : Host σ) (i : RunIdentity) (w : Workspace) {o : RunOutcome}
    (ho : o.IsCalm) : (finish h i w o).2.IsCalm := by
  rcases finish_result h i w o with ⟨p, -, hp⟩ | ⟨g, hg⟩
  · rw [hp]
    trivial
  · rw [hg]
    exact ho

/-- Code that ends without a panic is not taken to have panicked. -/
theorem isCalm_outcomeOf {e : GuestEnd} (he : ∀ p, e ≠ .panicked p) : (outcomeOf e).IsCalm := by
  cases e with
  | panicked p => exact absurd rfl (he p)
  | returned | aborted | fault => exact nofun

theorem ended_isCalm (h : Host σ) (r : Running) (e : GuestEnd) : (ended h r e).2.IsCalm := by
  cases e with
  | panicked p => trivial
  | returned s => exact finish_isCalm _ _ _ (isCalm_outcomeOf (e := .returned s) nofun)
  | aborted => exact finish_isCalm _ _ _ (isCalm_outcomeOf (e := .aborted) nofun)
  | fault f => exact finish_isCalm _ _ _ (isCalm_outcomeOf (e := .fault f) nofun)

theorem advance_isCalm (h : Host σ) (r : Running) : (advance h r).2.IsCalm := by
  unfold advance
  obtain ⟨h', code | e⟩ := Guest.advance h r.code
  · trivial
  · exact ended_isCalm h' r e

theorem invoke_isCalm (h : Host σ) (i : RunIdentity) (w : Workspace) (c : Stage.Compiled) :
    (invoke h i w c).2.IsCalm := by
  unfold invoke
  cases Engine.entry? c.core c.store c.unit Assembly.entryExport with
  | none => exact finish_isCalm h i w nofun
  | some code => trivial

end Run

namespace Runner

theorem entered_isCalm (i : RunIdentity) (s : Stage σ)
    {a : Option (Except Stage.Halt Stage.Compiled)} (ha : Stage.Halts a) :
    ∀ state, (entered i (s, a)).2 = some state → state.IsCalm := by
  intro state hs
  obtain _ | (o | p) | c := a <;> simp only [entered] at hs
  · contradiction
  · obtain rfl := Option.some.inj hs
    exact Run.finish_isCalm s.host i s.workspace ha
  · obtain rfl := Option.some.inj hs
    trivial
  · obtain rfl := Option.some.inj hs
    exact Run.invoke_isCalm s.host i s.workspace c

theorem start_isCalm (fuel : Nat) (r : Runner) (h : Host σ) (k : Key) :
    ∀ state, (r.start fuel h k).2 = some state → state.IsCalm := by
  cases hsub : h.submission? k with
  | none =>
    unfold start
    rw [hsub]
    exact fun state hs => Option.some.inj hs ▸ trivial
  | some sub =>
    rcases hc : r.createWorkspace h with ⟨f, e | w⟩
    · rw [start_homeless hsub hc]
      intro state hs
      obtain rfl := Option.some.inj hs
      exact nofun
    · rw [start_created hsub hc]
      exact entered_isCalm _ _ (Stage.prepare_isCalm fuel r.config _ sub)

end Runner

end LiveTrace
