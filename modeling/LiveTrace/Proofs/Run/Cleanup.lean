import LiveTrace.Evaluator.Basic
import LiveTrace.Proofs.Run.Ending
import LiveTrace.Proofs.Trace.Sinks
import LiveTrace.Proofs.Wasm.Reports
import LiveTrace.Proofs.Workspace.Directory

/-
  What is left of a run that is over, whichever way it ended (`nothing_outlives_run`). Its sink is
  closed, its working directory is gone with all that was brought into it, and what it
  registered is registered no longer. Each of these follows from the ways in which runs end
  (`Ending`) and from what their stages do (`Stage.Progress`).
-/
namespace LiveTrace

/-! ## Files -/

section

variable {σ : Type} [TraceSink σ]

/-- What the stages bring into the working directory stays there. -/
theorem Stage.Progress.tended {s s₁ : Stage σ} {p : Option Panic} {q : Place}
    (hp : s.Progress p s₁) (hs : s.workspace.StandsAt s.host.files q) :
    s₁.workspace.dir = s.workspace.dir ∧ s.host.files.Tended q s₁.host.files := by
  induction hp with
  | here => exact ⟨rfl, .refl q _⟩
  | code _ hr ih =>
    obtain ⟨hdir, ht⟩ := ih
    exact ⟨hdir, hr.files ▸ ht⟩
  | note _ lines ih => exact ih
  | copy _ source ih =>
    obtain ⟨hdir, ht⟩ := ih
    have hr := Workspace.stageFile_tends (hs.tended ht hdir) source
    rw [inWorkspace_stage]
    exact ⟨hr.dir.trans hdir, ht.trans hr.files⟩
  | unit _ bytes ih =>
    obtain ⟨hdir, ht⟩ := ih
    have hname : Path.IsName Assembly.unitFileName := ⟨by decide, by decide, by decide, by decide⟩
    have hr := Workspace.writeFile_tends (hs.tended ht hdir) hname bytes
    rw [inWorkspace_stage]
    exact ⟨hr.dir.trans hdir, ht.trans hr.files⟩

namespace Runner

variable {C : Key → Prop} {r : Runner} {h h' : Host σ} {k : Key} {sub : Submission σ}
  {f : Files} {w : Workspace} {invoked : Bool} {result : Except Panic RunResult}

/-- When the working directory is removed, no more than directories above it are left. -/
theorem onlyMakes_removeWorkspace {s : Stage σ} {p : Option Panic} {g : Host σ}
    (hnew : h.files.IsUnused (RunId.ofIndex h.runs)) (hc : r.createWorkspace h = (f, .ok w))
    (hp : (begun h sub f w).Progress p s) (hg : g.files = s.host.files) :
    ∃ made, h.files.OnlyMakes (Run.removeWorkspace g s.workspace).files made ∧
      (h.files.isDir r.config.workspaceRoot = true → made = []) := by
  obtain ⟨-, made, q, hq, hmade, hstands, halone⟩ := Workspace.create_made hnew hc
  obtain ⟨hdir, ht⟩ := hp.tended (q := q) hstands
  have hremoved : (Run.removeWorkspace g s.workspace).files = s.host.files.removeAt q := by
    have hremove := Workspace.remove_eq (hstands.tended ht hdir)
    unfold Run.removeWorkspace
    rw [hg, hremove]
    rfl
  rw [hremoved]
  refine ⟨_, Workspace.onlyMakes_removed hnew hq hmade ht, fun hroot => ?_⟩
  rw [halone hroot]
  simp

variable [Engine]

theorem finish_files (h : Host σ) (i : RunIdentity) (w : Workspace) (o : RunOutcome) :
    (Run.finish h i w o).1.files = (Run.removeWorkspace h w).files := by
  obtain ⟨lines, hlines⟩ := Run.finish_host h i w o
  rw [hlines]
  exact (Host.withSink_outside _ i.key _).1

theorem Ending.files (hend : r.Ending C h k sub invoked h' result)
    (hnew : h.files.IsUnused (RunId.ofIndex h.runs)) (hc : r.createWorkspace h = (f, .ok w)) :
    ∃ made, h.files.OnlyMakes h'.files made ∧
      (h.files.isDir r.config.workspaceRoot = true → made = []) := by
  cases hend with
  | homeless hc' => exact nomatch (congrArg Prod.snd (hc'.symm.trans hc))
  | halted hc' hp hr =>
    rw [finish_files]
    exact onlyMakes_removeWorkspace hnew hc' hp rfl
  | cutShort hc' hp => exact onlyMakes_removeWorkspace hnew hc' hp rfl
  | @ended f' w' s g running e _ hc' hp hi hw hg hr =>
    have hfiles : (g.drop running.identity.id).files = s.host.files := by
      obtain ⟨current, hdrop⟩ := g.drop_host running.identity.id
      obtain ⟨lines, hload⟩ := s.host.load_host k
      rw [hdrop]
      rw [hload] at hg
      exact hg.files
    rcases Run.ended_cases g running e with ⟨p, hp'⟩ | hfinish
    · rw [hp', hw]
      exact onlyMakes_removeWorkspace hnew hc' hp hfiles
    · rw [hfinish, finish_files, hw]
      exact onlyMakes_removeWorkspace hnew hc' hp hfiles

/-! ## The registration -/

theorem finish_current (h : Host σ) (i : RunIdentity) (w : Workspace) (o : RunOutcome) :
    (Run.finish h i w o).1.current = h.current := by
  obtain ⟨lines, hlines⟩ := Run.finish_host h i w o
  rw [hlines]
  exact Host.withSink_current _ i.key _

/-- A run that invoked its entry function leaves nothing registered, and any other run leaves
registered what was. -/
theorem Ending.current (hend : r.Ending C h k sub invoked h' result)
    (hsub : h.submission? k = some sub) :
    h'.current = if invoked then none else h.current := by
  cases hend with
  | homeless hc => rfl
  | halted hc hp hr => exact (finish_current _ _ _ _).trans hp.current
  | cutShort hc hp => exact hp.current
  | @ended f w s g running e _ hc hp hi hw hg hr =>
    -- While the function runs, its own submission is registered under its own id.
    have hcurrent : g.current = some k := hg.current.trans (Host.current_load s.host k)
    have hid : g.idOf? k = some running.identity.id := by
      obtain ⟨lines, hload⟩ := s.host.load_host k
      rw [hload] at hg
      have hsame : g.idOf? = h.idOf? := hg.idOf?.trans hp.idOf?
      rw [hsame, hi]
      unfold Host.idOf?
      rw [hsub]
      rfl
    have hdropped : (g.drop running.identity.id).current = none := by
      unfold Host.drop Host.currentId?
      rw [hcurrent, Option.bind_some, hid, if_pos rfl]
    rcases Run.ended_cases g running e with ⟨p, hp'⟩ | hfinish
    · rw [hp']
      exact hdropped
    · rw [hfinish, finish_current]
      exact hdropped

/-! ## The report -/

/-- Whether a run gets a working directory. -/
def getsWorkspace (r : Runner) (h : Host σ) : Bool := (r.createWorkspace h).2.toBool

/-- A result has a report if there was a working directory, and the report says whether the run
was told to stop. -/
theorem Ending.report {res : RunResult} (hend : r.Ending C h k sub invoked h' (.ok res)) :
    (res.report.isSome = true ↔ r.getsWorkspace h = true) ∧
      ∀ report, res.report = some report → (report.aborted = true ↔ res.outcome = .aborted) := by
  have hfinish {g : Host σ} {i : RunIdentity} {v : Workspace} {o : RunOutcome} {f' : Files}
      {w' : Workspace} (hc : r.createWorkspace h = (f', .ok w'))
      (hr : (Run.finish g i v o).2.result? = some (.ok res)) :
      (res.report.isSome = true ↔ r.getsWorkspace h = true) ∧
        ∀ report, res.report = some report → (report.aborted = true ↔ res.outcome = .aborted) := by
    rcases Run.finish_result g i v o with ⟨p, -, hp⟩ | ⟨g', hg'⟩
    · rw [hp] at hr
      exact nomatch Option.some.inj hr
    · rw [hg'] at hr
      obtain rfl := Except.ok.inj (Option.some.inj hr)
      refine ⟨iff_of_true rfl (by unfold getsWorkspace; rw [hc]; rfl), fun report hreport => ?_⟩
      obtain rfl := Option.some.inj hreport
      exact beq_iff_eq
  cases hend with
  | homeless hc =>
    refine ⟨iff_of_false Bool.false_ne_true ?_, fun report hreport => nomatch hreport⟩
    unfold getsWorkspace
    rw [hc]
    exact Bool.false_ne_true
  | halted hc hp hr => exact hfinish hc hr
  | @ended f w s g running e _ hc hp hi hw hg hr =>
    rcases Run.ended_cases g running e with ⟨p, hp'⟩ | hended
    · rw [hp'] at hr
      exact nomatch Option.some.inj hr
    · rw [hended] at hr
      exact hfinish hc hr

/-! ## The sink -/

end Runner

/-- Unwinding leaves nothing open. -/
theorem Host.depth_unwind [LawfulSink σ] {h : Host σ} {k : Key} {s : Submission σ}
    (hs : (h.unwind k).1.submission? k = some s) : TraceSink.depth s.sink = 0 := by
  unfold unwind at hs
  cases hk : h.submission? k with
  | none =>
    unfold withSink at hs
    rw [hk] at hs
    exact nomatch hk.symm.trans hs
  | some s' =>
    rw [withSink_submission? h k _ hk, if_pos rfl] at hs
    obtain rfl := Option.some.inj hs
    exact LawfulSink.depth_unwind s'.sink

namespace Runner

variable [Engine] {C : Key → Prop} {r : Runner} {h h' : Host σ} {k : Key} {sub : Submission σ}
  {invoked : Bool}

/-- The sink of a run that came to a result was unwound. -/
theorem Ending.depth [LawfulSink σ] {res : RunResult} {s' : Submission σ}
    (hend : r.Ending C h k sub invoked h' (.ok res)) (hc : r.getsWorkspace h = true)
    (hs' : h'.submission? k = some s') : TraceSink.depth s'.sink = 0 := by
  cases hend with
  | homeless hc' =>
    unfold getsWorkspace at hc
    rw [hc'] at hc
    contradiction
  | halted hc hp hr =>
    rw [Run.finish_submission?] at hs'
    exact Host.depth_unwind hs'
  | @ended f w s g running e _ hc hp hi hw hg hr =>
    have hkey : running.identity.key = k := congrArg RunIdentity.key hi
    rcases Run.ended_cases g running e with ⟨p, hp'⟩ | hfinish
    · rw [hp'] at hr
      exact nomatch Option.some.inj hr
    · rw [hfinish, Run.finish_submission?, hkey] at hs'
      exact Host.depth_unwind hs'

end Runner

/-! ## A run that is over -/

variable [Engine]

/-- The host that a run of `k` left, once its panic, if it ended in one, has been handled. -/
def Evaluator.settled (e : Evaluator σ) (h : Host σ) (k : Key) : Except Panic RunResult → Host σ
  | .ok _ => h
  | .error p => ({ e with host := h }.conclude k (.error p)).host

/-- A panic is handled by unwinding the sink. -/
theorem Evaluator.conclude_error (e : Evaluator σ) (k : Key) (p : Panic) :
    ∃ lines, (e.conclude k (.error p)).host = ((e.host.write lines).unwind k).1 := by
  refine ⟨[⟨.error, s!"Submission {(e.host.idOf? k).getD 0} panicked: {p.message}"⟩], ?_⟩
  unfold conclude Host.error
  dsimp only
  generalize (e.host.write _).unwind k = after
  obtain ⟨h', q | _⟩ := after <;> rfl

/-- When a run has come to a result, no more is done to the host than to write to the log. -/
theorem Evaluator.conclude_ok (e : Evaluator σ) (k : Key) (r : RunResult) :
    ∃ lines, (e.conclude k (.ok r)).host = e.host.write lines := by
  have hannounce (e : Evaluator σ) (n : Option Notice) : (e.announce n).host = e.host := by
    cases n <;> rfl
  unfold conclude
  dsimp only
  rw [hannounce]
  cases r.outcome with
  | faulted error => exact ⟨_, rfl⟩
  | completed | aborted | missingDependency | compileErrors =>
    exact ⟨[], by simp [Host.write]⟩

namespace Runner

/-- Nothing outlives its run, however it ends, whoever is canceled meanwhile, and wherever its sink
panics. Once a run that got a working directory has returned, or its panic has been handled,
its sink is closed; the tree is as it was, but for times and for directories above the root of
working directories if that was missing; so the root has the entries it had, and every file
that could be read reads the same; and nothing is registered if the entry function was
invoked, and otherwise what was before. A result has a report if there was a working
directory, and the report says whether the run was told to stop. -/
theorem nothing_outlives_run [LawfulSink σ] (fuel : Nat) (ws : Nat → List Key) (r : Runner)
    (h h' : Host σ) (k : Key) (s : Submission σ) (result : Except Panic RunResult)
    (e : Evaluator σ) (hs : h.submission? k = some s)
    (hnew : h.files.IsUnused (RunId.ofIndex h.runs))
    (hrun : r.runAmid fuel ws h k = (h', some result)) :
    let root := r.config.workspaceRoot
    let last := e.settled h' k result
    (r.getsWorkspace h = true →
      (∃ s', last.submission? k = some s' ∧ TraceSink.depth s'.sink = 0) ∧
      (∃ made, h.files.OnlyMakes last.files made ∧ (h.files.isDir root = true → made = [])) ∧
      (∀ names, h.files.readDir root = .ok names → last.files.readDir root = .ok names) ∧
      (∀ path bytes, h.files.read path = .ok bytes → last.files.read path = .ok bytes) ∧
      last.current = if r.invokes fuel h k then none else h.current) ∧
    ∀ res, result = .ok res → (res.report.isSome = true ↔ r.getsWorkspace h = true) ∧
      ∀ report, res.report = some report → (report.aborted = true ↔ res.outcome = .aborted) := by
  intro root last
  have hend := ending_of_runAmid (C := fun _ => True) hs (fun _ _ _ => trivial) hrun
  refine ⟨fun hgets => ?_, fun res hres => (hres ▸ hend).report⟩
  obtain ⟨f, w, hc⟩ : ∃ f w, r.createWorkspace h = (f, .ok w) := by
    unfold getsWorkspace at hgets
    rcases hc : r.createWorkspace h with ⟨f, e | w⟩
    · rw [hc] at hgets
      contradiction
    · exact ⟨f, w, rfl⟩
  obtain ⟨s', hs'⟩ := Host.exists_submission?_of_idOf? hend.idOf? hs
  obtain ⟨made, hmade, halone⟩ := hend.files hnew hc
  have hcurrent := hend.current hs
  -- Handling a panic does no more than to unwind the sink.
  have hlast : last.files = h'.files ∧ last.current = h'.current ∧
      ∃ s', last.submission? k = some s' ∧ TraceSink.depth s'.sink = 0 := by
    cases result with
    | ok res => exact ⟨rfl, rfl, s', hs', hend.depth hgets hs'⟩
    | error p =>
      obtain ⟨lines, hlines⟩ := Evaluator.conclude_error { e with host := h' } k p
      have hafter := Host.withSink_submission? (h'.write lines) k (fun _ => TraceSink.unwind) hs'
      have hsettled : last = ((h'.write lines).unwind k).1 := hlines
      rw [hsettled]
      exact ⟨(Host.withSink_outside _ k _).1, Host.withSink_current _ k _, _, hafter,
        Host.depth_unwind hafter⟩
  obtain ⟨hfiles, hslot, hsink⟩ := hlast
  rw [hfiles, hslot]
  refine ⟨hsink, ⟨made, hmade, halone⟩, fun names hnames => ?_, fun path bytes hread => ?_,
    hcurrent⟩
  · obtain rfl := halone (Files.isDir_of_readDir hnames)
    rw [hmade.alike.readDir, hnames]
  · exact Files.read_of_shape hmade.workingDir (fun _ _ => hmade.shape?) hread

end Runner

end

theorem eq_ok_of_toOption {ε α : Type} {x : Except ε α} {a : α} (h : x.toOption = some a) :
    x = .ok a := by
  cases x with
  | error e => contradiction
  | ok b => exact congrArg Except.ok (Option.some.inj h)

theorem exists_of_toOption {ε α β : Type} {x : α × Except ε β} {b : β}
    (h : x.2.toOption = some b) : ∃ a, x = (a, .ok b) :=
  ⟨x.1, Prod.ext rfl (eq_ok_of_toOption h)⟩

/-- Three runs of a method with a loop: one to its end, one that is canceled within the pass, and
one whose sink panics there and is left with all three containers open. A directory was left behind
by another run, and another submission is still registered. -/
theorem Runner.nothing_outlives_run_cut_in_loop :
    let reports := Wasm.Report.passes 1
    let _ := Wasm.Report.engine reports
    let s (sink : Monitor) := Wasm.Report.submission reports sink
    let h (sink : Monitor) : Host Monitor := {
      files := { entries := [(["runs"], .dir 0), (["runs", "old"], .dir 0)] }
      submissions := [s sink, { id := 9, sink := {} }]
      current := some 1 }
    let r : Runner := ⟨{ workspaceRoot := "/runs" }⟩
    let never (_ : Nat) : List Key := []
    let midway (n : Nat) : List Key := if n = 3 then [0] else []
    let fragile : Monitor := { panicAt := some ("log_return", .text "full") }
    let IsClean (last : Host Monitor) : Prop :=
      (∃ s', last.submission? 0 = some s' ∧ TraceSink.depth s'.sink = 0) ∧
        last.files.readDir "/runs" = .ok ["old"] ∧ last.current = none
    (∃ h' res, r.runAmid 100 never (h {}) 0 = (h', some (.ok res)) ∧ res.outcome = .completed ∧
      IsClean h') ∧
    (∃ h' res report, r.runAmid 100 midway (h {}) 0 = (h', some (.ok res)) ∧
      res.outcome = .aborted ∧ res.report = some report ∧ report.aborted = true ∧ IsClean h') ∧
    ∃ h', r.runAmid 100 never (h fragile) 0 = (h', some (.error (.text "full"))) ∧
      (h'.submission? 0).map (fun s => TraceSink.depth s.sink) = some 3 ∧
      IsClean (({ host := h', runner := r } : Evaluator Monitor).conclude 0
        (.error (.text "full"))).host := by
  intro reports _ s h r never midway fragile IsClean
  have hcompleted : (r.runAmid 100 never (h {}) 0).2.map (·.map (·.outcome)) =
      some (.ok .completed) := by decide +kernel
  have haborted : (r.runAmid 100 midway (h {}) 0).2.map (·.map (·.outcome)) =
      some (.ok .aborted) := by decide +kernel
  have hpanicked : (r.runAmid 100 never (h fragile) 0).2.map (·.map (·.outcome)) =
        some (.error (.text "full")) ∧
      ((r.runAmid 100 never (h fragile) 0).1.submission? 0).map
        (fun s => TraceSink.depth s.sink) = some 3 := by decide +kernel
  have hinvokes : r.invokes 100 (h {}) 0 = true ∧ r.invokes 100 (h fragile) 0 = true := by
    decide +kernel
  have hgets : r.getsWorkspace (h {}) = true := by decide +kernel
  have hnew : (h {}).files.IsUnused (RunId.ofIndex 0) := ⟨by decide +kernel, by decide +kernel⟩
  have hnames : ((h {}).files.readDir "/runs").toOption = some ["old"] := by decide +kernel
  have hclean {sink : Monitor} {ws : Nat → List Key} {h' : Host Monitor}
      {result : Except Panic RunResult} (hinvokes : r.invokes 100 (h sink) 0 = true)
      (hrun : r.runAmid 100 ws (h sink) 0 = (h', some result)) :
      IsClean (({ host := h', runner := r } : Evaluator Monitor).settled h' 0 result) := by
    obtain ⟨hleft, -⟩ := nothing_outlives_run 100 ws r (h sink) h' 0 (s sink) result
      { host := h', runner := r } rfl hnew hrun
    obtain ⟨hclosed, -, hroot, -, hslot⟩ := hleft hgets
    rw [hinvokes] at hslot
    exact ⟨hclosed, hroot _ (eq_ok_of_toOption hnames), hslot⟩
  refine ⟨?_, ?_, ?_⟩
  · obtain ⟨h', res, hrun, ho⟩ := exists_of_outcome hcompleted
    exact ⟨h', res, hrun, ho, hclean hinvokes.1 hrun⟩
  · obtain ⟨h', res, hrun, ho⟩ := exists_of_outcome haborted
    obtain ⟨-, hreport⟩ := nothing_outlives_run 100 midway r (h {}) h' 0 (s {}) (.ok res)
      { host := h', runner := r } rfl hnew hrun
    obtain ⟨hsome, hflag⟩ := hreport res rfl
    obtain ⟨report, hreported⟩ := Option.isSome_iff_exists.mp (hsome.mpr hgets)
    exact ⟨h', res, report, hrun, ho, hreported, (hflag report hreported).mpr ho,
      hclean hinvokes.1 hrun⟩
  · obtain ⟨h', hrun⟩ := exists_of_panic hpanicked.1
    rw [hrun] at hpanicked
    exact ⟨h', hrun, hpanicked.2, hclean hinvokes.2 hrun⟩

end LiveTrace
