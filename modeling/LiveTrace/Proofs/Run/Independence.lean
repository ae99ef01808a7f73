import LiveTrace.Proofs.Run.History
import LiveTrace.Proofs.Run.Mirror
import LiveTrace.Proofs.Wasm.Reports

/-
  Runs do not influence each other (`independent_of_earlier_runs`). Two runs of one submission, of
  which one comes after runs of others, get different ids. Nothing else that they meet is
  different: each stage does the same in both (`prepare_same`), and so does each advance of the
  entry function (`advance_same`), down to the end (`toEndAmid_same`). What happens to the sink is
  the same, whichever sink it is, so also for one that keeps a list of its calls.
-/
namespace LiveTrace

open LiveTrace.Path (Interchangeable)

/-! ## What runs come to -/

/-- The same result, told of the run `b` instead of the run `a`. -/
structure RunResult.Twin (root a b : String) (r r' : RunResult) : Prop where
  outcome : r.outcome.Twin root a b r'.outcome
  report : Option.Rel (fun x y : RunReport => x.runId = a ∧ y = { x with runId := b })
    r.report r'.report

/-- Two runs of the submission `k` under the ids `a` and `b` have come equally far. -/
inductive RunState.Twin [Engine] (k : Key) (root a b : String) : RunState → RunState → Prop where
  | running {i : RunIdentity} (hk : i.key = k) (ha : i.runId = a) (w v : Workspace)
    (c : Engine.Code) :
    Twin k root a b (.running ⟨i, w, c⟩) (.running ⟨{ i with runId := b }, v, c⟩)
  | done {r r' : RunResult} (h : r.Twin root a b r') : Twin k root a b (.done r) (.done r')
  | panicked (p : Panic) : Twin k root a b (.panicked p) (.panicked p)

theorem RunOutcome.Twin.aborted {root a b : String} {o o' : RunOutcome} (h : o.Twin root a b o') :
    (o' == .aborted) = (o == .aborted) := by
  cases h <;> rfl

theorem Workspace.now_remove (w : Workspace) (f : Files) : (w.remove f).1.now = f.now := by
  unfold remove Files.removeDirAll
  split
  · rfl
  · cases f.locate w.dir with
    | error e => rfl
    | ok p =>
      dsimp only
      cases f.isDirAt p <;> rfl

variable {σ : Type} [TraceSink σ] {k : Key} {h g : Host σ} {root a b : String}

omit [TraceSink σ] in
theorem Host.Agree.cancelAll (hg : h.Agree k g) (ks : List Key) :
    (h.cancelAll ks).Agree k (g.cancelAll ks) := by
  induction ks generalizing h g with
  | nil => exact hg
  | cons j ks ih => exact ih (hg.cancel j)

/-! ## From the entry function to the end -/

namespace Run

omit [TraceSink σ] in
theorem removeWorkspace_agree (ha : h.Agree k g) (w v : Workspace) :
    (removeWorkspace h w).Agree k (removeWorkspace g v) := by
  have hnow : (v.remove g.files).1.now = (w.remove h.files).1.now := by
    rw [Workspace.now_remove, Workspace.now_remove, ha.now]
  exact ha.outside hnow _ _ _ _

variable [Engine]

theorem finish_same (hg : h.Agree k g) {i : RunIdentity} (hk : i.key = k) (ha : i.runId = a)
    {o o' : RunOutcome} (ho : o.Twin root a b o') (w v : Workspace) :
    Host.Same k (RunState.Twin k root a b) (finish h i w o)
      (finish g { i with runId := b } v o') := by
  subst hk
  obtain ⟨hagree, hresult⟩ := Host.unwind_same (removeWorkspace_agree hg w v)
  unfold finish
  dsimp only
  generalize (removeWorkspace h w).unwind i.key = x at hagree hresult ⊢
  generalize (removeWorkspace g v).unwind i.key = y at hagree hresult ⊢
  obtain ⟨h', x⟩ := x
  obtain ⟨g', y⟩ := y
  obtain rfl : x = y := hresult
  cases x with
  | error p => exact ⟨hagree, .panicked p⟩
  | ok _ =>
    obtain ⟨lines, hlines⟩ := noteOutcome_host h' i o
    obtain ⟨lines', hlines'⟩ := noteOutcome_host g' { i with runId := b } o'
    dsimp only
    rw [hlines, hlines']
    refine ⟨hagree.write lines lines', .done ⟨ho, .some ⟨ha, ?_⟩⟩⟩
    have hnow : (g'.write lines').files.now = (h'.write lines).files.now := hagree.now
    unfold reportOf
    rw [hnow, ho.aborted]

theorem ended_same (hg : h.Agree k g) {i : RunIdentity} (hk : i.key = k) (ha : i.runId = a)
    (w v : Workspace) (c : Engine.Code) (e : GuestEnd) :
    Host.Same k (RunState.Twin k root a b) (ended h ⟨i, w, c⟩ e)
      (ended g ⟨{ i with runId := b }, v, c⟩ e) := by
  have hdropped := hg.drop i.id
  cases e with
  | panicked p => exact ⟨removeWorkspace_agree hdropped w v, .panicked p⟩
  | returned | aborted | fault => exact finish_same hdropped hk ha (.same _) w v

theorem advance_same (hg : h.Agree k g) {i : RunIdentity} (hk : i.key = k) (ha : i.runId = a)
    (w v : Workspace) (c : Engine.Code) :
    Host.Same k (RunState.Twin k root a b) (advance h ⟨i, w, c⟩)
      (advance g ⟨{ i with runId := b }, v, c⟩) := by
  obtain ⟨hagree, hresult⟩ := Guest.advance_same hg c
  unfold advance
  dsimp only
  generalize Guest.advance h c = x at hagree hresult ⊢
  generalize Guest.advance g c = y at hagree hresult ⊢
  obtain ⟨h', x⟩ := x
  obtain ⟨g', y⟩ := y
  obtain rfl : x = y := hresult
  cases x with
  | running c' => exact ⟨hagree, .running hk ha w v c'⟩
  | ended e => exact ended_same hagree hk ha w v c e

theorem toEndAmid_same (hg : h.Agree k g) {s t : RunState} (hs : s.Twin k root a b t)
    (fuel : Nat) (ws : Nat → List Key) :
    Host.Same k (Option.Rel (Paired Eq (RunResult.Twin root a b))) (toEndAmid fuel ws h s)
      (toEndAmid fuel ws g t) := by
  induction fuel generalizing h g s t ws with
  | zero =>
    cases hs with
    | running => exact ⟨hg, .none⟩
    | done hr => exact ⟨hg, .some (.ok hr)⟩
    | panicked p => exact ⟨hg, .some (.error rfl)⟩
  | succ fuel ih =>
    cases hs with
    | running hk ha w v c =>
      obtain ⟨hagree, hresult⟩ := advance_same (hg.cancelAll (ws 0)) hk ha w v c
      rw [toEndAmid_running, toEndAmid_running]
      exact ih hagree hresult _
    | done hr => exact ⟨hg, .some (.ok hr)⟩
    | panicked p => exact ⟨hg, .some (.error rfl)⟩

theorem invoke_same (hg : h.Agree k g) {i : RunIdentity} (hk : i.key = k) (ha : i.runId = a)
    (w v : Workspace) (c : Stage.Compiled) :
    Host.Same k (RunState.Twin k root a b) (invoke h i w c)
      (invoke g { i with runId := b } v c) := by
  unfold invoke
  cases Engine.entry? c.core c.store c.unit Assembly.entryExport with
  | none => exact finish_same hg hk ha (.same _) w v
  | some f =>
    refine ⟨?_, .running hk ha w v _⟩
    rw [hk]
    exact hg.load

end Run

/-! ## From the beginning to the end -/

namespace Runner

variable [Engine] {d : Place}

theorem entered_same {x y : Stage σ × Option (Except Stage.Halt Stage.Compiled)}
    (hxy : Stage.Same k root a b d (Option.Rel (Paired (Stage.Halt.Twin root a b) Eq)) x y)
    {i : RunIdentity} (hk : i.key = k) (ha : i.runId = a) :
    Host.Same k (Option.Rel (RunState.Twin k root a b)) (entered i x)
      (entered { i with runId := b } y) := by
  obtain ⟨hstages, hresults⟩ := hxy
  obtain ⟨s, x⟩ := x
  obtain ⟨t, y⟩ := y
  cases hresults with
  | none => exact ⟨hstages.hosts, .none⟩
  | some hresult =>
    cases hresult with
    | error hhalt =>
      cases hhalt with
      | outcome ho =>
        obtain ⟨hagree, hstate⟩ := Run.finish_same hstages.hosts hk ha ho s.workspace t.workspace
        exact ⟨hagree, .some hstate⟩
      | panicked p =>
        exact ⟨Run.removeWorkspace_agree hstages.hosts s.workspace t.workspace,
          .some (.panicked p)⟩
    | @ok c _ hc =>
      subst hc
      obtain ⟨hagree, hstate⟩ := Run.invoke_same hstages.hosts hk ha s.workspace t.workspace c
      exact ⟨hagree, .some hstate⟩

/-- A run of `sub` under the next id of `h`, and one under the next id of `g`, begin alike. -/
theorem start_same {r : Runner} {sub : Submission σ} (hsub : h.submission? k = some sub)
    (hg : h.Agree k g) (hfiles : h.files.Alike g.files)
    (hroot : h.files.isDir r.config.workspaceRoot = true)
    (ha : h.files.IsUnused (RunId.ofIndex h.runs)) (hb : h.files.IsUnused (RunId.ofIndex g.runs))
    (hi : Interchangeable (RunId.ofIndex h.runs) (RunId.ofIndex g.runs))
    (hpa : sub.project.Avoids (RunId.ofIndex h.runs))
    (hpb : sub.project.Avoids (RunId.ofIndex g.runs)) (fuel : Nat) :
    Host.Same k (Option.Rel (RunState.Twin k r.config.workspaceRoot (RunId.ofIndex h.runs)
      (RunId.ofIndex g.runs))) (r.start fuel h k) (r.start fuel g k) := by
  have hsub' : g.submission? k = some sub := hg.own.trans hsub
  rcases Workspace.create_mirror hfiles hroot ha hb hi with
    ⟨cause, hc, hc'⟩ | ⟨d, f, f', hc, hc', hm⟩
  · rw [start_homeless hsub hc, start_homeless hsub' hc']
    exact ⟨hg, .some (.done ⟨.workspace (.create cause), .none⟩)⟩
  · rw [start_created hsub hc, start_created hsub' hc']
    have hbegun : Stage.Mirror k r.config.workspaceRoot (RunId.ofIndex h.runs)
        (RunId.ofIndex g.runs) d (begun h sub f ⟨RunId.ofIndex h.runs, _, []⟩)
        (begun g sub f' ⟨RunId.ofIndex g.runs, _, []⟩) :=
      ⟨hg.outside hm.now _ _ _ _, .intro [], hm⟩
    have hprepared := Stage.prepare_same hbegun hi fuel r.config hpa hpb
    have hidentity (w : Workspace) : identity k sub f' w = identity k sub f w := by
      unfold identity
      rw [hm.now]
    rw [hidentity]
    exact entered_same hprepared rfl rfl

theorem runAmid_same {r : Runner} {sub : Submission σ} (hsub : h.submission? k = some sub)
    (hg : h.Agree k g) (hfiles : h.files.Alike g.files)
    (hroot : h.files.isDir r.config.workspaceRoot = true)
    (ha : h.files.IsUnused (RunId.ofIndex h.runs)) (hb : h.files.IsUnused (RunId.ofIndex g.runs))
    (hi : Interchangeable (RunId.ofIndex h.runs) (RunId.ofIndex g.runs))
    (hpa : sub.project.Avoids (RunId.ofIndex h.runs))
    (hpb : sub.project.Avoids (RunId.ofIndex g.runs)) (fuel : Nat) (ws : Nat → List Key) :
    Host.Same k (Option.Rel (Paired Eq (RunResult.Twin r.config.workspaceRoot
      (RunId.ofIndex h.runs) (RunId.ofIndex g.runs)))) (r.runAmid fuel ws h k)
      (r.runAmid fuel ws g k) := by
  obtain ⟨hagree, hstate⟩ := start_same hsub hg hfiles hroot ha hb hi hpa hpb fuel
  unfold runAmid
  generalize r.start fuel h k = x at hagree hstate ⊢
  generalize r.start fuel g k = y at hagree hstate ⊢
  obtain ⟨h', x⟩ := x
  obtain ⟨g', y⟩ := y
  cases hstate with
  | none => exact ⟨hagree, .none⟩
  | some hs => exact Run.toEndAmid_same hagree hs fuel ws

end Runner

/-- Evaluators draw the same conclusions from both runs. -/
theorem Evaluator.conclude_agree [Engine] (hg : h.Agree k g) {x y : Except Panic RunResult}
    (hxy : Paired Eq (RunResult.Twin root a b) x y) (e e' : Evaluator σ) :
    ({ e with host := h }.conclude k x).host.Agree k ({ e' with host := g }.conclude k y).host := by
  cases hxy with
  | @error p _ hp =>
    obtain ⟨lines, hlines⟩ := conclude_error { e with host := h } k p
    obtain ⟨lines', hlines'⟩ := conclude_error { e' with host := g } k p
    rw [← hp, hlines, hlines']
    exact (Host.unwind_same (hg.write lines lines')).agree
  | @ok r r' hr =>
    obtain ⟨lines, hlines⟩ := conclude_ok { e with host := h } k r
    obtain ⟨lines', hlines'⟩ := conclude_ok { e' with host := g } k r'
    rw [hlines, hlines']
    exact hg.write lines lines'

namespace Runner

section

variable [Engine]

/-- Runs do not influence each other. A submission `k` is run after any earlier runs of others,
which began with nothing registered. It comes to the same as if it had been run first: to the same
panic of its sink, or to the same result but for the id of the run. Its sink is left in the same
state, whatever a sink keeps, its calls or its trace; and so it is when an evaluator has drawn its
conclusions. Ids of runs are new, names of one length that nobody knows before. -/
theorem independent_of_earlier_runs (fuel : Nat) (ws : Nat → List Key) (r : Runner) (h h' : Host σ)
    (k : Key) (s : Submission σ) (hs : h.submission? k = some s) (hempty : h.current = none)
    (hroot : h.files.isDir r.config.workspaceRoot = true)
    (hnew : ∀ n, h.runs ≤ n →
      h.files.IsUnused (RunId.ofIndex n) ∧ s.project.Avoids (RunId.ofIndex n))
    (hsize : (RunId.ofIndex h'.runs).utf8ByteSize = (RunId.ofIndex h.runs).utf8ByteSize)
    (hearlier : r.Earlier k h h') :
    let first := r.runAmid fuel ws h k
    let later := r.runAmid fuel ws h' k
    Option.Rel (Paired Eq (RunResult.Twin r.config.workspaceRoot (RunId.ofIndex h.runs)
        (RunId.ofIndex h'.runs))) first.2 later.2 ∧
      later.1.submission? k = first.1.submission? k ∧
      ∀ (e e' : Evaluator σ) x y, first.2 = some x → later.2 = some y →
        ({ e' with host := later.1 }.conclude k y).host.submission? k =
          ({ e with host := first.1 }.conclude k x).host.submission? k := by
  intro first later
  have hleft := hearlier.untouched hempty hroot fun n hn => (hnew n hn).1
  have hagree : h.Agree k h' :=
    ⟨.inl hempty, hleft.current.trans hempty.symm, hleft.own, hleft.files.now⟩
  obtain ⟨ha, hpa⟩ := hnew h.runs Nat.le.refl
  obtain ⟨hb, hpb⟩ := hnew h'.runs hleft.runs
  obtain ⟨hhosts, hresults⟩ := runAmid_same hs hagree hleft.files hroot ha hb
    (RunId.interchangeable_ofIndex hsize) hpa hpb fuel ws
  refine ⟨hresults, hhosts.own, fun e e' x y hx hy => ?_⟩
  have hpaired : Option.Rel _ first.2 later.2 := hresults
  rw [hx, hy] at hpaired
  cases hpaired with
  | some hxy => exact (Evaluator.conclude_agree hhosts hxy e e').own

end

/-- Two submissions with one id and the same code, the first of which is run and canceled within a
loop. The second one then runs as without it: its sink takes the same events. -/
theorem independent_of_earlier_runs_of_equal_ids :
    let reports := Wasm.Report.passes 2
    let _ := Wasm.Report.engine reports
    let s : Submission Monitor := Wasm.Report.submission reports { keeps := true }
    let r : Runner := ⟨{ workspaceRoot := "/runs" }⟩
    let h : Host Monitor := { files := (Runner.create r.config {}).1, submissions := [s, s] }
    let never (_ : Nat) : List Key := []
    let midway (n : Nat) : List Key := if n = 3 then [0] else []
    let method : MethodCall :=
      ⟨7, "f", [], [.loop ⟨1, List.replicate 2 ⟨1, [.returnValue ⟨2, some "5"⟩]⟩⟩]⟩
    ∃ h' first later x y z, r.runAmid 100 midway h 0 = (h', some (.ok x)) ∧
      x.outcome = .aborted ∧ r.Earlier 1 h h' ∧
      r.runAmid 100 never h 1 = (first, some (.ok y)) ∧ y.outcome = .completed ∧
      r.runAmid 100 never h' 1 = (later, some (.ok z)) ∧
      RunResult.Twin "/runs" (RunId.ofIndex 0) (RunId.ofIndex 1) y z ∧
      (first.submission? 1).map (·.sink.events) = some method.events ∧
      later.submission? 1 = first.submission? 1 := by
  intro reports _ s r h never midway method
  have hearly : (r.runAmid 100 midway h 0).2.map (·.map (·.outcome)) = some (.ok .aborted) ∧
      (r.runAmid 100 midway h 0).1.runs = 1 := by decide +kernel
  have hfirst : (r.runAmid 100 never h 1).2.map (·.map (·.outcome)) = some (.ok .completed) ∧
      ((r.runAmid 100 never h 1).1.submission? 1).map (·.sink.events) = some method.events := by
    decide +kernel
  have hroot : h.files.isDir r.config.workspaceRoot = true := by
    have hmade : (Runner.create r.config {}).2.toOption.map (·.config) = some r.config := by
      decide +kernel
    obtain ⟨made, hmade, hconfig⟩ := Option.map_eq_some_iff.mp hmade
    obtain ⟨f, hcreate⟩ := exists_of_toOption hmade
    change (Runner.create r.config {}).1.isDir r.config.workspaceRoot = true
    rw [hcreate, ← hconfig]
    exact isDir_of_create (by decide) hcreate
  have hmidway (n : Nat) : 1 ∉ midway n := by
    unfold midway
    split <;> decide
  have hcwd : h.files.workingDir = [] := by decide +kernel
  have hshort : ∀ x ∈ h.files.entries, ∀ name ∈ x.1, name.toList.length < 24 := by decide +kernel
  have hnew (n : Nat) :
      h.files.IsUnused (RunId.ofIndex n) ∧ s.project.Avoids (RunId.ofIndex n) := by
    have hlong := Nat.not_lt.mpr (RunId.length_ofIndex n)
    exact ⟨⟨hcwd ▸ List.not_mem_nil, fun x hx hmem => hlong (hshort x hx _ hmem)⟩,
      ⟨fun path hpath => by simp [s, Wasm.Report.submission] at hpath, fun path hpath => by simp [s, Wasm.Report.submission] at hpath⟩⟩
  have hsize : (RunId.ofIndex 1).utf8ByteSize = (RunId.ofIndex 0).utf8ByteSize := by decide +kernel
  obtain ⟨h', x, hx, haborted⟩ := exists_of_outcome hearly.1
  obtain ⟨first, y, hy, hcompleted⟩ := exists_of_outcome hfirst.1
  have hearlier : r.Earlier 1 h (r.runAmid 100 midway h 0).1 :=
    .run .nothing (by decide) rfl hmidway (by rw [hx]; rfl)
  rw [hx] at hearly hearlier
  obtain ⟨hresults, hsink, -⟩ := independent_of_earlier_runs 100 never r h h' 1 s rfl rfl hroot
    (fun n _ => hnew n) (by rw [hearly.2]; exact hsize) hearlier
  rw [hy] at hfirst hresults hsink
  rw [hearly.2] at hresults
  generalize hlater : r.runAmid 100 never h' 1 = after at hresults hsink
  obtain ⟨later, result⟩ := after
  cases hresults with
  | some hpaired =>
    cases hpaired with
    | ok htwin =>
      exact ⟨h', first, later, x, y, _, hx, haborted, hearlier, hy, hcompleted, hlater, htwin,
        hfirst.2, hsink⟩

end Runner

end LiveTrace
