import LiveTrace.Proofs.Run.Cleanup

/-
  What any number of runs, one after another, leave to a submission that was not among them
  (`Earlier.untouched`). Nothing is registered, the submission is as it was, and the tree is too,
  but for times. Only the log and the count of run ids tell of the runs.
-/
namespace LiveTrace

variable {σ : Type} {k : Key} {h h₁ h' : Host σ}

/-- What is left to the submission `k` is what there was, and nothing is registered. -/
structure Host.Untouched (k : Key) (h h' : Host σ) : Prop where
  current : h'.current = none
  own : h'.submission? k = h.submission? k
  files : h.files.Alike h'.files
  runs : h.runs ≤ h'.runs

theorem Host.Untouched.refl (hempty : h.current = none) : h.Untouched k h :=
  ⟨hempty, rfl, .refl _, Nat.le.refl⟩

theorem Host.Untouched.trans (hu : h.Untouched k h₁) (hv : h₁.Untouched k h') : h.Untouched k h' :=
  ⟨hv.current, hv.own.trans hu.own, hu.files.trans hv.files, Nat.le_trans hu.runs hv.runs⟩

theorem Host.Untouched.unwind [TraceSink σ] (hu : h.Untouched k h₁) {j : Key} (hj : j ≠ k) :
    h.Untouched k (h₁.unwind j).1 := by
  obtain ⟨hfiles, hruns⟩ := Host.withSink_outside h₁ j fun _ => TraceSink.unwind
  refine ⟨(Host.withSink_current h₁ j _).trans hu.current,
    (Host.withSink_others h₁ hj _).trans hu.own, ?_, ?_⟩
  · unfold Host.unwind
    rw [hfiles]
    exact hu.files
  · unfold Host.unwind
    rw [hruns]
    exact hu.runs

namespace Runner

variable {r : Runner}

/-- Once there is a runner, the root of its working directories is there. -/
theorem isDir_of_create {c : EvaluatorConfig} {f g : Files} (hne : c.workspaceRoot ≠ "")
    (hr : Runner.create c f = (g, .ok r)) : g.isDir r.config.workspaceRoot = true := by
  unfold Runner.create Workspace.makeBase at hr
  rcases hmake : f.makeDirAll c.workspaceRoot with ⟨g', _ | cause⟩
  · rw [hmake] at hr
    obtain ⟨rfl, hrunner⟩ := Prod.mk.inj hr
    obtain rfl := Except.ok.inj hrunner
    exact Files.makeDirAll_isDir hne hmake
  · rw [hmake] at hr
    exact nomatch congrArg Prod.snd hr

variable [Engine] [TraceSink σ]

/-- From `h` to `h'` submissions other than `k` were run one after another, each to its end and
whatever that was. Meanwhile and in between, submissions other than `k` may have been canceled.
An evaluator may have drawn its conclusions from the runs, or not, and written to the log. -/
inductive Earlier (r : Runner) (k : Key) (h : Host σ) : Host σ → Prop where
  | nothing : Earlier r k h h
  | run {h₁ : Host σ} {fuel : Nat} {ws : Nat → List Key} {j : Key} {s : Submission σ}
    (he : Earlier r k h h₁) (hj : j ≠ k) (hs : h₁.submission? j = some s) (hws : ∀ n, k ∉ ws n)
    (hended : (r.runAmid fuel ws h₁ j).2.isSome = true) :
    Earlier r k h (r.runAmid fuel ws h₁ j).1
  | conclude {h₁ : Host σ} (he : Earlier r k h h₁) {j : Key} (hj : j ≠ k) (e : Evaluator σ)
    (result : Except Panic RunResult) :
    Earlier r k h ({ e with host := h₁ }.conclude j result).host
  | cancel {h₁ : Host σ} (he : Earlier r k h h₁) {j : Key} (hj : j ≠ k) :
    Earlier r k h (h₁.cancel j)
  | note {h₁ : Host σ} (he : Earlier r k h h₁) (lines : List LogLine) :
    Earlier r k h (h₁.write lines)

/-- Where the root of working directories is there, a run leaves the tree as it was. -/
theorem Ending.alike {C : Key → Prop} {j : Key} {sub : Submission σ} {invoked : Bool}
    {result : Except Panic RunResult} (hend : r.Ending C h j sub invoked h' result)
    (hroot : h.files.isDir r.config.workspaceRoot = true)
    (hnew : h.files.IsUnused (RunId.ofIndex h.runs)) : h.files.Alike h'.files := by
  rcases hc : r.createWorkspace h with ⟨f, e | w⟩
  · obtain rfl : f = h.files := Workspace.create_failed hnew hroot hc
    cases hend with
    | homeless hc' =>
      obtain rfl := congrArg Prod.fst (hc'.symm.trans hc)
      exact .refl _
    | halted hc' | cutShort hc' | ended hc' => exact nomatch congrArg Prod.snd (hc'.symm.trans hc)
  · obtain ⟨made, hmade, halone⟩ := hend.files hnew hc
    obtain rfl := halone hroot
    exact hmade.alike

/-- A run leaves other submissions what there was. -/
theorem Ending.untouched {C : Key → Prop} {j : Key} {sub : Submission σ} {invoked : Bool}
    {result : Except Panic RunResult} (hend : r.Ending C h j sub invoked h' result) (hj : j ≠ k)
    (hC : ¬ C k) (hsub : h.submission? j = some sub) (hempty : h.current = none)
    (hroot : h.files.isDir r.config.workspaceRoot = true)
    (hnew : h.files.IsUnused (RunId.ofIndex h.runs)) : h.Untouched k h' := by
  have hcurrent := hend.current hsub
  rw [hempty, ite_self] at hcurrent
  exact ⟨hcurrent, hend.others (Ne.symm hj) (hempty ▸ nofun) hC, hend.alike hroot hnew, hend.runs⟩

theorem Earlier.untouched (he : r.Earlier k h h') (hempty : h.current = none)
    (hroot : h.files.isDir r.config.workspaceRoot = true)
    (hnew : ∀ n, h.runs ≤ n → h.files.IsUnused (RunId.ofIndex n)) : h.Untouched k h' := by
  induction he with
  | nothing => exact .refl hempty
  | @run h₁ fuel ws j s _ hj hs hws hended ih =>
    obtain ⟨result, hresult⟩ := Option.isSome_iff_exists.mp hended
    have hend := ending_of_runAmid (C := (· ≠ k)) hs (fun n i hi heq => hws n (heq ▸ hi))
      (Prod.ext rfl hresult)
    exact ih.trans (hend.untouched hj (fun hne => hne rfl) hs ih.current
      ((ih.files.isDir _).trans hroot) ((hnew h₁.runs ih.runs).alike ih.files))
  | @conclude h₁ _ j hj e result ih =>
    cases result with
    | ok res =>
      obtain ⟨lines, hlines⟩ := Evaluator.conclude_ok { e with host := h₁ } j res
      rw [hlines]
      exact ⟨ih.current, ih.own, ih.files, ih.runs⟩
    | error p =>
      obtain ⟨lines, hlines⟩ := Evaluator.conclude_error { e with host := h₁ } j p
      have hwritten : h.Untouched k (h₁.write lines) := ⟨ih.current, ih.own, ih.files, ih.runs⟩
      rw [hlines]
      exact hwritten.unwind hj
  | @cancel h₁ _ j hj ih =>
    refine ⟨ih.current, ?_, ih.files, ih.runs⟩
    unfold Host.cancel
    rw [Host.submission?_update, if_neg hj, ih.own]
  | note _ lines ih => exact ⟨ih.current, ih.own, ih.files, ih.runs⟩

end Runner

end LiveTrace
