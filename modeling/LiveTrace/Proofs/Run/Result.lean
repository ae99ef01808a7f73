import LiveTrace.Evaluator.Notice
import LiveTrace.Run.Basic
import Mathlib.Data.List.Basic

/-
  What a run that is over leaves to be said. A result has a report unless no working directory
  could be made, and the report says whether the run was told to stop (`start_isReported`,
  `advance_isReported`). So there is something to be said about every run but those that
  changed nothing.
-/
namespace LiveTrace

/-- A result with a report that fits its outcome; only want of a working directory excuses a
result without one. -/
def RunResult.IsReported (r : RunResult) : Prop :=
  match r.report with
  | none => ∃ e, r.outcome = .faulted (.workspace e)
  | some report => report.aborted = true ↔ r.outcome = .aborted

/-- What is said about a run of the submission `k` that is over. -/
inductive Heard (k : Key) : Except Panic RunResult → Option Notice → Prop where
  | completed (report : RunReport) (h : report.aborted = false) :
    Heard k (.ok ⟨.completed, some report⟩) (some (.completed k report))
  | aborted (report : RunReport) (h : report.aborted = true) :
    Heard k (.ok ⟨.aborted, some report⟩) (some (.completed k report))
  | missing (path : String) (report : Option RunReport) :
    Heard k (.ok ⟨.missingDependency path, report⟩) none
  | uncompiled (e : CompileError) (report : Option RunReport) :
    Heard k (.ok ⟨.compileErrors e, report⟩) none
  | faulted (e : EvalError) (report : Option RunReport) :
    Heard k (.ok ⟨.faulted e, report⟩) (some (.failed k e report))
  | panicked (p : Panic) :
    Heard k (.error p) (some (.failed k (.panicked p.message) none))

theorem RunResult.IsReported.heard {r : RunResult} (hr : r.IsReported) (k : Key) :
    Heard k (.ok r) (r.notice? k) := by
  obtain ⟨outcome, _ | report⟩ := r
  · obtain ⟨e, rfl⟩ := hr
    exact .faulted _ none
  · have hflag : report.aborted = true ↔ outcome = .aborted := hr
    cases outcome with
    | completed => exact .completed report (by simpa using hflag)
    | aborted => exact .aborted report (hflag.mpr rfl)
    | missingDependency path => exact .missing path _
    | compileErrors e => exact .uncompiled e _
    | faulted e => exact .faulted e _

/-- A run that completed or was aborted is told of. -/
theorem RunResult.IsReported.exists_notice {r : RunResult} (hr : r.IsReported) (k : Key)
    (ho : r.outcome = .completed ∨ r.outcome = .aborted) : ∃ n, r.notice? k = some n := by
  have hheard := hr.heard k
  generalize r.notice? k = n at hheard
  cases hheard with
  | completed | aborted | faulted => exact ⟨_, rfl⟩
  | missing | uncompiled => rcases ho with ho | ho <;> contradiction

section

variable {σ : Type} {x : Host σ × Option (Except Panic RunResult)}

/-- A run with an outcome has come to a result. -/
theorem Runner.exists_of_outcome {o : RunOutcome}
    (h : x.2.map (·.map (·.outcome)) = some (.ok o)) :
    ∃ h' res, x = (h', some (.ok res)) ∧ res.outcome = o := by
  obtain ⟨h', _ | p | res⟩ := x
  · exact nomatch h
  · exact nomatch Option.some.inj h
  · exact ⟨h', res, rfl, Except.ok.inj (Option.some.inj h)⟩

theorem Runner.exists_of_panic {p : Panic}
    (h : x.2.map (·.map (·.outcome)) = some (.error p)) : ∃ h', x = (h', some (.error p)) := by
  obtain ⟨h', _ | q | res⟩ := x
  · exact nomatch h
  · obtain rfl := Except.error.inj (Option.some.inj h)
    exact ⟨h', rfl⟩
  · exact nomatch Option.some.inj h

end

variable [Engine]

/-- How a run is over, if it is. -/
def RunState.result? : RunState → Option (Except Panic RunResult)
  | running _ => none
  | done r => some (.ok r)
  | panicked p => some (.error p)

/-- If a run is over, its result is reported. -/
def RunState.IsReported : RunState → Prop
  | done r => r.IsReported
  | _ => True

section

variable {σ : Type} [TraceSink σ]

namespace Run

theorem finish_isReported (h : Host σ) (i : RunIdentity) (w : Workspace) (o : RunOutcome) :
    (finish h i w o).2.IsReported := by
  unfold finish
  obtain ⟨h', p | _⟩ := (removeWorkspace h w).unwind i.key
  · trivial
  · exact beq_iff_eq

theorem invoke_isReported (h : Host σ) (i : RunIdentity) (w : Workspace) (c : Stage.Compiled) :
    (invoke h i w c).2.IsReported := by
  unfold invoke
  cases Engine.entry? c.core c.store c.unit Assembly.entryExport with
  | none => exact finish_isReported h i w _
  | some code => trivial

theorem advance_isReported (h : Host σ) (r : Running) : (advance h r).2.IsReported := by
  unfold advance
  obtain ⟨h', code | e⟩ := Guest.advance h r.code
  · trivial
  · unfold ended
    cases e with
    | panicked p => trivial
    | returned s => exact finish_isReported _ r.identity r.workspace _
    | aborted => exact finish_isReported _ r.identity r.workspace _
    | fault f => exact finish_isReported _ r.identity r.workspace _

end Run

theorem Runner.start_isReported (fuel : Nat) (r : Runner) (h : Host σ) (k : Key) :
    ∀ s, (r.start fuel h k).2 = some s → s.IsReported := by
  unfold start
  cases h.submission? k with
  | none => exact fun s hs => Option.some.inj hs ▸ trivial
  | some sub =>
    dsimp only
    obtain ⟨f, e | w⟩ := Workspace.create r.config.workspaceRoot h.runs h.files
    · exact fun s hs => Option.some.inj hs ▸ ⟨e, rfl⟩
    · dsimp only
      generalize Stage.prepare fuel r.config _ sub = prepared
      obtain ⟨stage, _ | (o | p) | c⟩ := prepared
      · exact fun s hs => nomatch hs
      · have hfinish := Run.finish_isReported stage.host
          ⟨k, sub.id, w.runId, sub.createdAt, f.now⟩ stage.workspace o
        dsimp only
        generalize Run.finish stage.host _ stage.workspace o = last at hfinish ⊢
        exact fun s hs => Option.some.inj hs ▸ hfinish
      · exact fun s hs => Option.some.inj hs ▸ trivial
      · have hinvoke := Run.invoke_isReported stage.host
          ⟨k, sub.id, w.runId, sub.createdAt, f.now⟩ stage.workspace c
        dsimp only
        generalize Run.invoke stage.host _ stage.workspace c = last at hinvoke ⊢
        exact fun s hs => Option.some.inj hs ▸ hinvoke

end

end LiveTrace
