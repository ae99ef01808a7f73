import LiveTrace.Proofs.Run.Ending
import LiveTrace.Proofs.Trace.Sinks
import LiveTrace.Proofs.Wasm.Reports

/-
  Runs that never come to their entry function. Start functions run before the submission is
  registered, so that whatever hooks they call under whatever id, nothing reaches a sink
  (`Stage.Progress.unregistered`). All that such a run does to its sink is to unwind it, which
  is nothing to a sink with nothing open (`uninvoked_leaves_no_trace`).
-/
namespace LiveTrace

/-- An outcome that is settled before the entry function is called. -/
def RunOutcome.isUninvoked : RunOutcome → Bool
  | missingDependency _ | compileErrors _ => true
  | faulted (.workspace _) | faulted (.source _) | faulted (.engine _) => true
  | faulted (.entryPointMissing _) => true
  | _ => false

section

variable {σ : Type} [TraceSink σ]

/-- While nothing is registered, stages leave all submissions alone. -/
theorem Stage.Progress.unregistered {s s₁ : Stage σ} {p : Option Panic} (hp : s.Progress p s₁)
    (hnone : s.host.current = none) :
    s₁.host.current = none ∧ s₁.host.submission? = s.host.submission? := by
  refine ⟨hp.current.trans hnone, funext fun j => hp.others ?_⟩
  rw [hnone]
  exact nofun

variable [Engine]

/-- The code of an entry function decides on no outcome that is settled before it is called. -/
theorem Run.isUninvoked_outcomeOf (e : GuestEnd) : (outcomeOf e).isUninvoked = false := by
  cases e <;> rfl

theorem Run.isUninvoked_ended {h : Host σ} {r : Running} {e : GuestEnd} {res : RunResult}
    (hr : (ended h r e).2.result? = some (.ok res)) : res.outcome.isUninvoked = false := by
  rcases ended_cases h r e with ⟨p, hp⟩ | hfinish
  · rw [hp] at hr
    exact nomatch Option.some.inj hr
  · rw [hfinish] at hr
    rcases finish_result (h.drop r.identity.id) r.identity r.workspace (outcomeOf e) with
      ⟨p, -, hp⟩ | ⟨g, hg⟩
    · rw [hp] at hr
      exact nomatch Option.some.inj hr
    · rw [hg] at hr
      obtain rfl := Except.ok.inj (Option.some.inj hr)
      exact isUninvoked_outcomeOf e

omit [Engine] in
theorem Host.trace?_unwind {h : Host σ} {k : Key} {s : Submission σ}
    (hs : h.submission? k = some s) :
    (h.unwind k).1.trace? k = some (TraceSink.roots (TraceSink.unwind s.sink).sink) := by
  unfold Host.unwind trace?
  rw [withSink_submission? h k _ hs, if_pos rfl]
  rfl

namespace Runner

variable {C : Key → Prop} {r : Runner} {h h' : Host σ} {k : Key} {s : Submission σ}
  {res : RunResult} {invoked : Bool}

/-- A run with an outcome that is settled before its entry function is called leaves nothing
registered and all sinks as they were, but for its own, which it may have unwound. -/
theorem Ending.uninvoked (hend : r.Ending C h k s invoked h' (.ok res))
    (hs : h.submission? k = some s) (hnone : h.current = none)
    (ho : res.outcome.isUninvoked = true) :
    h'.current = none ∧ (∀ j, j ≠ k → h'.submission? j = h.submission? j) ∧
      (h'.submission? k = some s ∨
        h'.submission? k = some { s with sink := (TraceSink.unwind s.sink).sink }) := by
  cases hend with
  | homeless hc => exact ⟨hnone, fun _ _ => rfl, .inl hs⟩
  | ended hc hp hi hw hg hr => exact nomatch ho.symm.trans (Run.isUninvoked_ended hr)
  | @halted f w stage o _ hc hp hr =>
    obtain ⟨hcurrent, hsame⟩ := hp.unregistered hnone
    obtain ⟨lines, hlines⟩ := Run.finish_host stage.host (identity k s f w) stage.workspace o
    rw [hlines]
    refine ⟨(Host.withSink_current _ k _).trans hcurrent, fun j hj => ?_, .inr ?_⟩
    · exact (Host.withSink_others _ hj.symm _).trans (congrFun hsame j)
    · have hstage : (Run.removeWorkspace stage.host stage.workspace).submission? k = some s :=
        (congrFun hsame k).trans hs
      refine (Host.withSink_submission? _ k _ hstage).trans ?_
      rw [if_pos rfl]

/-- A run that never comes to its entry function leaves no trace, whatever hooks the start
functions of its modules call, and whoever is canceled meanwhile. Nothing is registered after it;
no other submission has changed; its own sink took no event and was at most unwound, so that it
has the trace it would have had, which is the very same one if nothing was open before. -/
theorem uninvoked_leaves_no_trace [LawfulSink σ] (fuel : Nat) (ws : Nat → List Key) (r : Runner)
    (h h' : Host σ) (k : Key) (s : Submission σ) (res : RunResult)
    (hs : h.submission? k = some s) (hnone : h.current = none)
    (hrun : r.runAmid fuel ws h k = (h', some (.ok res)))
    (ho : res.outcome.isUninvoked = true) :
    h'.current = none ∧ (∀ j, j ≠ k → h'.submission? j = h.submission? j) ∧
      (h'.submission? k = some s ∨
        h'.submission? k = some { s with sink := (TraceSink.unwind s.sink).sink }) ∧
      (h'.unwind k).1.trace? k = (h.unwind k).1.trace? k ∧
      (TraceSink.depth s.sink = 0 → h'.trace? k = h.trace? k) := by
  have hend := ending_of_runAmid (C := fun _ => True) hs (fun _ _ _ => trivial) hrun
  obtain ⟨hcurrent, hothers, hown⟩ := hend.uninvoked hs hnone ho
  refine ⟨hcurrent, hothers, hown, ?_, fun hclosed => ?_⟩
  · rcases hown with hown | hown
    · rw [Host.trace?_unwind hown, Host.trace?_unwind hs]
    · have htwice := LawfulSink.roots_unwind (TraceSink.unwind s.sink).sink
        (LawfulSink.depth_unwind s.sink)
      rw [Host.trace?_unwind hown, Host.trace?_unwind hs]
      exact congrArg some htwice
  · unfold Host.trace?
    rcases hown with hown | hown
    · rw [hown, hs]
    · rw [hown, hs]
      exact congrArg some (LawfulSink.roots_unwind s.sink hclosed)

end Runner

end

/-- A submission that has a trace already, and whose start function reports a method under its own
id. It gets no further than to that report; and if the engine cannot be set up, not even there. The
flags of the submission and of another one are set meanwhile. -/
theorem Runner.uninvoked_leaves_no_trace_of_start_function :
    let reports := Wasm.Report.passes 1
    let start := reports.flatMap Wasm.Report.code
    let source := Wasm.source ++ "(func $start " ++ Wasm.Report.text reports ++ ") (start $start)"
    let played : Recorder := (Recorder.play {} [.beginMethod 1 "g" [], .endMethod 1]).1
    let h : Host Recorder := {
      files := { entries := [(["runs"], .dir 0)] }
      submissions := [{ id := 4, project := ⟨[.text source], [], ""⟩, sink := played },
        { id := 4, sink := {} }] }
    let r : Runner := ⟨{ workspaceRoot := "/runs" }⟩
    (∃ l i c memory next,
      Stage.Linking.initial (Wasm.Machine.limitOf none : Engine.Core) 4 = .ok l ∧
      Engine.instantiate? (Wasm.Machine.limitOf none : Engine.Core) l.linker l.store
        (Wasm.unit (some start) []) = some i ∧ i.start = some c ∧
      Engine.resume c = .hook .beginMethod [.i32 4, .i32 7, .i32 0, .i32 1, .i32 0, .i32 0]
        memory next) ∧
    (let _ := Wasm.holding (Wasm.unit (some start) [])
      ∃ h' res, r.runAmid 10 (fun n => [n]) h 0 = (h', some (.ok res)) ∧
        res.outcome = .compileErrors .unlinkedUnit ∧ h'.current = none ∧
        h'.trace? 0 = some [(1, ⟨1, "g", [], []⟩)]) ∧
    let _ : Engine := { Wasm.engine with create := fun _ => .error "no stack" }
    ∃ h' res, r.runAmid 10 (fun n => [n]) h 0 = (h', some (.ok res)) ∧
      res.outcome = .faulted (.engine "no stack") ∧ h'.current = none ∧
      h'.trace? 0 = some [(1, ⟨1, "g", [], []⟩)] := by
  intro reports start source played h r
  refine ⟨Wasm.start_reporting .beginMethod 4 rfl _ [] (by decide), ?_, ?_⟩
  · intro _
    have hunlinked : (r.runAmid 10 (fun n => [n]) h 0).2.map (·.map (·.outcome)) =
        some (.ok (.compileErrors .unlinkedUnit)) := by decide +kernel
    obtain ⟨h', res, hrun, ho⟩ := exists_of_outcome hunlinked
    obtain ⟨hcurrent, -, -, -, hsame⟩ := uninvoked_leaves_no_trace 10 (fun n => [n]) r h h' 0 _ res
      rfl rfl hrun (by rw [ho]; rfl)
    exact ⟨h', res, hrun, ho, hcurrent, hsame rfl⟩
  · intro _
    have hfault : (r.runAmid 10 (fun n => [n]) h 0).2.map (·.map (·.outcome)) =
        some (.ok (.faulted (.engine "no stack"))) := by decide +kernel
    obtain ⟨h', res, hrun, ho⟩ := exists_of_outcome hfault
    obtain ⟨hcurrent, -, -, -, hsame⟩ := uninvoked_leaves_no_trace 10 (fun n => [n]) r h h' 0 _ res
      rfl rfl hrun (by rw [ho]; rfl)
    exact ⟨h', res, hrun, ho, hcurrent, hsame rfl⟩

end LiveTrace
