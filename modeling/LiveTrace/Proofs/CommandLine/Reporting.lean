import LiveTrace.Proofs.CommandLine.Watching
import LiveTrace.Proofs.Evaluator.Survival
import LiveTrace.Proofs.Wasm.Reports

/-
  What is printed about a run, by a watcher and by a single run. A watcher is the only one who
  listens to its evaluator (`run_hears`), and prints what it is told in the step after a run is
  over (`listen_of_result`). It is told of an aborted run that the run is over, and not how, so it
  calls the run completed; but for that word it prints what a single run with the same result
  prints (`prints_result_of_single_run`).
-/
namespace LiveTrace

namespace Evaluator

variable [Engine] {σ : Type} {e : Evaluator σ}

/-- An offer is nothing to those who listen. -/
theorem push_receivers (e : Evaluator σ) (k : Key) :
    (e.push k).receivers = e.receivers ∧ (e.push k).subscribers = e.subscribers := by
  have hstep (e : Evaluator σ) (o : Offer) : (e.offerStep o).1.receivers = e.receivers ∧
      (e.offerStep o).1.subscribers = e.subscribers := by
    cases o <;> exact ⟨rfl, rfl⟩
  unfold push
  simp only [Nat.repeat, hstep, and_self]

/-- If a step of the worker ends a run, the result is reported. -/
theorem isReported_of_advanced [TraceSink σ] {fuel : Nat} {h : Host σ} {k : Key} {s : RunState}
    (hs : e.advanced? fuel = some (h, k, s)) : s.IsReported := by
  unfold advanced? at hs
  split at hs
  · obtain ⟨state, hstate, heq⟩ := Option.map_eq_some_iff.mp hs
    obtain ⟨-, hrest⟩ := Prod.mk.inj heq
    obtain ⟨-, rfl⟩ := Prod.mk.inj hrest
    exact e.runner.start_isReported fuel e.host _ state hstate
  · obtain ⟨-, hrest⟩ := Prod.mk.inj (Option.some.inj hs)
    obtain ⟨-, rfl⟩ := Prod.mk.inj hrest
    exact Run.advance_isReported e.host _
  · contradiction

variable [TraceSink σ] {fuel : Nat} {h : Host σ} {k : Key} {r : RunResult}

/-- The step of the worker with which a run comes to a result. -/
theorem workerStep_of_result (hended : e.advanced? fuel = some (h, k, .done r)) :
    ∃ log, e.workerStep fuel = { e with
      host := h.write log
      worker := some ((r.notice? k).elim .waiting .publishing) } := by
  have hquiet : h.write [] = h := by
    unfold Host.write
    rw [List.append_nil]
  rw [(workerStep_advanced hended).1]
  unfold follow conclude
  dsimp only
  rw [announce_eq]
  cases r.outcome with
  | faulted error => exact ⟨_, rfl⟩
  | completed | aborted | missingDependency | compileErrors => exact ⟨[], by rw [hquiet]⟩

/-- In the step after that one the worker publishes what there is to be said. -/
theorem work_of_result (hended : e.advanced? fuel = some (h, k, .done r)) :
    ∃ log wakeUp worker, (e.workerStep fuel).workerStep fuel =
      { (r.notice? k).elim e e.publish with host := h.write log, wakeUp, worker } := by
  obtain ⟨log, hlog⟩ := workerStep_of_result hended
  rw [hlog]
  cases r.notice? k with
  | some n => exact ⟨log, _, _, rfl⟩
  | none =>
    -- It waits already, and can be woken.
    unfold workerStep
    dsimp only [Option.elim]
    split <;> exact ⟨log, _, _, rfl⟩

end Evaluator

/-- The ending that a notice tells of: an aborted run is over like a completed one. -/
def Ending.noticed : Ending → Ending
  | aborted => completed
  | ending => ending

theorem Ending.noticed_eq_iff {ending : Ending} : ending.noticed = ending ↔ ending ≠ aborted := by
  cases ending <;> decide

namespace CommandLine.Watcher

/-! ## Who listens -/

section

variable [Engine]

/-- A watcher is the only one who listens to its evaluator, and was sent the notices `ns`. -/
structure Hears (ns : List Notice) (w : Watcher) : Prop where
  receivers : w.evaluator.receivers = [⟨false, ns⟩]
  subscribers : w.evaluator.subscribers = [0]

variable {ns : List Notice} {u v w : Watcher}

theorem Hears.of_eq (hw : w.Hears ns) (hr : v.evaluator.receivers = w.evaluator.receivers)
    (hs : v.evaluator.subscribers = w.evaluator.subscribers) : v.Hears ns :=
  ⟨hr.trans hw.receivers, hs.trans hw.subscribers⟩

theorem Hears.notices_eq (hw : w.Hears ns) : w.notices = ns := by
  unfold notices
  rw [hw.receivers]
  rfl

/-- A watcher prints what it was sent since it printed last. -/
theorem Hears.listen {more : List Notice} (hw : w.Hears (ns ++ more))
    (hheard : w.heard = ns.length) : w.listen.2 = more.filterMap w.line? := by
  unfold Watcher.listen
  rw [hw.notices_eq, hheard, List.drop_left]

/-- A watcher hears what is published. -/
theorem Hears.publish (hw : w.Hears ns) (n : Notice)
    (hr : v.evaluator.receivers = (w.evaluator.publish n).receivers)
    (hs : v.evaluator.subscribers = (w.evaluator.publish n).subscribers) : v.Hears (ns ++ [n]) := by
  have hlistening : [0].filter w.evaluator.listens = [0] := by
    simp [Evaluator.listens, hw.receivers]
  unfold Evaluator.publish at hr hs
  dsimp only at hr hs
  rw [hw.subscribers, hlistening] at hr hs
  refine ⟨?_, hs⟩
  rw [hr, hw.receivers]
  rfl

theorem create_hears {c : EvaluatorConfig} {input : Input} {f₀ f₁ : Files}
    (h : create c input f₀ = (f₁, .ok w)) : w.Hears [] := by
  obtain ⟨host, runner, rfl⟩ := create_eq_ok h
  exact ⟨rfl, rfl⟩

theorem submit_hears (hw : w.Hears ns) : w.submit.Hears ns := by
  cases hcode : w.input.readCode w.files with
  | error e =>
    obtain ⟨text, hsubmit⟩ := submit_of_error hcode
    exact hw.of_eq (by rw [hsubmit]) (by rw [hsubmit])
  | ok code =>
    obtain ⟨hr, hs⟩ := Evaluator.push_receivers { w.evaluator with host := { w.evaluator.host with
      submissions := w.evaluator.host.submissions ++ [w.next w.files code] } }
      w.evaluator.host.submissions.length
    exact hw.of_eq (by rw [submit_of_code hcode]; exact hr) (by rw [submit_of_code hcode]; exact hs)

theorem act_hears (hw : w.Hears ns) (a : Event) : ∃ more, (w.act a).Hears (ns ++ more) := by
  have hsame {v : Watcher} (hr : v.evaluator.receivers = w.evaluator.receivers)
      (hs : v.evaluator.subscribers = w.evaluator.subscribers) : ∃ more, v.Hears (ns ++ more) :=
    ⟨[], (List.append_nil ns).symm ▸ hw.of_eq hr hs⟩
  cases a with
  | look f =>
    rw [look_eq]
    split
    · exact ⟨[], (List.append_nil ns).symm ▸ submit_hears ⟨hw.receivers, hw.subscribers⟩⟩
    · exact hsame rfl rfl
  | work fuel =>
    have heffect := w.evaluator.workerStep_effect fuel
    change ∃ more, Hears (ns ++ more) { w with evaluator := w.evaluator.workerStep fuel }
    generalize w.evaluator.workerStep fuel = e, w.evaluator.workerDeeds fuel = ds at heffect
    cases heffect with
    | publish n => exact ⟨[n], hw.publish n rfl rfl⟩
    | idle | receive | stop | proceed | miss | take | goOn | exhaust | conclude | die =>
      exact hsame rfl rfl
  | print => exact hsame rfl rfl

theorem run_hears (hw : w.Hears ns) (as : List Event) : ∃ ns', (w.run as).Hears ns' := by
  induction as generalizing w ns with
  | nil => exact ⟨ns, hw⟩
  | cons a as ih =>
    obtain ⟨more, hmore⟩ := act_hears hw a
    exact ih hmore

/-! ## What is printed -/

omit [Engine] in
/-- What is printed of a submission that is not canceled and whose run had a result. -/
theorem ofNotice?_of_result {k : Key} {s : Submission Recorder} {r : RunResult} {n : Notice}
    (hr : r.IsReported) (hcanceled : s.canceled = false) (hn : r.notice? k = some n) :
    n.submission = k ∧ Summary.ofNotice? s n = some { Summary.ofResult s r with
      ending := (Summary.ofResult s r).ending.noticed } := by
  have hheard := hr.heard k
  rw [hn] at hheard
  unfold Summary.ofNotice?
  cases hheard with
  | completed report h | aborted report h =>
    refine ⟨rfl, ?_⟩
    dsimp only
    rw [hcanceled]
    rfl
  | faulted e report => exact ⟨rfl, rfl⟩

/-- The two steps of the worker with which a run is over and published, as a watcher sees them that
has printed everything before. -/
theorem listen_of_result (hw : w.Hears ns) (hheard : w.heard = ns.length) {fuel : Nat}
    {h : Host Recorder} {k : Key} {r : RunResult} {s : Submission Recorder}
    (hended : w.evaluator.advanced? fuel = some (h, k, .done r)) (hs : h.submission? k = some s)
    (hcanceled : s.canceled = false) :
    (w.run [.work fuel, .work fuel]).listen.2 = ((r.notice? k).map fun _ =>
      { Summary.ofResult s r with
        ending := (Summary.ofResult s r).ending.noticed }.toJson.compactText).toList := by
  obtain ⟨log, wakeUp, worker, hsteps⟩ := Evaluator.work_of_result hended
  have hreported := Evaluator.isReported_of_advanced hended
  change Prod.snd (Watcher.listen { w with
    evaluator := (w.evaluator.workerStep fuel).workerStep fuel }) = _
  rw [hsteps]
  cases hn : r.notice? k with
  | none =>
    have hears : Hears (ns ++ []) { w with
        evaluator := { w.evaluator with host := h.write log, wakeUp, worker } } := by
      rw [List.append_nil]
      exact hw.of_eq rfl rfl
    exact hears.listen hheard
  | some n =>
    obtain ⟨rfl, hline⟩ := ofNotice?_of_result hreported hcanceled hn
    have hears : Hears (ns ++ [n]) { w with
        evaluator := { w.evaluator.publish n with host := h.write log, wakeUp, worker } } :=
      hw.publish n rfl rfl
    have hsubmission : (h.write log).submission? n.submission = some s := hs
    refine (hears.listen hheard).trans ?_
    unfold line?
    rw [List.filterMap_cons, hsubmission, Option.bind_eq_bind, Option.bind_some, hline]
    rfl

/-- The two steps of the worker with which a run is over and published, at any time, if everything
is printed before. -/
theorem listen_of_run {c : EvaluatorConfig} {input : Input} {f₀ f₁ : Files} {as : List Event}
    {fuel : Nat} {h : Host Recorder} {k : Key} {r : RunResult} {s : Submission Recorder}
    (hcreate : create c input f₀ = (f₁, .ok w))
    (hended : (w.run as).evaluator.advanced? fuel = some (h, k, .done r))
    (hs : h.submission? k = some s) (hcanceled : s.canceled = false) :
    (w.run (as ++ [.print, .work fuel, .work fuel])).listen.2 = ((r.notice? k).map fun _ =>
      { Summary.ofResult s r with
        ending := (Summary.ofResult s r).ending.noticed }.toJson.compactText).toList := by
  obtain ⟨ns, hns⟩ := run_hears (create_hears hcreate) as
  have hprinted : Hears ns ((w.run as).act .print) := hns.of_eq rfl rfl
  have hheard : ((w.run as).act .print).heard = ns.length := congrArg List.length hns.notices_eq
  have hrun : w.run (as ++ [.print, .work fuel, .work fuel]) =
      ((w.run as).act .print).run [.work fuel, .work fuel] := List.foldl_append
  rw [hrun]
  exact listen_of_result hprinted hheard hended hs hcanceled

/-- A step of the worker ends a run of a submission that is not canceled, whatever the watcher has
seen and its code has done before. If there is a notice of the result, the watcher prints one line
about it in the step after, and otherwise none. That line is the one that a single run with the
result prints, but for the ending of an aborted run, which is not told apart from a completed
one. -/
theorem prints_result_of_single_run (c : EvaluatorConfig) (input : Input) (f₀ f₁ : Files)
    (w : Watcher) (as : List Event) (fuel : Nat) (h : Host Recorder) (k : Key) (r : RunResult)
    (s : Submission Recorder) (hcreate : create c input f₀ = (f₁, .ok w))
    (hended : (w.run as).evaluator.advanced? fuel = some (h, k, .done r))
    (hs : h.submission? k = some s) (hcanceled : s.canceled = false) :
    let lines := (w.run (as ++ [.print, .work fuel, .work fuel])).listen.2
    let summary := Summary.ofResult s r
    (resultOutput false s r).out = summary.toJson.compactText ++ "\n" ∧
      lines = ((r.notice? k).map fun _ =>
        { summary with ending := summary.ending.noticed }.toJson.compactText).toList ∧
      (summary.ending.noticed = summary.ending ↔ r.outcome ≠ .aborted) := by
  intro lines summary
  refine ⟨rfl, listen_of_run hcreate hended hs hcanceled, ?_⟩
  rw [Ending.noticed_eq_iff]
  unfold summary Summary.ofResult
  cases r.outcome <;> simp [Summary.ofOutcome]

/-- The submission whose run a step of the worker brings to a result, and the result. -/
def ended? (w : Watcher) (fuel : Nat) : Option (Key × Submission Recorder × RunResult) :=
  match w.evaluator.advanced? fuel with
  | some (h, k, .done r) => (h.submission? k).map fun s => (k, s, r)
  | _ => none

theorem exists_of_ended {α : Type} {c : EvaluatorConfig} {input : Input} {f₀ : Files}
    {as : List Event} {fuel : Nat} {view : Key × Submission Recorder × RunResult → α} {a : α}
    (hview : ((create c input f₀).2.toOption.bind fun w => (w.run as).ended? fuel).map view =
      some a) :
    ∃ f₁ w h k s r, create c input f₀ = (f₁, .ok w) ∧
      (w.run as).evaluator.advanced? fuel = some (h, k, .done r) ∧ h.submission? k = some s ∧
      view (k, s, r) = a := by
  obtain ⟨x, hended, hx⟩ := Option.map_eq_some_iff.mp hview
  generalize hcreate : create c input f₀ = created at hended
  obtain ⟨f₁, e | w⟩ := created
  · contradiction
  · change (w.run as).ended? fuel = some x at hended
    unfold ended? at hended
    split at hended
    · obtain ⟨s, hs, rfl⟩ := Option.map_eq_some_iff.mp hended
      exact ⟨f₁, w, _, _, s, _, rfl, ‹_›, hs, hx⟩
    · contradiction

end

/-- The watched source is there, and the code of the run passes through a loop. The watcher prints
what a single run prints, with the trace. -/
theorem prints_result_of_run_with_loop :
    let reports := Wasm.Report.passes 1
    let _ := Wasm.Report.engine reports
    let c : EvaluatorConfig := { workspaceRoot := "/runs" }
    let input : Input := { sources := ["/a.wat"], code := some (Wasm.Report.text reports) }
    let tree : Files :=
      { entries := [(["runs"], .dir 0), (["a.wat"], .file (Utf8.encode Wasm.source.toList) 5)] }
    let begins : List Event := .look tree :: .replicate 11 (.work 9)
    let method : MethodCall := ⟨7, "f", [], [.loop ⟨1, [⟨1, [.returnValue ⟨2, some "5"⟩]⟩]⟩]⟩
    ∃ f₁ w h s r line, create c input tree = (f₁, .ok w) ∧
      (w.run begins).evaluator.advanced? 9 = some (h, 0, .done r) ∧ h.submission? 0 = some s ∧
      r.outcome = .completed ∧ s.sink.roots.map (·.2.events) = [method.events] ∧
      (w.run (begins ++ [.print, .work 9, .work 9])).listen.2 = [line] ∧
      (resultOutput false s r).out = line ++ "\n" := by
  intro reports _ c input tree begins method
  have hview : ((create c input tree).2.toOption.bind fun w => (w.run begins).ended? 9).map
      (fun (k, s, r) => (k, r.outcome, s.canceled, s.sink.roots.map (·.2.events))) =
      some (0, .completed, false, [method.events]) := by
    decide +kernel
  obtain ⟨f₁, w, h, k, s, r, hcreate, hended, hs, hfacts⟩ := exists_of_ended hview
  obtain ⟨rfl, hrest⟩ := Prod.mk.inj hfacts
  obtain ⟨hcompleted, hrest⟩ := Prod.mk.inj hrest
  obtain ⟨hcanceled, htrace⟩ := Prod.mk.inj hrest
  obtain ⟨hout, hlines, hsame⟩ := prints_result_of_single_run c input tree f₁ w begins 9 h 0 r s
    hcreate hended hs hcanceled
  obtain ⟨n, hnotice⟩ :=
    (Evaluator.isReported_of_advanced hended).exists_notice 0 (.inl hcompleted)
  rw [hnotice, hsame.mpr (by rw [hcompleted]; exact nofun)] at hlines
  exact ⟨f₁, w, h, s, r, _, hcreate, hended, hs, hcompleted, htrace, hlines, hout⟩

/-- Code that tells of the end of a method of another submission than its own. Its run is aborted,
although the submission is not canceled. The watcher calls the run completed, and a single run does
not. -/
theorem prints_aborted_run_as_completed :
    let _ := Wasm.holding (Wasm.unit none
      [.const (.i32 2), .const (.i32 0), .call (Hook.all.idxOf .endMethod)])
    let c : EvaluatorConfig := { workspaceRoot := "/runs" }
    let input : Input :=
      { sources := ["/a.wat"], code := some "i32.const 2 i32.const 0 call $instant.end_method" }
    let tree : Files :=
      { entries := [(["runs"], .dir 0), (["a.wat"], .file (Utf8.encode Wasm.source.toList) 5)] }
    let begins : List Event := .look tree :: .replicate 4 (.work 9)
    ∃ f₁ w h s r, create c input tree = (f₁, .ok w) ∧
      (w.run begins).evaluator.advanced? 9 = some (h, 0, .done r) ∧ h.submission? 0 = some s ∧
      s.canceled = false ∧ (Summary.ofResult s r).ending = .aborted ∧
      (w.run (begins ++ [.print, .work 9, .work 9])).listen.2 =
        [{ Summary.ofResult s r with ending := .completed }.toJson.compactText] ∧
      { Summary.ofResult s r with ending := .completed }.toJson.compactText ++ "\n" ≠
        (resultOutput false s r).out := by
  intro _ c input tree begins
  have hview : ((create c input tree).2.toOption.bind fun w => (w.run begins).ended? 9).map
      (fun (k, s, r) => (k, r.outcome, s.canceled,
        decide ({ Summary.ofResult s r with ending := .completed }.toJson.compactText ++ "\n" =
          (resultOutput false s r).out))) =
      some (0, .aborted, false, false) := by
    decide +kernel
  obtain ⟨f₁, w, h, k, s, r, hcreate, hended, hs, hfacts⟩ := exists_of_ended hview
  obtain ⟨rfl, hrest⟩ := Prod.mk.inj hfacts
  obtain ⟨haborted, hrest⟩ := Prod.mk.inj hrest
  obtain ⟨hcanceled, hne⟩ := Prod.mk.inj hrest
  obtain ⟨n, hnotice⟩ :=
    (Evaluator.isReported_of_advanced hended).exists_notice 0 (.inr haborted)
  have hending : (Summary.ofResult s r).ending = .aborted := by
    unfold Summary.ofResult
    rw [haborted]
    rfl
  have hlines := listen_of_run hcreate hended hs hcanceled
  rw [hnotice, hending] at hlines
  exact ⟨f₁, w, h, s, r, hcreate, hended, hs, hcanceled, hending, hlines,
    of_decide_eq_false hne⟩

end CommandLine.Watcher

end LiveTrace
