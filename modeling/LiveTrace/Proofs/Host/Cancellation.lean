import LiveTrace.Proofs.Host.Calls
import LiveTrace.Proofs.Trace.Unwinding

/-
  What is left of a run after its submission was canceled. A canceled sink takes ends only
  (`offer_canceled`), and an end does no more than unwinding does, so the trace is settled at
  the moment of the cancellation, whatever calls follow (`cancel_freezes_trace`).
-/
namespace LiveTrace

/-- The events that go to a canceled sink when an event is offered. -/
def Event.whenCanceled : Event → List Event
  | endMethod id => [.endMethod id]
  | endLoop id => [.endLoop id]
  | beginIteration id => [.endLoop id]
  | endIteration id => [.endIteration id, .endLoop id]
  | _ => []

theorem Event.isEnd_of_whenCanceled {e f : Event} (h : f ∈ e.whenCanceled) : f.isEnd = true := by
  cases e with
  | endMethod id => exact List.mem_singleton.mp h ▸ rfl
  | endLoop id => exact List.mem_singleton.mp h ▸ rfl
  | beginIteration id => exact List.mem_singleton.mp h ▸ rfl
  | endIteration id =>
    rcases List.mem_cons.mp h with rfl | h
    · rfl
    · exact List.mem_singleton.mp h ▸ rfl
  | beginMethod | beginLoop | change | ret => exact absurd h List.not_mem_nil

theorem Event.offer_canceled (e : Event) (r : Recorder) :
    (e.offer true r).sink = (r.play e.whenCanceled).1 ∧ (e.offer true r).result = .ok false := by
  cases e <;> exact ⟨rfl, rfl⟩

theorem Recorder.finished_play_ends (r : Recorder) {es : List Event}
    (h : ∀ e ∈ es, e.isEnd = true) : (r.play es).1.finished = r.finished := by
  induction es generalizing r with
  | nil => rfl
  | cons e es ih =>
    rw [play_cons, ih _ fun f hf => h f (List.mem_cons_of_mem e hf)]
    exact finished_record_end r (h e List.mem_cons_self)

namespace Host

/-- The submission `k` is registered and canceled, and its sink unwinds to `trace`. -/
structure Frozen (h : Host Recorder) (k : Key) (trace : Roots) : Prop where
  current : h.current = some k
  canceled : ∃ s, h.submission? k = some s ∧ s.canceled = true ∧ s.sink.finished = trace

section

variable {h : Host Recorder} {k : Key} {trace : Roots}

theorem Frozen.registered (hf : h.Frozen k trace) {sid : SubmissionId} {j : Key}
    (hj : h.registered? sid = some j) : j = k := by
  unfold registered? at hj
  rw [hf.current] at hj
  exact (Option.some.inj (Option.filter_eq_some_iff.mp hj).1).symm

theorem Frozen.inactive (hf : h.Frozen k trace) (sid : SubmissionId) : h.isActive sid = false := by
  obtain ⟨s, hs, hcanceled, -⟩ := hf.canceled
  unfold isActive
  cases hj : h.registered? sid with
  | none => rfl
  | some j =>
    rw [hf.registered hj]
    dsimp only
    rw [isCanceled, hs, Option.map_some, Option.getD_some, hcanceled]
    rfl

theorem Frozen.report (hf : h.Frozen k trace) (sid : SubmissionId) (e : Event) :
    (h.report sid e).1.Frozen k trace ∧ (h.report sid e).2 = .error .aborted := by
  cases hj : h.registered? sid with
  | none =>
    rw [report_unregistered hj]
    exact ⟨hf, rfl⟩
  | some j =>
    obtain rfl := hf.registered hj
    obtain ⟨hcurrent, s, hs, hcanceled, hfinished⟩ := hf
    obtain ⟨hsink, hresult⟩ := e.offer_canceled s.sink
    have hsame : (s.sink.play e.whenCanceled).1.finished = s.sink.finished :=
      s.sink.finished_play_ends fun _ hf => Event.isEnd_of_whenCanceled hf
    rw [report_registered hj]
    refine ⟨⟨(withSink_current h j _).trans hcurrent, _, withSink_submission? h j _ hs, ?_⟩, ?_⟩
    · rw [if_pos rfl, hcanceled, hsink]
      exact ⟨rfl, hsame.trans hfinished⟩
    · rw [withSink_of_submission? hs, hcanceled, hresult]

theorem Frozen.hook (hf : h.Frozen k trace) (sid : SubmissionId) (c : HookCall) :
    (h.hook sid c).1.Frozen k trace ∧ (h.hook sid c).2 = .error .aborted := by
  cases hc : c.event? with
  | some e =>
    obtain ⟨hfrozen, hanswer⟩ := hf.report sid e
    rw [hook_event hc]
    exact ⟨hfrozen, by rw [hanswer]; rfl⟩
  | none =>
    cases c with
    | active =>
      refine ⟨hf, ?_⟩
      unfold Host.hook
      rw [hf.inactive sid]
      rfl
    | event | object | returned => contradiction

theorem Frozen.hooks (hf : h.Frozen k trace) (calls : List (SubmissionId × HookCall)) :
    (h.hooks calls).1.Frozen k trace ∧
      (h.hooks calls).2 = calls.map fun _ => .error .aborted := by
  induction calls generalizing h with
  | nil => exact ⟨hf, rfl⟩
  | cons call calls ih =>
    obtain ⟨sid, c⟩ := call
    obtain ⟨hfrozen, hanswer⟩ := hf.hook sid c
    obtain ⟨hlast, hanswers⟩ := ih hfrozen
    rw [hooks_cons]
    exact ⟨hlast, by rw [hanswer, hanswers]; rfl⟩

theorem Frozen.unwind (hf : h.Frozen k trace) : (h.unwind k).1.trace? k = some trace := by
  obtain ⟨-, s, hs, -, hfinished⟩ := hf
  have hroots : s.sink.unwind.1.roots = trace := by rw [Recorder.unwind_eq, hfinished]
  unfold Host.unwind trace?
  rw [withSink_submission? h k _ hs, if_pos rfl]
  exact congrArg some hroots

end

/-- Cancellation freezes the trace. Whatever a registered submission recorded before it was
canceled, every call after that is refused, and unwinding the sink after these calls gives the
trace that unwinding it at once gives. -/
theorem cancel_freezes_trace (h : Host Recorder) (k : Key) (s : Submission Recorder)
    (hk : h.current = some k) (hs : h.submission? k = some s)
    (before after : List (SubmissionId × HookCall)) :
    let canceled := (h.hooks before).1.cancel k
    (canceled.hooks after).2 = (after.map fun _ => .error .aborted) ∧
      ∃ trace, (canceled.unwind k).1.trace? k = some trace ∧
        ((canceled.hooks after).1.unwind k).1.trace? k = some trace := by
  intro canceled
  obtain ⟨sink, hsink⟩ := hooks_submission? h before hs
  have hf : canceled.Frozen k sink.finished := by
    refine ⟨(hooks_current h before).trans hk, { s with sink, canceled := true }, ?_, rfl, rfl⟩
    unfold canceled cancel
    rw [submission?_update, if_pos rfl, hsink]
    rfl
  obtain ⟨hlast, hanswers⟩ := hf.hooks after
  exact ⟨hanswers, sink.finished, hf.unwind, hlast.unwind⟩

/-- A run canceled in a pass through a loop. What follows closes the loop as well, ends what is
not open and calls under the id of another submission. -/
theorem cancel_freezes_trace_in_loop :
    let h : Host Recorder := { submissions := [{ id := 4, sink := {} }], current := some 0 }
    let before : List (SubmissionId × HookCall) := [(4, .event (.beginMethod 1 "f" [])),
      (4, .event (.beginLoop 2)), (4, .event (.beginIteration 3)), (4, .object 5 "x" (.bool true))]
    let after : List (SubmissionId × HookCall) := [(4, .event (.endIteration 3)),
      (4, .event (.endLoop 2)), (9, .returned 6 (.bool false)), (4, .event (.change ⟨5, "x", ""⟩)),
      (4, .event (.endMethod 1)), (4, .event (.beginMethod 1 "g" [])), (4, .active)]
    let canceled := (h.hooks before).1.cancel 0
    h.current = some 0 ∧ (canceled.hooks after).2 = (after.map fun _ => .error .aborted) ∧
      ((canceled.hooks after).1.unwind 0).1.trace? 0 = some [(1, ⟨1, "f", [],
        [.loop ⟨2, [⟨3, [.stateChange ⟨5, "x", "true"⟩]⟩]⟩]⟩)] := by
  intro h before after canceled
  obtain ⟨hanswers, trace, hnow, hlater⟩ := cancel_freezes_trace h 0 _ rfl rfl before after
  exact ⟨rfl, hanswers, hlater.trans (hnow.symm.trans rfl)⟩

end Host

end LiveTrace
