import LiveTrace.Host.Report

/-
  The calls that instrumented code makes through the hooks, one after another, and what they
  leave alone: which submission is registered, and everything about a submission but its sink
  (`hook_current`, `hook_submission?`).
-/
namespace LiveTrace

/-- A call that instrumented code makes: it reports an event, hands a value through as the one
of a variable or as the one returned, or asks whether its submission is active. -/
inductive HookCall where
  | event (e : Event)
  | object (id : UInt32) (name : String) (value : LoggedValue)
  | returned (id : UInt32) (value : LoggedValue)
  | active

/-- The event that a call reports. -/
def HookCall.event? : HookCall → Option Event
  | event e => some e
  | object id name value => some (.change ⟨id, name, value.display⟩)
  | returned id value => some (.ret ⟨id, some value.display⟩)
  | active => none

/-- The value that a call hands back when it is not refused. -/
def HookCall.value? : HookCall → Option LoggedValue
  | object _ _ value => some value
  | returned _ value => some value
  | _ => none

namespace Host

variable {σ α : Type}

/-- Makes a call for the submission `sid`. The answer is the value handed back, if any. -/
def hook [TraceSink σ] (h : Host σ) (sid : SubmissionId) (c : HookCall) :
    Host σ × Except Stop (Option LoggedValue) :=
  match c with
  | .event e => ((h.report sid e).1, (h.report sid e).2.map fun _ => c.value?)
  | .object id name value =>
    ((h.reportChange sid id name value).1,
      (h.reportChange sid id name value).2.map fun _ => c.value?)
  | .returned id value =>
    ((h.reportReturn sid id value).1, (h.reportReturn sid id value).2.map fun _ => c.value?)
  | .active => (h, if h.isActive sid then .ok c.value? else .error .aborted)

/-- Makes calls one after another, whatever the answers. -/
def hooks [TraceSink σ] (h : Host σ) :
    List (SubmissionId × HookCall) → Host σ × List (Except Stop (Option LoggedValue))
  | [] => (h, [])
  | (sid, c) :: calls =>
    let (h, answer) := h.hook sid c
    let (h, answers) := hooks h calls
    (h, answer :: answers)

/-- The trace of a submission. -/
def trace? [TraceSink σ] (h : Host σ) (k : Key) : Option Roots :=
  (h.submission? k).map fun s => TraceSink.roots s.sink

/-! ## One submission among all -/

theorem submission?_update (h : Host σ) (k : Key) (f : Submission σ → Submission σ) (j : Key) :
    (h.update k f).submission? j =
      if k = j then (h.submission? j).map f else h.submission? j := by
  unfold submission? update
  rw [List.getElem?_modify]
  split
  · rfl
  · exact Option.map_id'

theorem submission?_write (h : Host σ) (lines : List LogLine) (k : Key) :
    (h.write lines).submission? k = h.submission? k := rfl

theorem withSink_of_submission? {h : Host σ} {k : Key} {s : Submission σ}
    (hs : h.submission? k = some s) (call : Bool → SinkCall σ α) :
    h.withSink k call =
      ((h.update k fun s' => { s' with sink := (call s.canceled s.sink).sink }).write
        (call s.canceled s.sink).log, (call s.canceled s.sink).result) := by
  unfold withSink
  rw [hs]

theorem withSink_current (h : Host σ) (k : Key) (call : Bool → SinkCall σ α) :
    (h.withSink k call).1.current = h.current := by
  unfold withSink
  split <;> rfl

/-- A call to the sink of one submission changes no more than that sink. -/
theorem withSink_submission? (h : Host σ) (k : Key) (call : Bool → SinkCall σ α) {j : Key}
    {s : Submission σ} (hs : h.submission? j = some s) :
    (h.withSink k call).1.submission? j =
      some (if k = j then { s with sink := (call s.canceled s.sink).sink } else s) := by
  by_cases hk : k = j
  · subst hk
    rw [withSink_of_submission? hs, submission?_write, submission?_update, if_pos rfl, hs,
      if_pos rfl]
    rfl
  · rw [if_neg hk]
    unfold withSink
    split
    · exact hs
    · rw [submission?_write, submission?_update, if_neg hk, hs]

theorem withSink_outside (h : Host σ) (k : Key) (call : Bool → SinkCall σ α) :
    (h.withSink k call).1.files = h.files ∧ (h.withSink k call).1.runs = h.runs := by
  unfold withSink
  split <;> exact ⟨rfl, rfl⟩

theorem withSink_others (h : Host σ) {k j : Key} (hk : k ≠ j) (call : Bool → SinkCall σ α) :
    (h.withSink k call).1.submission? j = h.submission? j := by
  unfold withSink
  split
  · rfl
  · rw [submission?_write, submission?_update, if_neg hk]

theorem idOf?_update (h : Host σ) (k : Key) {f : Submission σ → Submission σ}
    (hf : ∀ s, (f s).id = s.id) : (h.update k f).idOf? = h.idOf? := by
  funext j
  unfold idOf?
  rw [submission?_update]
  split
  · rw [Option.map_map]
    exact congrArg (fun g => (h.submission? j).map g) (funext hf)
  · rfl

theorem idOf?_withSink (h : Host σ) (k : Key) (call : Bool → SinkCall σ α) :
    (h.withSink k call).1.idOf? = h.idOf? := by
  unfold withSink
  split
  · rfl
  · exact idOf?_update h k fun _ => rfl

theorem exists_submission?_of_idOf? {h h' : Host σ} (hid : h'.idOf? = h.idOf?) {k : Key}
    {s : Submission σ} (hs : h.submission? k = some s) : ∃ s', h'.submission? k = some s' := by
  have hk : h.idOf? k = some s.id := by
    unfold idOf?
    rw [hs]
    rfl
  rw [← hid] at hk
  obtain ⟨s', hs', -⟩ := Option.map_eq_some_iff.mp hk
  exact ⟨s', hs'⟩

/-! ## Registrations -/

theorem load_host (h : Host σ) (k : Key) :
    ∃ lines, h.load k = ({ h with current := some k } : Host σ).write lines := by
  unfold load
  dsimp only
  split
  · exact ⟨_, rfl⟩
  · exact ⟨[], by simp [write]⟩

theorem current_load (h : Host σ) (k : Key) : (h.load k).current = some k := by
  obtain ⟨lines, hload⟩ := h.load_host k
  rw [hload]
  rfl

theorem drop_host (h : Host σ) (id : SubmissionId) : ∃ current, h.drop id = { h with current } := by
  unfold drop
  split
  · exact ⟨none, rfl⟩
  · exact ⟨h.current, rfl⟩

/-! ## Calls through the registered submission -/

variable [TraceSink σ]

theorem report_unregistered {h : Host σ} {sid : SubmissionId} (hk : h.registered? sid = none)
    (e : Event) : h.report sid e = (h, .error .aborted) := by
  unfold report
  rw [hk]

theorem report_registered {h : Host σ} {sid : SubmissionId} {k : Key}
    (hk : h.registered? sid = some k) (e : Event) :
    h.report sid e = ((h.withSink k (e.offer ·)).1,
      match (h.withSink k (e.offer ·)).2 with
      | .ok true => .ok ()
      | .ok false => .error .aborted
      | .error p => .error (.panicked p)) := by
  unfold report
  rw [hk]
  dsimp only
  obtain ⟨h', result⟩ := h.withSink k (e.offer ·)
  cases result with
  | error p => rfl
  | ok goesOn => cases goesOn <;> rfl

theorem report_current (h : Host σ) (sid : SubmissionId) (e : Event) :
    (h.report sid e).1.current = h.current := by
  cases hk : h.registered? sid with
  | none => rw [report_unregistered hk]
  | some k =>
    rw [report_registered hk]
    exact withSink_current h k _

theorem idOf?_report (h : Host σ) (sid : SubmissionId) (e : Event) :
    (h.report sid e).1.idOf? = h.idOf? := by
  cases hk : h.registered? sid with
  | none => rw [report_unregistered hk]
  | some k =>
    rw [report_registered hk]
    exact idOf?_withSink h k _

/-- An event goes to the registered submission and to no other one. -/
theorem report_others (h : Host σ) (sid : SubmissionId) (e : Event) {j : Key}
    (hj : h.current ≠ some j) : (h.report sid e).1.submission? j = h.submission? j := by
  cases hk : h.registered? sid with
  | none => rw [report_unregistered hk]
  | some k =>
    have hne : k ≠ j := fun heq => hj (heq ▸ (Option.filter_eq_some_iff.mp hk).1)
    rw [report_registered hk]
    exact withSink_others h hne _

theorem hook_event {c : HookCall} {e : Event} (hc : c.event? = some e) (h : Host σ)
    (sid : SubmissionId) :
    h.hook sid c = ((h.report sid e).1, (h.report sid e).2.map fun _ => c.value?) := by
  cases c with
  | event e' => exact Option.some.inj hc ▸ rfl
  | object id name value => exact Option.some.inj hc ▸ rfl
  | returned id value => exact Option.some.inj hc ▸ rfl
  | active => contradiction

theorem hook_current (h : Host σ) (sid : SubmissionId) (c : HookCall) :
    (h.hook sid c).1.current = h.current := by
  cases hc : c.event? with
  | none => cases c <;> first | rfl | contradiction
  | some e =>
    rw [hook_event hc]
    exact report_current h sid e

theorem idOf?_hook (h : Host σ) (sid : SubmissionId) (c : HookCall) :
    (h.hook sid c).1.idOf? = h.idOf? := by
  cases hc : c.event? with
  | none => cases c <;> first | rfl | contradiction
  | some e =>
    rw [hook_event hc]
    exact idOf?_report h sid e

/-- A call changes no more than the sink of the registered submission. -/
theorem hook_others (h : Host σ) (sid : SubmissionId) (c : HookCall) {j : Key}
    (hj : h.current ≠ some j) : (h.hook sid c).1.submission? j = h.submission? j := by
  cases hc : c.event? with
  | none => cases c <;> first | rfl | contradiction
  | some e =>
    rw [hook_event hc]
    exact report_others h sid e hj

/-- A call changes no more of a submission than its sink. -/
theorem hook_submission? (h : Host σ) (sid : SubmissionId) (c : HookCall) {j : Key}
    {s : Submission σ} (hs : h.submission? j = some s) :
    ∃ sink, (h.hook sid c).1.submission? j = some { s with sink } := by
  cases hc : c.event? with
  | none => cases c <;> first | exact ⟨s.sink, hs⟩ | contradiction
  | some e =>
    rw [hook_event hc]
    cases hk : h.registered? sid with
    | none =>
      rw [report_unregistered hk]
      exact ⟨s.sink, hs⟩
    | some k =>
      rw [report_registered hk, withSink_submission? h k _ hs]
      split
      · exact ⟨_, rfl⟩
      · exact ⟨s.sink, rfl⟩

theorem hooks_cons (h : Host σ) (sid : SubmissionId) (c : HookCall)
    (calls : List (SubmissionId × HookCall)) :
    h.hooks ((sid, c) :: calls) = (((h.hook sid c).1.hooks calls).1,
      (h.hook sid c).2 :: ((h.hook sid c).1.hooks calls).2) := rfl

theorem hooks_current (h : Host σ) (calls : List (SubmissionId × HookCall)) :
    (h.hooks calls).1.current = h.current := by
  induction calls generalizing h with
  | nil => rfl
  | cons call calls ih =>
    obtain ⟨sid, c⟩ := call
    rw [hooks_cons, ih, hook_current]

theorem hooks_submission? (h : Host σ) (calls : List (SubmissionId × HookCall)) {j : Key}
    {s : Submission σ} (hs : h.submission? j = some s) :
    ∃ sink, (h.hooks calls).1.submission? j = some { s with sink } := by
  induction calls generalizing h s with
  | nil => exact ⟨s.sink, hs⟩
  | cons call calls ih =>
    obtain ⟨sid, c⟩ := call
    obtain ⟨sink, hsink⟩ := hook_submission? h sid c hs
    obtain ⟨later, hlater⟩ := ih _ hsink
    exact ⟨later, hlater⟩

end Host

end LiveTrace
