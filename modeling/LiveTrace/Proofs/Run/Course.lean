import LiveTrace.Proofs.Run.Progress

/-
  What a run can do to the host that all runs share. A move is one thing a run does: something
  about files, the log or the run ids, a registration made or dropped, an event reported, the
  sink unwound. Every part of a run, up to the whole of it, is a course of moves
  (`start_course`, `advance_course`, `run_course`), and a part that ends in a panic met it in a
  report or in unwinding. So what all moves keep is kept by runs: everything about a submission
  but its sink (`Course.labels`).
-/
namespace LiveTrace

/-! ## Moves and courses -/

namespace Host

variable {σ : Type} [TraceSink σ]

/-- One thing that a run of the submission `k` does. -/
inductive Move (k : Key) (h : Host σ) : Host σ → Prop where
  /-- Something that has to do with no submission. -/
  | outside (f : Files) (log : List LogLine) (runs : Nat) :
    Move k h { h with files := f, log := log, runs := runs }
  | load : Move k h (h.load k)
  | drop (id : SubmissionId) : Move k h (h.drop id)
  | report (sid : SubmissionId) (e : Event) : Move k h (h.report sid e).1
  | unwind : Move k h (h.unwind k).1

/-- `h.Course k p h'`: moves of a run of `k` lead from `h` to `h'`, and `p` is the panic met on
the way, if there was one. -/
inductive Course (k : Key) (h : Host σ) : Option Panic → Host σ → Prop where
  | here : Course k h none h
  | move {p : Option Panic} {h₁ h₂ : Host σ} (hc : Course k h p h₁) (hm : h₁.Move k h₂) :
    Course k h p h₂
  | reportPanic {h₁ : Host σ} {sid : SubmissionId} {e : Event} {p : Panic}
    (hc : Course k h none h₁) (hp : (h₁.report sid e).2 = .error (.panicked p)) :
    Course k h (some p) (h₁.report sid e).1
  | unwindPanic {h₁ : Host σ} {p : Panic} (hc : Course k h none h₁)
    (hp : (h₁.unwind k).2 = .error p) : Course k h (some p) (h₁.unwind k).1

variable {k : Key} {h h₁ h₂ : Host σ} {p : Option Panic}

theorem Course.single (hm : h.Move k h₁) : h.Course k none h₁ := .move .here hm

theorem Course.trans (hc : h.Course k none h₁) (hd : h₁.Course k p h₂) : h.Course k p h₂ := by
  induction hd with
  | here => exact hc
  | move _ hm ih => exact .move ih hm
  | reportPanic _ hp ih => exact .reportPanic ih hp
  | unwindPanic _ hp ih => exact .unwindPanic ih hp

theorem Course.append (hc : h.Course k p h₁) (hd : h₁.Course k none h₂) : h.Course k p h₂ := by
  generalize hq : (none : Option Panic) = q at hd
  induction hd with
  | here => exact hc
  | move _ hm ih => exact .move (ih hq) hm
  | reportPanic => contradiction
  | unwindPanic => contradiction

theorem Course.outside (hc : h.Course k p h₁) (f : Files) (log : List LogLine) (runs : Nat) :
    h.Course k p { h₁ with files := f, log := log, runs := runs } := .move hc (.outside f log runs)

theorem Course.write (hc : h.Course k p h₁) (lines : List LogLine) :
    h.Course k p (h₁.write lines) := hc.outside h₁.files (h₁.log ++ lines) h₁.runs

end Host

/-! ## Parts of a run -/

section

variable {σ : Type} [TraceSink σ] (k : Key)

theorem Host.Reported.course {h h₁ : Host σ} {p : Option Panic} (hr : h.Reported p h₁) :
    h.Course k p h₁ := by
  induction hr with
  | here => exact .here
  | report _ sid e ih => exact ih.move (.report sid e)
  | panic _ hp ih => exact .reportPanic ih hp

theorem Stage.inWorkspace_course (s : Stage σ) (action : Workspace → Files → Staging) :
    s.host.Course k none (s.inWorkspace action).1.host := by
  rw [inWorkspace_stage]
  exact Host.Course.here.outside _ _ _

theorem Stage.Progress.course {s s₁ : Stage σ} {p : Option Panic} (hp : s.Progress p s₁) :
    s.host.Course k p s₁.host := by
  induction hp with
  | here => exact .here
  | code _ hr ih => exact ih.trans (hr.course k)
  | note _ lines ih => exact ih.write lines
  | copy _ source ih => exact ih.trans (inWorkspace_course k _ _)
  | unit _ bytes ih => exact ih.trans (inWorkspace_course k _ _)

/-! ## Whole runs -/

theorem Run.removeWorkspace_course (h : Host σ) (w : Workspace) :
    h.Course k none (Run.removeWorkspace h w) := Host.Course.here.outside _ _ _

theorem Run.noteOutcome_course (h : Host σ) (i : RunIdentity) (o : RunOutcome) :
    h.Course k none (Run.noteOutcome h i o) := by
  unfold Run.noteOutcome
  cases o.note? i.id with
  | none => exact .here
  | some text => exact Host.Course.here.write _

variable [Engine]

/-- The panic that a run ended in. -/
def RunState.panic? : RunState → Option Panic
  | panicked p => some p
  | _ => none

/-- A run that goes on is one of the submission `k`. -/
def RunState.IsOf (k : Key) : RunState → Prop
  | running r => r.identity.key = k
  | _ => True

namespace Run

theorem finish_course (h : Host σ) (i : RunIdentity) (w : Workspace) (o : RunOutcome) :
    h.Course i.key (finish h i w o).2.panic? (finish h i w o).1 := by
  have hremoved := removeWorkspace_course i.key h w
  unfold finish
  generalize removeWorkspace h w = h₁ at hremoved ⊢
  rcases hunwound : h₁.unwind i.key with ⟨h₂, p | _⟩
  · have hp : (h₁.unwind i.key).2 = .error p := by rw [hunwound]
    have hlast := Host.Course.unwindPanic hremoved hp
    rw [hunwound] at hlast
    exact hlast
  · have hlast := Host.Course.single (h := h₁) (k := i.key) .unwind
    rw [hunwound] at hlast
    exact (hremoved.trans hlast).trans (noteOutcome_course i.key h₂ i o)

theorem cutShort_course (h : Host σ) (w : Workspace) (p : Panic) :
    h.Course k none (cutShort h w p).1 := removeWorkspace_course k h w

theorem invoke_course (h : Host σ) (i : RunIdentity) (w : Workspace) (c : Stage.Compiled) :
    h.Course i.key (invoke h i w c).2.panic? (invoke h i w c).1 := by
  unfold invoke
  cases Engine.entry? c.core c.store c.unit Assembly.entryExport with
  | none => exact finish_course h i w _
  | some code => exact .single .load

/-- The panic that code ended in was met before. -/
theorem ended_course {h₁ : Host σ} {h : Host σ} (r : Running) (e : GuestEnd)
    (hc : h.Course r.identity.key e.panic? h₁) :
    h.Course r.identity.key (ended h₁ r e).2.panic? (ended h₁ r e).1 := by
  have hdropped : h₁.Course r.identity.key none (h₁.drop r.identity.id) := .single (.drop _)
  unfold ended
  cases e with
  | panicked p => exact hc.append (hdropped.trans (cutShort_course _ _ r.workspace p))
  | returned s => exact hc.trans (hdropped.trans (finish_course _ r.identity r.workspace _))
  | aborted => exact hc.trans (hdropped.trans (finish_course _ r.identity r.workspace _))
  | fault f => exact hc.trans (hdropped.trans (finish_course _ r.identity r.workspace _))

theorem advance_course (h : Host σ) (r : Running) :
    h.Course r.identity.key (advance h r).2.panic? (advance h r).1 := by
  have hguest := (Guest.advance_reported h r.code).course r.identity.key
  unfold advance
  generalize Guest.advance h r.code = after at hguest ⊢
  obtain ⟨h', code | e⟩ := after
  · exact hguest
  · exact ended_course r e hguest

theorem finish_isOf (h : Host σ) (i : RunIdentity) (w : Workspace) (o : RunOutcome) :
    (finish h i w o).2.IsOf k := by
  unfold finish
  obtain ⟨h', p | _⟩ := (removeWorkspace h w).unwind i.key <;> trivial

theorem invoke_isOf (h : Host σ) (i : RunIdentity) (w : Workspace) (c : Stage.Compiled) :
    (invoke h i w c).2.IsOf i.key := by
  unfold invoke
  cases Engine.entry? c.core c.store c.unit Assembly.entryExport with
  | none => exact finish_isOf i.key h i w _
  | some code => rfl

theorem advance_isOf (h : Host σ) (r : Running) : (advance h r).2.IsOf r.identity.key := by
  unfold advance
  obtain ⟨h', code | e⟩ := Guest.advance h r.code
  · rfl
  · unfold ended
    cases e with
    | panicked p => trivial
    | returned s => exact finish_isOf _ _ r.identity r.workspace _
    | aborted => exact finish_isOf _ _ r.identity r.workspace _
    | fault f => exact finish_isOf _ _ r.identity r.workspace _

theorem toEnd_running (fuel : Nat) (h : Host σ) (r : Running) :
    toEnd (fuel + 1) h (.running r) = toEnd fuel (advance h r).1 (advance h r).2 := by
  rw [toEnd]

theorem toEnd_course {h h₁ : Host σ} (fuel : Nat) {s : RunState} (hs : s.IsOf k)
    (hc : h.Course k s.panic? h₁) :
    h.Course k ((toEnd fuel h₁ s).2.bind (panicIn some)) (toEnd fuel h₁ s).1 := by
  induction fuel generalizing h₁ s with
  | zero => cases s <;> exact hc
  | succ fuel ih =>
    cases s with
    | done r => exact hc
    | panicked p => exact hc
    | running r =>
      obtain rfl : r.identity.key = k := hs
      rw [toEnd_running]
      exact ih (advance_isOf h₁ r) (hc.trans (advance_course h₁ r))

end Run

namespace Runner

variable {k}

theorem start_course (fuel : Nat) (r : Runner) {h : Host σ} {sub : Submission σ}
    (hsub : h.submission? k = some sub) :
    h.Course k ((r.start fuel h k).2.bind RunState.panic?) (r.start fuel h k).1 ∧
      ∀ s, (r.start fuel h k).2 = some s → s.IsOf k := by
  unfold start
  rw [hsub]
  dsimp only
  obtain ⟨f, e | w⟩ := Workspace.create r.config.workspaceRoot h.runs h.files
  · exact ⟨Host.Course.here.outside _ _ _, fun s hs => Option.some.inj hs ▸ trivial⟩
  · dsimp only
    have hfirst := (Host.Course.here (k := k) (h := h)).outside f h.log (h.runs + 1)
    replace hfirst := hfirst.write [⟨.debug, s!"Submission {sub.id} runs in {w.runId}"⟩]
    change Host.Course k h none (Host.debug _ _) at hfirst
    generalize Host.debug _ _ = begun at hfirst ⊢
    have hprepared := (Stage.prepare_progress fuel r.config ⟨begun, w⟩ sub).course k
    generalize Stage.prepare fuel r.config ⟨begun, w⟩ sub = prepared at hprepared ⊢
    obtain ⟨s, _ | (o | p) | c⟩ := prepared
    · exact ⟨hfirst.trans hprepared, by simp⟩
    · have hfinish := Run.finish_course s.host
        ⟨k, sub.id, w.runId, sub.createdAt, f.now⟩ s.workspace o
      have hof := Run.finish_isOf k s.host
        ⟨k, sub.id, w.runId, sub.createdAt, f.now⟩ s.workspace o
      dsimp only
      generalize Run.finish s.host _ s.workspace o = last at hfinish hof ⊢
      exact ⟨(hfirst.trans hprepared).trans hfinish, fun s hs => Option.some.inj hs ▸ hof⟩
    · exact ⟨hfirst.trans (hprepared.append (Run.cutShort_course k s.host s.workspace p)),
        fun s hs => Option.some.inj hs ▸ trivial⟩
    · have hinvoke := Run.invoke_course s.host
        ⟨k, sub.id, w.runId, sub.createdAt, f.now⟩ s.workspace c
      have hof := Run.invoke_isOf s.host
        ⟨k, sub.id, w.runId, sub.createdAt, f.now⟩ s.workspace c
      dsimp only
      generalize Run.invoke s.host _ s.workspace c = last at hinvoke hof ⊢
      exact ⟨(hfirst.trans hprepared).trans hinvoke, fun s hs => Option.some.inj hs ▸ hof⟩

theorem run_course (fuel : Nat) (r : Runner) {h : Host σ} {sub : Submission σ}
    (hsub : h.submission? k = some sub) :
    h.Course k ((r.run fuel h k).2.bind (panicIn some)) (r.run fuel h k).1 := by
  obtain ⟨hstarted, hof⟩ := start_course fuel r hsub
  unfold run
  generalize r.start fuel h k = started at hstarted hof ⊢
  obtain ⟨h', _ | s⟩ := started
  · exact hstarted
  · exact Run.toEnd_course k fuel (hof s rfl) hstarted

end Runner

end

/-! ## What every move keeps -/

section

variable {σ α : Type}

/-- A submission without its sink. -/
def Submission.label (s : Submission σ) : Submission Unit :=
  ⟨s.id, s.project, s.code, (), s.canceled, s.tag, s.createdAt⟩

namespace Host

/-- All submissions without their sinks. -/
def labels (h : Host σ) : List (Submission Unit) := h.submissions.map Submission.label

theorem labels_getElem? (h : Host σ) (k : Key) :
    h.labels[k]? = (h.submission? k).map Submission.label := List.getElem?_map ..

theorem isCanceled_eq (h : Host σ) (k : Key) :
    h.isCanceled k = ((h.labels[k]?).map (·.canceled)).getD false := by
  rw [labels_getElem?, Option.map_map]
  rfl

theorem exists_submission {h h' : Host σ} (hl : h'.labels = h.labels) {k : Key}
    {s : Submission σ} (hs : h.submission? k = some s) :
    ∃ s', h'.submission? k = some s' ∧ s'.label = s.label := by
  have hk : h'.labels[k]? = some s.label := by rw [hl, labels_getElem?, hs, Option.map_some]
  rw [labels_getElem?] at hk
  exact Option.map_eq_some_iff.mp hk

theorem withSink_labels (h : Host σ) (k : Key) (call : Bool → SinkCall σ α) :
    (h.withSink k call).1.labels = h.labels := by
  refine List.ext_getElem? fun j => ?_
  rw [labels_getElem?, labels_getElem?]
  cases hs : h.submission? j with
  | none =>
    unfold withSink
    split
    · rw [hs]
    · rw [submission?_write, submission?_update, hs, Option.map_none, ite_self]
  | some s =>
    rw [withSink_submission? h k call hs]
    split <;> rfl

variable [TraceSink σ]

theorem report_labels (h : Host σ) (sid : SubmissionId) (e : Event) :
    (h.report sid e).1.labels = h.labels := by
  cases hk : h.registered? sid with
  | none => rw [report_unregistered hk]
  | some k =>
    rw [report_registered hk]
    exact withSink_labels h k _

theorem Move.labels {k : Key} {h h' : Host σ} (hm : h.Move k h') : h'.labels = h.labels := by
  cases hm with
  | outside => rfl
  | load =>
    unfold Host.load
    dsimp only
    split <;> rfl
  | drop id =>
    unfold Host.drop
    split <;> rfl
  | report sid e => exact report_labels h sid e
  | unwind => exact withSink_labels h k _

theorem Course.labels {k : Key} {p : Option Panic} {h h' : Host σ} (hc : h.Course k p h') :
    h'.labels = h.labels := by
  induction hc with
  | here => rfl
  | move _ hm ih => exact hm.labels.trans ih
  | reportPanic _ _ ih => exact (report_labels _ _ _).trans ih
  | unwindPanic _ _ ih => exact (withSink_labels _ k _).trans ih

end Host

end

end LiveTrace
