import LiveTrace.Proofs.Run.Ending
import LiveTrace.Proofs.Run.Twin
import LiveTrace.Proofs.Wasm.Reports

/-
  What a run does after its submission was canceled. A run that is told to stop ends there: its
  registration is dropped, its directory removed, and its sink unwound, which takes nothing in
  (`finish_isClosed`). So of all the events of a run, a monitor with the limit `n` gets the first
  `n` and then two ends at most, and its trace is that of the first `n` (`run_cancelAfter`).
-/
namespace LiveTrace

/-- A run that does not go on. -/
def RunState.IsOver [Engine] : RunState → Prop
  | running _ => False
  | done _ | panicked _ => True

/-! ## The end of a run -/

section

variable {h g : Host Monitor} {k : Key} {n : Nat} {start : List Event}

/-- The monitor of a submission was cut off behind some events, and everything in it is closed. -/
structure Host.IsClosed (h : Host Monitor) (k : Key) (start : List Event) : Prop where
  cutOff : h.IsCutOff k start
  trace : h.trace? k = some (Recorder.play {} start).1.unwind.1.roots

theorem Host.events?_unwind (he : h.events? k = some start) (j : Key) :
    (h.unwind j).1.events? k = some start := by
  obtain ⟨s, hs, rfl⟩ := Option.map_eq_some_iff.mp he
  unfold Host.unwind events?
  rw [withSink_submission? h j _ hs]
  split <;> rfl

/-- What is open when a monitor was cut off is closed by unwinding. -/
theorem Host.IsCutOff.unwind (hg : g.IsCutOff k start) : (g.unwind k).1.IsClosed k start := by
  obtain ⟨s, hs, htaken, hfinished⟩ := hg
  have hafter := withSink_submission? g k (fun _ => TraceSink.unwind) hs
  rw [if_pos rfl] at hafter
  have hroots : s.sink.recorder.unwind.1 = ⟨(Recorder.play {} start).1.finished, []⟩ := by
    rw [Recorder.unwind_eq, hfinished]
  refine ⟨⟨_, hafter, htaken, ?_⟩, ?_⟩
  · change s.sink.recorder.unwind.1.finished = _
    rw [hroots]
    rfl
  · unfold Host.unwind trace?
    rw [hafter, Recorder.unwind_eq]
    exact congrArg (fun r : Recorder => some r.roots) hroots

namespace Run

variable [Engine]

theorem finish_isOver (h : Host Monitor) (i : RunIdentity) (w : Workspace) (o : RunOutcome) :
    (finish h i w o).2.IsOver := by
  unfold finish
  obtain ⟨h', p | _⟩ := (removeWorkspace h w).unwind i.key <;> trivial

theorem finish_events? (he : h.events? k = some start) (i : RunIdentity) (w : Workspace)
    (o : RunOutcome) : (finish h i w o).1.events? k = some start := by
  unfold Host.events?
  rw [finish_submission?]
  exact Host.events?_unwind (h := removeWorkspace h w) he i.key

theorem finish_isClosed (hg : g.IsCutOff k start) {i : RunIdentity} (hi : i.key = k)
    (w : Workspace) (o : RunOutcome) : (finish g i w o).1.IsClosed k start := by
  subst hi
  obtain ⟨⟨s, hs, hoff⟩, htrace⟩ := Host.IsCutOff.unwind (g := removeWorkspace g w) hg
  refine ⟨⟨s, ?_, hoff⟩, ?_⟩
  · rw [finish_submission?]
    exact hs
  · unfold Host.trace?
    rw [finish_submission?]
    exact htrace

end Run

end

/-! ## Two runs -/

namespace Host

variable {h : Host Monitor} {k : Key} {n : Nat}

/-- The host in which another monitor watches a submission. -/
def watchedBy (h : Host Monitor) (k : Key) (m : Monitor) : Host Monitor :=
  h.update k fun s => { s with sink := m }

theorem watchedBy_submission? {s : Submission Monitor} (hs : h.submission? k = some s)
    (m : Monitor) : (h.watchedBy k m).submission? k = some { s with sink := m } := by
  unfold watchedBy
  rw [submission?_update, if_pos rfl, hs]
  rfl

theorem watchedBy_limit (h : Host Monitor) (k : Key) (n : Nat) (m : Monitor) :
    (h.watchedBy k m).limit k n = h.watchedBy k (m.limited n) := by
  unfold watchedBy limit update
  dsimp only
  rw [List.modify_modify_eq]
  rfl

/-- With the limit `n`, a monitor that took no more is as if cut off behind what it took. -/
theorem Counting.isCutOff (hc : h.Counting k n) :
    ∃ start, start.length ≤ n ∧ h.events? k = some start ∧ (h.limit k n).IsCutOff k start := by
  obtain ⟨s, hs, -, hm⟩ := hc.counted
  refine ⟨s.sink.events, hm.room, by rw [events?, hs]; rfl, { s with sink := s.sink.limited n },
    ?_, ?_⟩
  · rw [limit_submission?, if_pos rfl, hs]
    rfl
  · have hnone : ∀ e ∈ ([] : List Event), e.isEnd = true := List.forall_mem_nil _
    exact .of_played [] (List.append_nil _).symm (Nat.zero_le 2) hnone hm.played

/-- A monitor that took nothing has nothing open. -/
theorem Counting.isClosed (hc : h.Counting k n) (hunheard : h.events? k = some []) :
    (h.limit k n).IsClosed k [] := by
  obtain ⟨s, hs, -, hm⟩ := hc.counted
  have hevents : s.sink.events = [] := by
    rw [events?, hs] at hunheard
    exact Option.some.inj hunheard
  obtain ⟨start, -, hstart, hoff⟩ := hc.isCutOff
  obtain rfl : [] = start := Option.some.inj (hunheard.symm.trans hstart)
  refine ⟨hoff, ?_⟩
  unfold trace?
  rw [limit_submission?, if_pos rfl, hs]
  have hfresh := hm.played
  rw [hevents] at hfresh
  exact congrArg (fun r : Recorder => some r.roots) hfresh

theorem Counting.load (hc : h.Counting k n) :
    (h.load k).Counting k n ∧ (h.limit k n).load k = (h.load k).limit k n := by
  unfold Host.load
  rw [limit_idOf?, currentId?_limit]
  dsimp only
  split <;> exact ⟨⟨hc.counted, .inl rfl⟩, rfl⟩

theorem Counting.drop (hc : h.Counting k n) (id : SubmissionId) :
    (h.drop id).Counting k n ∧ (h.limit k n).drop id = (h.drop id).limit k n := by
  unfold Host.drop
  rw [currentId?_limit]
  split
  · exact ⟨⟨hc.counted, .inr (.inl rfl)⟩, rfl⟩
  · exact ⟨hc, rfl⟩

end Host

namespace Run

variable [Engine]

/-- Two runs of a submission, one with the limit `n`. Both go on alike, or the one with the limit
is over: it took the events `start`, and the other one took these and goes on, or is over too. -/
inductive Twin (k : Key) (n : Nat) :
    Host Monitor × Option RunState → Host Monitor × Option RunState → Prop where
  | starting {h : Host Monitor} (hc : h.Counting k n) : Twin k n (h, none) (h.limit k n, none)
  | running {h : Host Monitor} {r : Running} (hc : h.Counting k n) (hk : r.identity.key = k) :
    Twin k n (h, some (.running r)) (h.limit k n, some (.running r))
  | stopped {h g : Host Monitor} {a : Option RunState} {b : RunState} {start : List Event}
    (hn : start.length = n) (ht : h.HasTaken k start) (hb : b.IsOver) (hg : g.IsClosed k start) :
    Twin k n (h, a) (g, some b)
  | ended {h g : Host Monitor} {a b : RunState} {start : List Event} (hn : start.length ≤ n)
    (ha : a.IsOver) (he : h.events? k = some start) (hb : b.IsOver) (hg : g.IsClosed k start) :
    Twin k n (h, some a) (g, some b)

section

variable {h g : Host Monitor} {k : Key} {n : Nat} {start : List Event}

theorem finish_twin (hc : h.Counting k n) {i : RunIdentity} (hi : i.key = k) (w : Workspace)
    (o : RunOutcome) : Twin k n ((finish h i w o).1, some (finish h i w o).2)
      ((finish (h.limit k n) i w o).1, some (finish (h.limit k n) i w o).2) := by
  obtain ⟨start, hn, he, hoff⟩ := hc.isCutOff
  exact .ended hn (finish_isOver h i w o) (finish_events? he i w o) (finish_isOver _ i w o)
    (finish_isClosed hoff hi w o)

/-- Where the two parted, the one with the limit finishes, whatever the other one does. -/
theorem finish_parted (hp : Host.Parted k n h g) {i : RunIdentity} (hi : i.key = k)
    (w : Workspace) (o : RunOutcome) (a : Option RunState) :
    Twin k n (h, a) ((finish g i w o).1, some (finish g i w o).2) := by
  obtain ⟨start, hn, ht, hoff⟩ := hp
  exact .stopped hn ht (finish_isOver g i w o) (finish_isClosed hoff hi w o)

theorem cutShort_twin (hc : h.Counting k n) (hunheard : h.events? k = some []) (w : Workspace)
    (p : Panic) : Twin k n ((cutShort h w p).1, some (cutShort h w p).2)
      ((cutShort (h.limit k n) w p).1, some (cutShort (h.limit k n) w p).2) := by
  have hclosed := hc.isClosed hunheard
  have hn : ([] : List Event).length ≤ n := Nat.zero_le n
  exact .ended hn trivial hunheard trivial ⟨hclosed.cutOff, hclosed.trace⟩

theorem hasTaken_ended (ht : h.HasTaken k start) (r : Running) (e : GuestEnd) :
    (ended h r e).1.HasTaken k start := by
  have hdropped := ht.move (j := r.identity.key) (.drop r.identity.id)
  unfold ended
  cases e with
  | panicked p => exact hdropped.course (cutShort_course k _ r.workspace p)
  | returned s => exact hdropped.course (finish_course _ r.identity r.workspace _)
  | aborted => exact hdropped.course (finish_course _ r.identity r.workspace _)
  | fault f => exact hdropped.course (finish_course _ r.identity r.workspace _)

theorem invoke_twin (hc : h.Counting k n) {i : RunIdentity} (hi : i.key = k) (w : Workspace)
    (c : Stage.Compiled) : Twin k n ((invoke h i w c).1, some (invoke h i w c).2)
      ((invoke (h.limit k n) i w c).1, some (invoke (h.limit k n) i w c).2) := by
  unfold invoke
  cases Engine.entry? c.core c.store c.unit Assembly.entryExport with
  | none => exact finish_twin hc hi w _
  | some code =>
    obtain ⟨hloaded, hsame⟩ := hc.load
    subst hi
    dsimp only
    rw [hsame]
    exact .running hloaded rfl

theorem ended_twin (hc : h.Counting k n) {r : Running} (hk : r.identity.key = k) {e : GuestEnd}
    (hp : ∀ p, e.panic? = some p → h.events? k = some []) :
    Twin k n ((ended h r e).1, some (ended h r e).2)
      ((ended (h.limit k n) r e).1, some (ended (h.limit k n) r e).2) := by
  obtain ⟨hdropped, hsame⟩ := hc.drop r.identity.id
  unfold ended
  rw [hsame]
  cases e with
  | panicked p =>
    refine cutShort_twin hdropped ?_ r.workspace p
    unfold Host.drop
    split <;> exact hp p rfl
  | returned s => exact finish_twin hdropped hk r.workspace _
  | aborted => exact finish_twin hdropped hk r.workspace _
  | fault f => exact finish_twin hdropped hk r.workspace _

theorem advance_twin (hc : h.Counting k n) {r : Running} (hk : r.identity.key = k) :
    Twin k n ((advance h r).1, some (advance h r).2)
      ((advance (h.limit k n) r).1, some (advance (h.limit k n) r).2) := by
  have hguest := Guest.advance_twin hc r.code
  unfold advance
  generalize Guest.advance h r.code = x at hguest ⊢
  generalize Guest.advance (h.limit k n) r.code = y at hguest ⊢
  cases hguest with
  | @together h' a hc' hp =>
    cases a with
    | running c => exact .running hc' hk
    | ended e => exact ended_twin hc' hk hp
  | @parted h' g' a b hp hs =>
    rw [hs]
    -- The run that is told to stop drops its registration and finishes.
    obtain ⟨start, hn, ht, hoff⟩ := hp
    have hdropped : (g'.drop r.identity.id).IsCutOff k start := by
      unfold Host.drop
      split <;> exact hoff
    cases a with
    | running c => exact finish_parted ⟨start, hn, ht, hdropped⟩ hk r.workspace .aborted _
    | ended e =>
      exact finish_parted ⟨start, hn, hasTaken_ended ht r e, hdropped⟩ hk r.workspace .aborted _

/-- Two runs that got as far as `fuel` lets them: the one with the limit is over if the other one
is, and its monitor was cut off behind the first `n` events of the other one. -/
structure Shortened (k : Key) (n : Nat) (x y : Host Monitor × Option (Except Panic RunResult)) :
    Prop where
  ends : x.2.isSome = true → y.2.isSome = true
  taken : ∃ events, x.1.events? k = some events ∧ y.1.IsCutOff k (events.take n) ∧
    (y.2.isSome = true → y.1.IsClosed k (events.take n))

/-- `toEnd` for a run that may not have come to its code. -/
def rest (fuel : Nat) (x : Host Monitor × Option RunState) :
    Host Monitor × Option (Except Panic RunResult) :=
  match x with
  | (h, none) => (h, none)
  | (h, some s) => toEnd fuel h s

theorem toEnd_isOver (fuel : Nat) (h : Host Monitor) {s : RunState} (hs : s.IsOver) :
    ∃ result, toEnd fuel h s = (h, some result) := by
  cases s with
  | running r => exact hs.elim
  | done r => exact ⟨.ok r, by cases fuel <;> rfl⟩
  | panicked p => exact ⟨.error p, by cases fuel <;> rfl⟩

theorem hasTaken_toEnd (fuel : Nat) (ht : h.HasTaken k start) (s : RunState) :
    (toEnd fuel h s).1.HasTaken k start := by
  induction fuel generalizing h s with
  | zero => cases s <;> exact ht
  | succ fuel ih =>
    cases s with
    | done r => exact ht
    | panicked p => exact ht
    | running r =>
      rw [toEnd_running]
      exact ih (ht.course (advance_course h r)) _

theorem hasTaken_rest (fuel : Nat) (ht : h.HasTaken k start) (a : Option RunState) :
    (rest fuel (h, a)).1.HasTaken k start := by
  cases a with
  | none => exact ht
  | some s => exact hasTaken_toEnd fuel ht s

omit [Engine] in
theorem shortened_unfinished (hc : h.Counting k n) :
    Shortened k n (h, none) (h.limit k n, none) := by
  obtain ⟨start, hn, he, hoff⟩ := hc.isCutOff
  rw [← List.take_of_length_le hn] at hoff
  exact ⟨nofun, start, he, hoff, nofun⟩

theorem Twin.shortened {x y : Host Monitor × Option RunState} (hxy : Twin k n x y) (fuel : Nat) :
    Shortened k n (rest fuel x) (rest fuel y) := by
  cases hxy with
  | starting hc => exact shortened_unfinished hc
  | running hc hk =>
    cases fuel with
    | zero => exact shortened_unfinished hc
    | succ fuel =>
      unfold rest
      dsimp only
      rw [toEnd_running, toEnd_running]
      exact (advance_twin hc hk).shortened fuel
  | @stopped h g a b start hn ht hb hg =>
    obtain ⟨result, hresult⟩ := toEnd_isOver fuel g hb
    obtain ⟨events, he, hprefix⟩ := hasTaken_rest fuel ht a
    have htake : events.take n = start := by
      rw [← hn]
      exact (List.prefix_iff_eq_take.mp hprefix).symm
    change Shortened k n _ (toEnd fuel g b)
    rw [hresult]
    exact ⟨fun _ => rfl, events, he, htake ▸ hg.cutOff, fun _ => htake ▸ hg⟩
  | @ended h g a b start hn ha he hb hg =>
    obtain ⟨result, hresult⟩ := toEnd_isOver fuel g hb
    obtain ⟨whole, hwhole⟩ := toEnd_isOver fuel h ha
    have htake : start.take n = start := List.take_of_length_le hn
    change Shortened k n (toEnd fuel h a) (toEnd fuel g b)
    rw [hresult, hwhole]
    refine ⟨fun _ => rfl, start, he, ?_, fun _ => ?_⟩ <;> rw [htake]
    · exact hg.cutOff
    · exact hg
termination_by fuel

end

end Run

namespace Runner

open Run (Twin)

section

variable [Engine] {h : Host Monitor} {k : Key} {n : Nat}

theorem start_twin (fuel : Nat) (r : Runner) (hc : h.Counting k n)
    (hfresh : h.events? k = some []) :
    Twin k n (r.start fuel h k) (r.start fuel (h.limit k n) k) := by
  obtain ⟨s, hs, -⟩ := hc.counted
  unfold start
  rw [Host.limit_submission?, if_pos rfl, hs]
  dsimp only [Option.map_some]
  rw [show (h.limit k n).files = h.files from rfl, show (h.limit k n).runs = h.runs from rfl]
  obtain ⟨f, e | w⟩ := Workspace.create r.config.workspaceRoot h.runs h.files
  · have hclosed := hc.isClosed hfresh
    have hn : ([] : List Event).length ≤ n := Nat.zero_le n
    exact .ended hn trivial hfresh trivial ⟨hclosed.cutOff, hclosed.trace⟩
  · dsimp only
    have hbegun : (Host.debug { h with files := f, runs := h.runs + 1 }
        s!"Submission {s.id} runs in {w.runId}").Counting k n := ⟨hc.counted, hc.reach⟩
    rw [show Host.debug { h.limit k n with files := f, runs := h.runs + 1 } _ =
      (Host.debug { h with files := f, runs := h.runs + 1 } _).limit k n from rfl]
    generalize Host.debug _ _ = begun at hbegun ⊢
    have hprepared := Stage.prepare_twin fuel hbegun w r.config
      (show Submission.label { s with sink := s.sink.limited n } = s.label from rfl)
    generalize Stage.prepare fuel r.config ⟨begun, w⟩ s = x at hprepared ⊢
    generalize Stage.prepare fuel r.config ⟨begun.limit k n, w⟩ _ = y at hprepared ⊢
    cases hprepared with
    | @together h' w' a hc' hp =>
      obtain _ | (o | p) | c := a
      · exact .starting hc'
      · exact Run.finish_twin hc' rfl w' o
      · exact Run.cutShort_twin hc' (hp p rfl) w' p
      · exact Run.invoke_twin hc' rfl w' c
    | @parted x y a b hp hs =>
      obtain ⟨o, rfl⟩ := hs
      obtain _ | (o' | p) | c := a
      · exact Run.finish_parted hp rfl y.workspace o _
      · exact Run.finish_parted (hp.course (Run.finish_course x.host _ x.workspace o')) rfl _ o _
      · exact Run.finish_parted (hp.course (Run.cutShort_course k x.host x.workspace p)) rfl _ o _
      · exact Run.finish_parted (hp.course (Run.invoke_course x.host _ x.workspace c)) rfl _ o _

theorem run_eq_rest (fuel : Nat) (r : Runner) (h : Host Monitor) (k : Key) :
    r.run fuel h k = Run.rest fuel (r.start fuel h k) := by
  unfold run Run.rest
  cases r.start fuel h k with
  | mk h' a => cases a <;> rfl

/-- After cancellation a run does no more than close what is open. A monitor that reports
cancellation once it took `n` events gets the first `n` of the events that the same run has when
nothing cancels it, and after them two ends at most. If that run comes to an end, this one does,
and its trace is then that of those first events. -/
theorem run_cancelAfter (fuel : Nat) (r : Runner) (h : Host Monitor) (k : Key)
    (s : Submission Monitor) (hs : h.submission? k = some s) (hc : s.canceled = false) (n : Nat) :
    let free := r.run fuel (h.watchedBy k { keeps := true }) k
    let cut := r.run fuel (h.watchedBy k { keeps := true, cancelAfter := some n }) k
    (free.2.isSome = true → cut.2.isSome = true) ∧
      ∃ events extra, free.1.events? k = some events ∧
        cut.1.events? k = some (events.take n ++ extra) ∧
        extra.length ≤ 2 ∧ (∀ e ∈ extra, e.isEnd = true) ∧
        (cut.2.isSome = true →
          cut.1.trace? k = some (Recorder.play {} (events.take n)).1.unwind.1.roots) := by
  intro free cut
  have hwatched := Host.watchedBy_submission? hs { keeps := true }
  have hfresh : (h.watchedBy k { keeps := true }).events? k = some [] := by
    rw [Host.events?, hwatched]
    rfl
  have hcounting : (h.watchedBy k { keeps := true }).Counting k n :=
    ⟨⟨_, hwatched, hc, rfl, rfl, rfl, rfl, Nat.zero_le n, rfl⟩, .inr (.inr hfresh)⟩
  have hshort := (start_twin fuel r hcounting hfresh).shortened fuel
  rw [Host.watchedBy_limit, ← run_eq_rest, ← run_eq_rest] at hshort
  obtain ⟨hcomes, events, he, ⟨s', hs', hoff⟩, hclosed⟩ := hshort
  obtain ⟨extra, hextra, hlength, hends⟩ := hoff.taken
  have htaken : cut.1.events? k = some (events.take n ++ extra) := by
    rw [← hextra]
    exact congrArg (Option.map (·.sink.events)) hs'
  exact ⟨hcomes, events, extra, he, htaken, hlength, hends, fun hsome => (hclosed hsome).trace⟩

end

/-- A method that passes through a loop three times, cut off after four events, which is at the end
of the first pass. The pass and the loop are closed by the guest, and the method is when the sink
is unwound. -/
theorem run_cancelAfter_in_loop :
    let reports := Wasm.Report.passes 3
    let _ := Wasm.Report.engine reports
    let h : Host Monitor := {
      files := { entries := [(["runs"], .dir 0)] }
      submissions := [Wasm.Report.submission reports {}] }
    let r : Runner := ⟨{ workspaceRoot := "/runs" }⟩
    let method (n : Nat) : MethodCall :=
      ⟨7, "f", [], [.loop ⟨1, List.replicate n ⟨1, [.returnValue ⟨2, some "5"⟩]⟩⟩]⟩
    ∃ free cut x y,
      r.run 100 (h.watchedBy 0 { keeps := true }) 0 = (free, some (.ok x)) ∧
      x.outcome = .completed ∧ free.events? 0 = some (method 3).events ∧
      r.run 100 (h.watchedBy 0 { keeps := true, cancelAfter := some 4 }) 0 =
        (cut, some (.ok y)) ∧
      y.outcome = .aborted ∧
      cut.events? 0 = some ((method 3).events.take 4 ++ [.endIteration 1, .endLoop 1]) ∧
      cut.trace? 0 = some [(7, method 1)] := by
  intro reports _ h r method
  have hfree : (r.run 100 (h.watchedBy 0 { keeps := true }) 0).2.map (·.map (·.outcome)) =
        some (.ok .completed) ∧
      (r.run 100 (h.watchedBy 0 { keeps := true }) 0).1.events? 0 = some (method 3).events := by
    decide +kernel
  have hcut : (r.run 100 (h.watchedBy 0 { keeps := true, cancelAfter := some 4 }) 0).2.map
        (·.map (·.outcome)) = some (.ok .aborted) ∧
      (r.run 100 (h.watchedBy 0 { keeps := true, cancelAfter := some 4 }) 0).1.events? 0 =
        some ((method 3).events.take 4 ++ [.endIteration 1, .endLoop 1]) := by
    decide +kernel
  have hshort := (run_cancelAfter 100 r h 0 _ rfl rfl 4).2
  obtain ⟨free, x, hx, hcompleted⟩ := exists_of_outcome hfree.1
  obtain ⟨cut, y, hy, haborted⟩ := exists_of_outcome hcut.1
  rw [hx] at hfree hshort ⊢
  rw [hy] at hcut hshort ⊢
  obtain ⟨events, extra, hevents, -, -, -, htrace⟩ := hshort
  obtain rfl := Option.some.inj (hevents.symm.trans hfree.2)
  exact ⟨free, cut, x, y, rfl, hcompleted, hfree.2, rfl, haborted, hcut.2, htrace rfl⟩

end Runner

end LiveTrace
