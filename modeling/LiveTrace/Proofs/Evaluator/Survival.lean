import LiveTrace.Proofs.Evaluator.Notices
import LiveTrace.Proofs.Evaluator.Runs
import LiveTrace.Proofs.Evaluator.Wakeup
import LiveTrace.Proofs.Run.Panics
import LiveTrace.Wasm.Engine

/-
  How a worker gets over runs that panic. The guard is around the run alone: after a panic the
  worker unwinds the sink itself, where nobody catches a panic. So a worker dies in a step in which
  a run panics whose sink then cannot be unwound, and in no other (`workerStep_dead_iff`). As long
  as this does not happen, the worker is in its loop, each panic is published once, and what waits
  in the slot is taken (`survives_panics`). When it happens, no submission is taken any more
  (`isLost_of_not_recovers`, `IsLost.run`).
-/
namespace LiveTrace

/-- Whether a notice says that a run panicked. -/
def Notice.isPanic : Notice → Bool
  | failed _ (.panicked _) _ => true
  | _ => false

/-- What is to be said about a run that panicked. -/
def panicNotice? : Key × Except Panic RunResult → Option Notice
  | (k, .error p) => some (.failed k (.panicked p.message) none)
  | (_, .ok _) => none

/-- What is said about a run says that it panicked if it did, and not otherwise. -/
theorem Heard.filter_isPanic {k : Key} {x : Except Panic RunResult} {n : Option Notice}
    (hn : Heard k x n) (hcalm : ∀ r, x = .ok r → r.outcome.IsCalm) :
    n.toList.filter (·.isPanic) = (panicNotice? (k, x)).toList := by
  cases hn with
  | completed | aborted | missing | uncompiled | panicked => rfl
  | faulted e report =>
    cases e with
    | panicked m => exact absurd rfl (hcalm _ rfl m)
    | io | config | engine | workspace | source | entryPointMissing | runtime | alreadyStarted
    | disposed => rfl

theorem filter_isPanic_of_heard {runs : List (Key × Except Panic RunResult)}
    {heard : List (Option Notice)}
    (hall : List.Forall₂ (fun run n => Heard run.1 run.2 n) runs heard)
    (hcalm : ∀ run ∈ runs, ∀ r, run.2 = .ok r → r.outcome.IsCalm) :
    heard.reduceOption.filter (·.isPanic) = runs.filterMap panicNotice? := by
  induction hall with
  | nil => rfl
  | @cons run n runs heard hn _ ih =>
    have hfirst := hn.filter_isPanic (hcalm run List.mem_cons_self)
    have hrest := ih fun run hrun => hcalm run (List.mem_cons_of_mem _ hrun)
    have hreduce : (n :: heard).reduceOption = n.toList ++ heard.reduceOption := by
      cases n <;> simp
    have hcollect : (run :: runs).filterMap panicNotice? =
        (panicNotice? run).toList ++ runs.filterMap panicNotice? := by
      rw [List.filterMap_cons]
      cases panicNotice? run <;> rfl
    rw [hreduce, hcollect, List.filter_append, hfirst, hrest]

/-- A sink that keeps nothing, and panics the next `left` times it is unwound. -/
structure Brittle where
  left : Nat

instance : TraceSink Brittle where
  isCanceled flag := pure flag
  record _ := pure ()
  unwind s :=
    match s.left with
    | 0 => ⟨s, [], .ok ()⟩
    | n + 1 => ⟨⟨n⟩, [], .error (.text "cannot close")⟩
  depth _ := 0
  roots _ := []

namespace Evaluator

variable [Engine] {σ : Type} {e : Evaluator σ}

theorem OfferEffect.ended {e' : Evaluator σ} {o o' : Offer} {ds : List Deed}
    (he : e.OfferEffect o e' o' ds) : ds.filterMap Deed.ended? = [] := by
  cases he <;> rfl

theorem DisposalEffect.ended {e' : Evaluator σ} {d d' : Disposal} {ds : List Deed}
    (he : e.DisposalEffect d e' d' ds) : ds.filterMap Deed.ended? = [] := by
  cases he <;> rfl

/-! ## The step in which a worker is lost -/

variable [TraceSink σ] {h : Host σ} {k : Key}

/-- How far a step of the worker brings the run that it has in hands, with the host that is left
and the submission whose run it is. -/
def advanced? (fuel : Nat) (e : Evaluator σ) : Option (Host σ × Key × RunState) :=
  match e.worker with
  | some (.starting k) => (e.runner.start fuel e.host k).2.map
      fun state => ((e.runner.start fuel e.host k).1, k, state)
  | some (.running r) => some ((Run.advance e.host r).1, r.identity.key, (Run.advance e.host r).2)
  | _ => none

/-- Whether the sink of a run that panics now can be unwound afterwards. -/
def recovers (fuel : Nat) (e : Evaluator σ) : Bool :=
  match e.advanced? fuel with
  | some (h, k, .panicked _) => (h.unwind k).2.isOk
  | _ => true

/-- A run goes on, and what it comes to says that it panicked only if it did. -/
theorem workerStep_advanced {fuel : Nat} {state : RunState}
    (hrun : e.advanced? fuel = some (h, k, state)) :
    e.workerStep fuel = { e with host := h }.follow k state ∧
      e.workerDeeds fuel = state.deeds k ∧ state.IsCalm := by
  obtain ⟨host, runner, slot, wakeUp, disposed, started, worker, receivers, subscribers⟩ := e
  unfold advanced? at hrun
  unfold workerDeeds
  cases worker with
  | none => contradiction
  | some w =>
    cases w with
    | waiting | woken | taking | publishing | stopped | dead | exhausted => contradiction
    | starting j =>
      dsimp only at hrun ⊢
      have hcalm := runner.start_isCalm fuel host j
      rcases hstart : runner.start fuel host j with ⟨g, _ | found⟩
      · rw [hstart] at hrun
        contradiction
      · rw [hstart] at hrun hcalm
        obtain ⟨rfl, rfl, rfl⟩ : g = h ∧ j = k ∧ found = state := by simpa using hrun
        exact ⟨workerStep_starting rfl hstart, rfl, hcalm _ rfl⟩
    | running r =>
      dsimp only at hrun ⊢
      obtain ⟨rfl, rfl, rfl⟩ : (Run.advance host r).1 = h ∧ r.identity.key = k ∧
        (Run.advance host r).2 = state := by simpa using hrun
      exact ⟨rfl, rfl, Run.advance_isCalm host r⟩

/-- Without a run in its hands, a worker neither ends a run nor dies. -/
theorem workerStep_idle {fuel : Nat} (hrun : e.advanced? fuel = none) :
    (e.workerDeeds fuel).filterMap Deed.ended? = [] ∧
      ((e.workerStep fuel).worker = some .dead → e.worker = some .dead) := by
  obtain ⟨host, runner, slot, wakeUp, disposed, started, worker, receivers, subscribers⟩ := e
  unfold advanced? at hrun
  unfold workerDeeds workerStep
  cases worker with
  | none => exact ⟨rfl, id⟩
  | some w =>
    cases w with
    | running r => contradiction
    | starting j =>
      dsimp only at hrun ⊢
      rcases hstart : runner.start fuel host j with ⟨g, _ | found⟩
      · exact ⟨rfl, nofun⟩
      · rw [hstart] at hrun
        contradiction
    | waiting =>
      dsimp only
      cases wakeUp <;> exact ⟨rfl, nofun⟩
    | woken =>
      dsimp only
      cases disposed <;> exact ⟨rfl, nofun⟩
    | taking => cases slot <;> exact ⟨rfl, nofun⟩
    | publishing n => exact ⟨rfl, nofun⟩
    | stopped | dead | exhausted => exact ⟨rfl, id⟩

/-- What the worker concludes from a run leaves it in its loop. -/
theorem conclude_ok_worker (r : RunResult) :
    ∃ w, (e.conclude k (.ok r)).worker = some w ∧ w.isFinished = false := by
  unfold conclude
  dsimp only
  rw [announce_eq]
  cases r.notice? k with
  | none => exact ⟨.waiting, rfl, rfl⟩
  | some n => exact ⟨.publishing n, rfl, rfl⟩

omit [Engine] in
/-- What is written to the log is nothing to a sink. -/
theorem unwind_error_log (h : Host σ) (k : Key) (text : String) :
    ((h.error text).unwind k).2 = (h.unwind k).2 := by
  have hsame : (h.error text).submission? k = h.submission? k := rfl
  unfold Host.unwind Host.withSink
  rw [hsame]
  cases h.submission? k <;> rfl

/-- After a panic the worker goes on to publish it, unless the sink panics again. -/
theorem conclude_error_worker (p : Panic) : (e.conclude k (.error p)).worker =
    some (if (e.host.unwind k).2.isOk then .publishing (.failed k (.panicked p.message) none)
      else .dead) := by
  unfold conclude
  dsimp only
  rw [← unwind_error_log e.host k
    s!"Submission {(e.host.idOf? k).getD 0} panicked: {p.message}"]
  generalize (e.host.error _).unwind k = after
  obtain ⟨h, q | _⟩ := after <;> rfl

/-- A worker dies in the step in which a run panics whose sink then cannot be unwound. -/
theorem workerStep_dead_iff (fuel : Nat) (hw : e.worker ≠ some .dead) :
    (e.workerStep fuel).worker = some .dead ↔ e.recovers fuel = false := by
  unfold recovers
  cases hrun : e.advanced? fuel with
  | none => simpa using fun hdead => hw ((workerStep_idle hrun).2 hdead)
  | some run =>
    obtain ⟨h, k, state⟩ := run
    rw [(workerStep_advanced hrun).1]
    cases state with
    | running r => exact ⟨nofun, nofun⟩
    | done r =>
      obtain ⟨w, hw, halive⟩ := conclude_ok_worker (e := { e with host := h }) (k := k) r
      refine ⟨fun hdead => ?_, nofun⟩
      obtain rfl := Option.some.inj (hw.symm.trans hdead)
      contradiction
    | panicked p =>
      unfold follow
      dsimp only
      rw [conclude_error_worker]
      dsimp only
      cases (h.unwind k).2.isOk <;> simp

end Evaluator

namespace System

section

variable [Engine] {σ : Type}

theorem ended_append (s : System σ) (e : Evaluator σ) (os : List (Key × Evaluator.Offer))
    (d : Option Evaluator.Disposal) (ds : List Deed) :
    ended ⟨e, os, d, s.history ++ ds⟩ = s.ended ++ ds.filterMap Deed.ended? :=
  List.filterMap_append

/-- Deeds that are no end of a run leave those alone that are over. -/
theorem ended_keep (s : System σ) {e : Evaluator σ} {os : List (Key × Evaluator.Offer)}
    {d : Option Evaluator.Disposal} {ds : List Deed} (h : ds.filterMap Deed.ended? = []) :
    ended ⟨e, os, d, s.history ++ ds⟩ = s.ended := by
  rw [ended_append, h, List.append_nil]

variable [TraceSink σ] {s s' : System σ}

/-- Whether the sinks of all runs that panic in the course of a schedule can be unwound
afterwards. -/
def recovers : System σ → List Action → Bool
  | _, [] => true
  | s, .work fuel :: as => s.evaluator.recovers fuel && (s.act (.work fuel)).recovers as
  | s, a :: as => (s.act a).recovers as

theorem recovers_cons {a : Action} {as : List Action} :
    s.recovers (a :: as) = true ↔
      (∀ fuel, a = .work fuel → s.evaluator.recovers fuel = true) ∧
        (s.act a).recovers as = true := by
  cases a with
  | work fuel => simp [recovers]
  | call | offer | start | dispose | disposal | subscribe | unsubscribe | withdraw | outside =>
    simp [recovers]

/-- What is kept by every action that comes to no second panic holds after every schedule that
does not. -/
theorem recovers_invariant {P : System σ → Prop}
    (hstep : ∀ (s : System σ) (a : Action), P s →
      (∀ fuel, a = .work fuel → s.evaluator.recovers fuel = true) → P (s.act a))
    (hs : P s) {as : List Action} (has : s.recovers as = true) : P (s.run as) := by
  induction as generalizing s with
  | nil => exact hs
  | cons a as ih =>
    obtain ⟨hfirst, hrest⟩ := recovers_cons.mp has
    exact ih (hstep s a hs hfirst) hrest

/-! ## What an action says about runs -/

/-- Nobody but the worker brings a run to its end, or dies of it. -/
theorem act_other {a : Action} (ha : ∀ fuel, a ≠ .work fuel) :
    (s.act a).ended = s.ended ∧
      ((s.act a).evaluator.worker = some .dead → s.evaluator.worker = some .dead) := by
  cases a with
  | work fuel => exact absurd rfl (ha fuel)
  | subscribe | withdraw => exact ⟨s.ended_keep rfl, id⟩
  | unsubscribe | outside => exact ⟨rfl, id⟩
  | call k =>
    dsimp only [act]
    split
    · exact ⟨rfl, id⟩
    · exact ⟨s.ended_keep rfl, id⟩
  | dispose =>
    dsimp only [act]
    split <;> exact ⟨rfl, id⟩
  | start =>
    dsimp only [act]
    split
    · refine ⟨rfl, fun hdead => ?_⟩
      dsimp only at hdead
      unfold Evaluator.start at hdead
      split at hdead
      · exact hdead
      · split at hdead
        · exact hdead
        · exact nomatch hdead
    · exact ⟨rfl, id⟩
  | offer place =>
    dsimp only [act]
    cases s.offers[place]? with
    | none => exact ⟨rfl, id⟩
    | some offer =>
      have he := s.evaluator.offerStep_effect offer.2
      exact ⟨s.ended_keep he.ended, fun hdead => he.origin.2.1.symm.trans hdead⟩
  | disposal =>
    dsimp only [act]
    cases s.disposal with
    | none => exact ⟨rfl, id⟩
    | some d =>
      have he := s.evaluator.disposalStep_effect d
      refine ⟨s.ended_keep he.ended, fun hdead => ?_⟩
      rcases he.origin.2.1 with hnone | hsame
      · exact nomatch hnone.symm.trans hdead
      · exact hsame.symm.trans hdead

/-- An action that comes to no second panic leaves the worker alive. -/
theorem act_survives {a : Action} (hw : s.evaluator.worker ≠ some .dead)
    (ha : ∀ fuel, a = .work fuel → s.evaluator.recovers fuel = true) :
    (s.act a).evaluator.worker ≠ some .dead := by
  intro hdead
  by_cases hwork : ∃ fuel, a = .work fuel
  · obtain ⟨fuel, rfl⟩ := hwork
    have hlost := (Evaluator.workerStep_dead_iff fuel hw).mp hdead
    exact nomatch (ha fuel rfl).symm.trans hlost
  · exact hw ((act_other fun fuel hfuel => hwork ⟨fuel, hfuel⟩).2 hdead)

/-- The results of runs do not say that they panicked. -/
def IsCalm (s : System σ) : Prop := ∀ run ∈ s.ended, ∀ r, run.2 = .ok r → r.outcome.IsCalm

theorem act_isCalm (hs : s.IsCalm) (a : Action) : (s.act a).IsCalm := by
  by_cases hwork : ∃ fuel, a = .work fuel
  · obtain ⟨fuel, rfl⟩ := hwork
    intro run hrun
    dsimp only [act] at hrun
    rw [ended_append, List.mem_append] at hrun
    rcases hrun with hrun | hrun
    · exact hs run hrun
    · cases hadvanced : s.evaluator.advanced? fuel with
      | none =>
        rw [(Evaluator.workerStep_idle hadvanced).1] at hrun
        contradiction
      | some found =>
        obtain ⟨h, k, state⟩ := found
        obtain ⟨-, hdeeds, hcalm⟩ := Evaluator.workerStep_advanced hadvanced
        rw [hdeeds] at hrun
        intro r hr
        cases state with
        | running _ => contradiction
        | done found =>
          obtain rfl : run = (k, .ok found) := List.mem_singleton.mp hrun
          obtain rfl := Except.ok.inj hr
          exact hcalm
        | panicked p =>
          obtain rfl : run = (k, .error p) := List.mem_singleton.mp hrun
          contradiction
  · intro run hrun
    rw [(act_other fun fuel hfuel => hwork ⟨fuel, hfuel⟩).1] at hrun
    exact hs run hrun

/-! ## As long as sinks can be unwound -/

/-- Unless the evaluator was disposed, the worker that was started is there, in its loop. -/
def InLoop (s : System σ) : Prop := s.evaluator.started = true → s.evaluator.disposed = false →
  ∃ w, s.evaluator.worker = some w ∧ w.isFinished = false

theorem InLoop.step (hl : s.InLoop) (hshutdown : s.Shutdown) (hs : s.Step s')
    (hsurvives : s'.evaluator.worker ≠ some .dead) : s'.InLoop := by
  intro hstarted hd
  cases hs with
  | still | call | dispose | subscribe | unsubscribe | withdraw | outside => exact hl hstarted hd
  | start => exact ⟨.waiting, rfl, rfl⟩
  | offer place k ho he =>
    obtain ⟨hsame, hworker, -⟩ := he.origin
    exact hworker ▸ hl (hsame.symm.trans hstarted) (he.disposed.symm.trans hd)
  | disposal hdis he =>
    have hphase := hshutdown.phase
    rw [hdis] at hphase
    cases he with
    | again | wake | wait | clear | remove | cancel | rest => exact hl hstarted hd
    | begin => contradiction
    | join =>
      cases hphase with
      | joining hdisposed => exact nomatch hd.symm.trans hdisposed
  | work he =>
    cases he with
    | idle => exact hl hstarted hd
    | receive | proceed | miss | take | goOn | exhaust | publish => exact ⟨_, rfl, rfl⟩
    | conclude _ _ _ _ _ n => cases n <;> exact ⟨_, rfl, rfl⟩
    | stop _ hdisposed => exact nomatch hd.symm.trans hdisposed
    | die => exact absurd rfl hsurvives

/-- What is so as long as sinks can be unwound after a panic. -/
structure Unharmed (s : System σ) : Prop where
  sound : s.Sound
  shutdown : s.Shutdown
  account : s.Account
  calm : s.IsCalm
  alive : s.evaluator.worker ≠ some .dead
  inLoop : s.InLoop

theorem Unharmed.act (hu : s.Unharmed) {a : Action}
    (ha : ∀ fuel, a = .work fuel → s.evaluator.recovers fuel = true) : (s.act a).Unharmed := by
  have hs := s.act_step a
  have halive := act_survives hu.alive ha
  exact ⟨hu.sound.step hs, hu.shutdown.step hs,
    hu.account.step hu.sound hs fun hdead => absurd hdead halive, act_isCalm hu.calm a, halive,
    hu.inLoop.step hu.shutdown hs halive⟩

theorem unharmed_run (h : Host σ) (r : Runner) {as : List Action}
    (has : (initial h r).recovers as = true) : ((initial h r).run as).Unharmed := by
  have hcalm : (initial h r).IsCalm := fun _ hrun => absurd hrun List.not_mem_nil
  have halive : (initial h r).evaluator.worker ≠ some .dead := Option.some_ne_none _ |>.symm
  have hloop : (initial h r).InLoop := fun hstarted => absurd hstarted Bool.false_ne_true
  have hstart : (initial h r).Unharmed := ⟨sound_run h r [], shutdown_run h r [],
    ⟨⟨[], .nil, rfl⟩, ⟨[], rfl, rfl⟩⟩, hcalm, halive, hloop⟩
  exact recovers_invariant (fun s a hs ha => Unharmed.act hs ha) hstart has

/-! ## What waits is taken -/

/-- The worker takes the submission `k` within `n` steps. -/
def TakesWithin (s : System σ) (fuel n : Nat) (k : Key) : Prop :=
  ∃ m ≤ n, (s.run (.replicate m (.work fuel))).evaluator.worker = some (.starting k) ∧
    (s.run (.replicate m (.work fuel))).keys .taken = s.keys .taken ++ [k]

section

variable {k : Key} {fuel n : Nat}

theorem TakesWithin.mono {m : Nat} (ht : s.TakesWithin fuel n k) (hn : n ≤ m) :
    s.TakesWithin fuel m k := by
  obtain ⟨i, hi, htaken⟩ := ht
  exact ⟨i, Nat.le_trans hi hn, htaken⟩

/-- A step in which the worker takes nothing. -/
theorem TakesWithin.step {e : Evaluator σ} {ds : List Deed}
    (hact : s.act (.work fuel) = { s with evaluator := e, history := s.history ++ ds })
    (hds : ds.filterMap (Deed.key? .taken) = [])
    (ht : TakesWithin { s with evaluator := e, history := s.history ++ ds } fuel n k) :
    s.TakesWithin fuel (n + 1) k := by
  obtain ⟨m, hm, hworker, htaken⟩ := ht
  have hrun : s.run (.replicate (m + 1) (.work fuel)) =
      run { s with evaluator := e, history := s.history ++ ds } (.replicate m (.work fuel)) := by
    rw [← hact]
    rfl
  refine ⟨m + 1, Nat.succ_le_succ hm, ?_⟩
  rw [hrun]
  exact ⟨hworker, htaken.trans (congrArg (· ++ [k]) (s.keys_keep hds))⟩

theorem takes_of_taking (hw : s.evaluator.worker = some .taking)
    (hslot : s.evaluator.slot = some k) : s.TakesWithin fuel 1 k := by
  have hact : s.act (.work fuel) = { s with
      evaluator := { s.evaluator with slot := none, worker := some (.starting k) }
      history := s.history ++ [.turn .taken k] } := by
    simp only [act, Evaluator.workerStep, Evaluator.workerDeeds, hw, hslot]
    rfl
  refine ⟨1, Nat.le_refl 1, ?_⟩
  change (s.act (.work fuel)).evaluator.worker = _ ∧ (s.act (.work fuel)).keys .taken = _
  rw [hact]
  exact ⟨rfl, s.keys_append _ _ _ _ _⟩

theorem takes_of_woken (hw : s.evaluator.worker = some .woken)
    (hd : s.evaluator.disposed = false) (hslot : s.evaluator.slot = some k) :
    s.TakesWithin fuel 2 k := by
  have hact : s.act (.work fuel) = { s with
      evaluator := { s.evaluator with worker := some .taking }
      history := s.history ++ [] } := by
    simp only [act, Evaluator.workerStep, Evaluator.workerDeeds, hw]
    rw [if_neg (Bool.eq_false_iff.mp hd)]
    rfl
  exact .step hact rfl (takes_of_taking rfl hslot)

theorem takes_of_waiting (hw : s.evaluator.worker = some .waiting)
    (hwake : s.evaluator.wakeUp = true) (hd : s.evaluator.disposed = false)
    (hslot : s.evaluator.slot = some k) : s.TakesWithin fuel 3 k := by
  have hact : s.act (.work fuel) = { s with
      evaluator := { s.evaluator with wakeUp := false, worker := some .woken }
      history := s.history ++ [] } := by
    simp only [act, Evaluator.workerStep, Evaluator.workerDeeds, hw]
    rw [if_pos hwake]
    rfl
  exact .step hact rfl (takes_of_woken rfl hd hslot)

theorem takes_of_publishing {n : Notice} (hw : s.evaluator.worker = some (.publishing n))
    (hwake : s.evaluator.wakeUp = true) (hd : s.evaluator.disposed = false)
    (hslot : s.evaluator.slot = some k) : s.TakesWithin fuel 4 k := by
  have hact : s.act (.work fuel) = { s with
      evaluator := { s.evaluator.publish n with worker := some .waiting }
      history := s.history ++ [.published n] } := by
    simp only [act, Evaluator.workerStep, Evaluator.workerDeeds, hw]
    rfl
  exact .step hact rfl (takes_of_waiting rfl hwake hd hslot)

/-- When all offers have returned, a worker in its loop that has no run in its hands takes what
waits. -/
theorem takes_of_inLoop (hattended : s.Attended) (hd : s.evaluator.disposed = false)
    (hreturned : ∀ o ∈ s.offers, o.2 = .returned) (hslot : s.evaluator.slot = some k) {w : Worker}
    (hw : s.evaluator.worker = some w) (halive : w.isFinished = false) (hfree : w.Holds []) :
    s.TakesWithin fuel 4 k := by
  have hwoken (hn : ¬ w.IsAwake) : s.evaluator.wakeUp = true := by
    rcases hattended hd with hnone | hwake | ⟨o, hmem, ho⟩ | ⟨w', hw', hawake⟩
    · rw [hslot] at hnone
      contradiction
    · exact hwake
    · rw [hreturned o hmem] at ho
      rcases ho with ho | ⟨j, ho⟩ <;> contradiction
    · obtain rfl := Option.some.inj (hw.symm.trans hw')
      exact absurd hawake hn
  cases w with
  | waiting =>
    exact (takes_of_waiting hw (hwoken (by simp [Worker.IsAwake])) hd hslot).mono (by decide)
  | woken => exact (takes_of_woken hw hd hslot).mono (by decide)
  | taking => exact (takes_of_taking hw hslot).mono (by decide)
  | publishing notice => exact takes_of_publishing hw (hwoken (by simp [Worker.IsAwake])) hd hslot
  | starting j | running r =>
    -- There is a run in its hands.
    contradiction
  | exhausted =>
    obtain ⟨j, hj⟩ := hfree
    contradiction
  | stopped | dead => contradiction

end

/-- Whatever panics in its runs, a worker goes on as long as it can unwind the sinks afterwards. It
never dies, and from the start to the disposal it is in its loop. Of each run that panicked there
is, in order, one notice that says so, and no other notice does. And once all offers have returned,
what waits in the slot is taken within four steps of the worker as soon as no run is in its hands,
whatever became of earlier runs. -/
theorem survives_panics (h : Host σ) (r : Runner) (as : List Action)
    (hrecovers : (initial h r).recovers as = true) :
    let s := (initial h r).run as
    s.evaluator.worker ≠ some .dead ∧
    (s.evaluator.started = true → s.evaluator.disposed = false →
      s.evaluator.isRunning = true) ∧
    (s.published ++ (s.evaluator.worker.bind Worker.notice?).toList).filter (·.isPanic) =
      s.ended.filterMap panicNotice? ∧
    ∀ k fuel, s.evaluator.started = true → s.evaluator.disposed = false →
      (∀ o ∈ s.offers, o.2 = .returned) → s.evaluator.slot = some k →
      (∀ w, s.evaluator.worker = some w → w.Holds []) → s.TakesWithin fuel 4 k := by
  intro s
  have hu : s.Unharmed := unharmed_run h r hrecovers
  refine ⟨hu.alive, fun hstarted hd => ?_, ?_, fun k fuel hstarted hd hreturned hslot hfree => ?_⟩
  · obtain ⟨w, hw, halive⟩ := hu.inLoop hstarted hd
    simp [Evaluator.isRunning, hw, halive]
  · obtain ⟨heard, hall, hsaid⟩ := hu.account.heard
    rw [← hsaid]
    exact filter_isPanic_of_heard hall hu.calm
  · obtain ⟨w, hw, halive⟩ := hu.inLoop hstarted hd
    exact takes_of_inLoop (attended_run h r as) hd hreturned hslot hw halive (hfree w hw)

end

/-- A sink that panics when it is unwound at the end of its run, but not when it is unwound once
more. The panic is published, and the next submission is taken. -/
theorem survives_panics_in_unwinding :
    let first : Submission Brittle :=
      { id := 4, project := { references := ["a"] }, sink := ⟨1⟩ }
    let h : Host Brittle := { submissions := [first, { first with id := 5, sink := ⟨0⟩ }] }
    let r : Runner := ⟨{ workspaceRoot := "w" }⟩
    let push (k : Key) : List Action := [.call k, .offer k, .offer k, .offer k]
    let as : List Action := [.start] ++ push 0 ++ .replicate 5 (.work 1) ++ push 1
    (initial h r).recovers as = true ∧
      ((initial h r).run as).ended = [(0, .error (.text "cannot close"))] ∧
      ((initial h r).run as).published.filter (·.isPanic) =
        [.failed 0 (.panicked "cannot close") none] ∧
      ((initial h r).run as).TakesWithin 1 4 1 := by
  intro first h r push as
  have hrecovers : (initial h r).recovers as = true := by decide +kernel
  have hended : ((initial h r).run as).ended = [(0, .error (.text "cannot close"))] := by
    decide +kernel
  have hresting : ((initial h r).run as).evaluator.started = true ∧
      ((initial h r).run as).evaluator.disposed = false ∧
      (∀ o ∈ ((initial h r).run as).offers, o.2 = .returned) ∧
      ((initial h r).run as).evaluator.slot = some 1 ∧
      ((initial h r).run as).evaluator.worker = some .waiting := by decide +kernel
  obtain ⟨hstarted, hdisposed, hreturned, hslot, hwaiting⟩ := hresting
  obtain ⟨-, -, hheard, htakes⟩ := survives_panics h r as hrecovers
  have hfree (w : Worker) (hw : ((initial h r).run as).evaluator.worker = some w) :
      w.Holds [] := by
    obtain rfl := Option.some.inj (hwaiting.symm.trans hw)
    rfl
  rw [hwaiting, hended] at hheard
  exact ⟨hrecovers, hended, (congrArg _ (List.append_nil _)).symm.trans hheard,
    htakes 1 1 hstarted hdisposed hreturned hslot hfree⟩

/-! ## When a sink cannot be unwound -/

section

variable [Engine] {σ : Type} [TraceSink σ] {s s' : System σ}

/-- There was a worker, which is dead or has even been joined. -/
def IsLost (s : System σ) : Prop := s.evaluator.started = true ∧
  (s.evaluator.worker = some .dead ∨ s.evaluator.worker = none)

/-- From `s` to `s'` no submission was taken, no run ended and nothing was published. -/
structure Silent (s s' : System σ) : Prop where
  taken : s'.keys .taken = s.keys .taken
  ended : s'.ended = s.ended
  published : s'.published = s.published

omit [TraceSink σ] in
theorem Silent.keep {s₀ : System σ} (hs : s₀.Silent s) {e : Evaluator σ}
    {os : List (Key × Evaluator.Offer)} {d : Option Evaluator.Disposal} {ds : List Deed}
    (htaken : ds.filterMap (Deed.key? .taken) = []) (hended : ds.filterMap Deed.ended? = [])
    (hpublished : ds.filterMap Deed.notice? = []) :
    s₀.Silent ⟨e, os, d, s.history ++ ds⟩ := by
  refine ⟨(s.keys_keep htaken).trans hs.taken, (s.ended_keep hended).trans hs.ended, ?_⟩
  unfold System.published
  rw [List.filterMap_append, hpublished, List.append_nil]
  exact hs.published

/-- Nothing brings a worker back, and without one there are no runs. -/
theorem IsLost.step {s₀ : System σ} (hl : s.IsLost) (hsilent : s₀.Silent s) (hs : s.Step s') :
    s'.IsLost ∧ s₀.Silent s' := by
  obtain ⟨hstarted, hgone⟩ := hl
  cases hs with
  | still | dispose | unsubscribe | outside =>
    exact ⟨⟨hstarted, hgone⟩, hsilent.taken, hsilent.ended, hsilent.published⟩
  | call | subscribe | withdraw => exact ⟨⟨hstarted, hgone⟩, hsilent.keep rfl rfl rfl⟩
  | start _ hnot => exact nomatch hstarted.symm.trans hnot
  | offer place k ho he =>
    refine ⟨⟨he.origin.1.trans hstarted, he.origin.2.1 ▸ hgone⟩, ?_⟩
    cases he <;> exact hsilent.keep rfl rfl rfl
  | disposal hd he =>
    refine ⟨⟨he.origin.1.trans hstarted, ?_⟩, ?_⟩
    · rcases he.origin.2.1 with hnone | hsame
      · exact .inr hnone
      · exact hsame ▸ hgone
    · cases he <;> exact hsilent.keep rfl rfl rfl
  | work he =>
    cases he with
    | idle => exact ⟨⟨hstarted, hgone⟩, hsilent.keep rfl rfl rfl⟩
    | receive hw | stop hw | proceed hw | miss hw | take _ hw | exhaust _ hw | publish _ hw =>
      simp [hw] at hgone
    | goOn _ hw | conclude _ hw | die _ hw =>
      rcases hgone with hgone | hgone <;> simp [hgone, Worker.key?] at hw

theorem IsLost.run (hl : s.IsLost) (as : List Action) : (s.run as).IsLost ∧ s.Silent (s.run as) :=
  run_invariant (P := fun s' => s'.IsLost ∧ s.Silent s') (fun _ _ h hs => h.1.step h.2 hs)
    ⟨hl, rfl, rfl, rfl⟩ as

/-- A worker that finds no way to unwind a sink after a panic is lost. -/
theorem isLost_of_not_recovers (hsound : s.Sound) {as : List Action}
    (has : s.recovers as = false) : (s.run as).IsLost := by
  induction as generalizing s with
  | nil => contradiction
  | cons a as ih =>
    have hlater (hrest : (s.act a).recovers as = false) : ((s.act a).run as).IsLost :=
      ih (hsound.step (s.act_step a)) hrest
    cases a with
    | call | offer | start | dispose | disposal | subscribe | unsubscribe | withdraw | outside =>
      exact hlater has
    | work fuel =>
      rcases Bool.and_eq_false_iff.mp has with hnow | hrest
      · have hnotDead : s.evaluator.worker ≠ some .dead := by
          intro hw
          simp [Evaluator.recovers, Evaluator.advanced?, hw] at hnow
        have hthere : s.evaluator.worker ≠ none := by
          intro hw
          simp [Evaluator.recovers, Evaluator.advanced?, hw] at hnow
        have hdead := (Evaluator.workerStep_dead_iff fuel hnotDead).mpr hnow
        have hstarted : s.evaluator.started = true := by
          by_contra hnot
          exact hthere (hsound.unstarted (Bool.eq_false_iff.mpr hnot))
        have hlost : (s.act (.work fuel)).IsLost :=
          ⟨(s.evaluator.workerStep_effect fuel).origin.1.trans hstarted, .inl hdead⟩
        exact (hlost.run as).1
      · exact hlater hrest

end

/-- A sink that panics when it is unwound at the end of its run, and again when it is unwound once
more. The worker is gone, although nobody disposed of the evaluator; nothing is said about the run,
and the next submission waits in vain. -/
theorem lost_to_second_panic :
    let first : Submission Brittle :=
      { id := 4, project := { references := ["a"] }, sink := ⟨2⟩ }
    let h : Host Brittle := { submissions := [first, { first with id := 5, sink := ⟨0⟩ }] }
    let r : Runner := ⟨{ workspaceRoot := "w" }⟩
    let push (k : Key) : List Action := [.call k, .offer k, .offer k, .offer k]
    let s := (initial h r).run ([.start] ++ push 0 ++ .replicate 4 (.work 1) ++ push 1)
    s.ended = [(0, .error (.text "cannot close"))] ∧ s.evaluator.started = true ∧
      s.evaluator.disposed = false ∧ s.evaluator.isRunning = false ∧
      s.evaluator.slot = some 1 ∧
      ∀ later, (s.run later).keys .taken = [0] ∧ (s.run later).published = [] := by
  intro first h r push s
  have hnow : s.ended = [(0, .error (.text "cannot close"))] ∧ s.evaluator.started = true ∧
      s.evaluator.disposed = false ∧ s.evaluator.isRunning = false ∧
      s.evaluator.slot = some 1 ∧ s.keys .taken = [0] ∧ s.published = [] := by decide +kernel
  have hlost : s.IsLost := isLost_of_not_recovers (sound_run h r []) (by decide +kernel)
  obtain ⟨hended, hstarted, hdisposed, hgone, hslot, htaken, hpublished⟩ := hnow
  refine ⟨hended, hstarted, hdisposed, hgone, hslot, fun later => ?_⟩
  have hsilent := (hlost.run later).2
  exact ⟨hsilent.taken.trans htaken, hsilent.published.trans hpublished⟩

end System

end LiveTrace
