import LiveTrace.Evaluator.Basic
import LiveTrace.Proofs.Run.Course
import LiveTrace.Proofs.Run.Result

/-
  The steps of the evaluator, and what each of them adds to a history of what was done to
  submissions. Nothing reads the history; it is kept to be spoken about. What an offer, the
  worker and the disposal can do in one step is said once (`offerStep_effect`,
  `workerStep_effect`, `disposalStep_effect`), with the guard of each case, and the invariants
  of the evaluator use no more than that.
-/
namespace LiveTrace

/-- What happens to a submission on its way. -/
inductive Turn where
  /-- An offer of it begins. -/
  | offered
  /-- An offer of it comes to nothing. -/
  | refused
  | swapped
  /-- It leaves the slot for another one. -/
  | displaced
  | taken
  /-- The disposal takes it out of the slot. -/
  | removed
  /-- The evaluator cancels it. -/
  | canceled
  /-- Its owner cancels it. -/
  | withdrawn
  deriving DecidableEq, Repr

namespace Turn

/-- Whether a step of an offer may bring a turn. -/
def isOfOffer : Turn → Bool
  | refused | swapped | displaced | canceled => true
  | offered | taken | removed | withdrawn => false

/-- Whether a step of the disposal may bring a turn. -/
def isOfDisposal : Turn → Bool
  | removed | canceled => true
  | offered | refused | swapped | displaced | taken | withdrawn => false

end Turn

/-- What is done, as far as the history tells. -/
inductive Deed where
  | turn (t : Turn) (k : Key)
  /-- From now on offers are refused. -/
  | disposing
  /-- A disposal returns. -/
  | disposed
  | ended (k : Key) (r : Except Panic RunResult)
  | published (n : Notice)
  | subscribed (place : Nat)

namespace Deed

/-- The submission that takes a turn. -/
def key? (t : Turn) : Deed → Option Key
  | turn t' k => if t' = t then some k else none
  | _ => none

def ended? : Deed → Option (Key × Except Panic RunResult)
  | ended k r => some (k, r)
  | _ => none

def notice? : Deed → Option Notice
  | published n => some n
  | _ => none

end Deed

variable [Engine]

/-- The end of a run, if it has come to it. -/
def RunState.deeds (k : Key) (s : RunState) : List Deed := (s.result?.map (.ended k)).toList

namespace Evaluator

variable {σ : Type}

/-- What a step of an offer adds to the history. -/
def offerDeeds (e : Evaluator σ) : Offer → List Deed
  | .refused k => [.turn .refused k, .turn .canceled k]
  | .bumping k => [.turn .canceled k]
  | .swapping k => e.slot.toList.map (.turn .displaced ·) ++ [.turn .swapped k]
  | _ => []

/-- What a step of the worker adds to the history. -/
def workerDeeds [TraceSink σ] (fuel : Nat) (e : Evaluator σ) : List Deed :=
  match e.worker with
  | some .taking => e.slot.toList.map (.turn .taken ·)
  | some (.starting k) => ((e.runner.start fuel e.host k).2.map (·.deeds k)).getD []
  | some (.running r) => (Run.advance e.host r).2.deeds r.identity.key
  | some (.publishing n) => [.published n]
  | _ => []

/-- What a step of the disposal adds to the history. -/
def disposalDeeds (e : Evaluator σ) : Disposal → List Deed
  | .called => if e.disposed then [.disposed] else [.disposing]
  | .taking =>
    match e.slot with
    | some k => [.turn .removed k]
    | none => [.disposed]
  | .canceling k => [.turn .canceled k, .disposed]
  | _ => []

end Evaluator

/-- The submission that a worker has taken and that is not over. -/
def Worker.key? : Worker → Option Key
  | starting k => some k
  | running r => some r.identity.key
  | _ => none

namespace Evaluator

/-- The submission that an offer has not brought to the slot yet. -/
def Offer.entering? : Offer → Option Key
  | called k | refused k | swapping k => some k
  | _ => none

/-! ## Offers -/

section

variable {σ : Type}

/-- What one step of an offer can do. -/
inductive OfferEffect (e : Evaluator σ) : Offer → Evaluator σ → Offer → List Deed → Prop where
  | refuse (k : Key) (h : e.disposed = true) : OfferEffect e (.called k) e (.refused k) []
  | accept (k : Key) (h : e.disposed = false) : OfferEffect e (.called k) e (.swapping k) []
  | reject (k : Key) (log : List LogLine) :
    OfferEffect e (.refused k) { e with host := (e.host.write log).cancel k } .returned
      [.turn .refused k, .turn .canceled k]
  | fill (k : Key) (h : e.slot = none) :
    OfferEffect e (.swapping k) { e with slot := some k } .waking [.turn .swapped k]
  | displace (j k : Key) (h : e.slot = some j) :
    OfferEffect e (.swapping k) { e with slot := some k } (.bumping j)
      [.turn .displaced j, .turn .swapped k]
  | bump (k : Key) (log : List LogLine) :
    OfferEffect e (.bumping k) { e with host := (e.host.write log).cancel k } .waking
      [.turn .canceled k]
  | wake : OfferEffect e .waking { e with wakeUp := true } .returned []
  | rest : OfferEffect e .returned e .returned []

theorem offerStep_effect (e : Evaluator σ) (o : Offer) :
    e.OfferEffect o (e.offerStep o).1 (e.offerStep o).2 (e.offerDeeds o) := by
  cases o with
  | called k =>
    unfold offerStep
    cases hd : e.disposed with
    | true => exact .refuse k hd
    | false => exact .accept k hd
  | refused k => exact .reject k _
  | swapping k =>
    unfold offerStep offerDeeds
    cases hs : e.slot with
    | none => exact .fill k hs
    | some j => exact .displace j k hs
  | bumping k => exact .bump k _
  | waking => exact .wake
  | returned => exact .rest

theorem OfferEffect.turns {e e' : Evaluator σ} {o o' : Offer} {ds : List Deed}
    (he : e.OfferEffect o e' o' ds) (t : Turn) (ht : t.isOfOffer = false) :
    ds.filterMap (Deed.key? t) = [] := by
  cases he <;> cases t <;> first | rfl | contradiction

/-! ## The disposal -/

/-- What one step of the disposal can do. -/
inductive DisposalEffect (e : Evaluator σ) :
    Disposal → Evaluator σ → Disposal → List Deed → Prop where
  | again (h : e.disposed = true) : DisposalEffect e .called e .returned [.disposed]
  | begin (h : e.disposed = false) :
    DisposalEffect e .called { e with disposed := true } .waking [.disposing]
  | wake : DisposalEffect e .waking { e with wakeUp := true } .joining []
  | wait : DisposalEffect e .joining e .joining []
  /-- There is no worker, or it has come to its end. -/
  | join (h : ∀ w, e.worker = some w → w.isFinished = true) (log : List LogLine) :
    DisposalEffect e .joining { e with host := e.host.write log, worker := none } .taking []
  | clear (h : e.slot = none) :
    DisposalEffect e .taking { e with slot := none } .returned [.disposed]
  | remove (k : Key) (h : e.slot = some k) :
    DisposalEffect e .taking { e with slot := none } (.canceling k) [.turn .removed k]
  | cancel (k : Key) (log : List LogLine) :
    DisposalEffect e (.canceling k) { e with host := (e.host.write log).cancel k } .returned
      [.turn .canceled k, .disposed]
  | rest : DisposalEffect e .returned e .returned []

theorem joining_effect (e : Evaluator σ) :
    e.DisposalEffect .joining (e.disposalStep .joining).1 (e.disposalStep .joining).2 [] := by
  obtain ⟨host, runner, slot, wakeUp, disposed, started, worker, receivers, subscribers⟩ := e
  unfold disposalStep
  cases worker with
  | none =>
    have hj := DisposalEffect.join (e := ⟨host, runner, slot, wakeUp, disposed, started, none,
      receivers, subscribers⟩) (by simp) []
    simpa only [Host.write, List.append_nil] using hj
  | some w =>
    cases w with
    | stopped =>
      have hj := DisposalEffect.join (e := ⟨host, runner, slot, wakeUp, disposed, started,
        some .stopped, receivers, subscribers⟩) (by simp [Worker.isFinished]) []
      simpa only [Host.write, List.append_nil] using hj
    | dead => exact .join (by simp [Worker.isFinished]) _
    | waiting | woken | taking | starting | running | publishing | exhausted => exact .wait

theorem disposalStep_effect (e : Evaluator σ) (d : Disposal) :
    e.DisposalEffect d (e.disposalStep d).1 (e.disposalStep d).2 (e.disposalDeeds d) := by
  cases d with
  | called =>
    unfold disposalStep disposalDeeds
    cases hd : e.disposed with
    | true => exact .again hd
    | false => exact .begin hd
  | waking => exact .wake
  | joining => exact joining_effect e
  | taking =>
    unfold disposalStep disposalDeeds
    cases hs : e.slot with
    | none => exact .clear hs
    | some k => exact .remove k hs
  | canceling k => exact .cancel k _
  | returned => exact .rest

theorem DisposalEffect.turns {e e' : Evaluator σ} {d d' : Disposal} {ds : List Deed}
    (he : e.DisposalEffect d e' d' ds) (t : Turn) (ht : t.isOfDisposal = false) :
    ds.filterMap (Deed.key? t) = [] := by
  cases he <;> cases t <;> first | rfl | contradiction

end

/-! ## The worker -/

section

variable {σ : Type}

theorem announce_eq (e : Evaluator σ) (n : Option Notice) :
    e.announce n = { e with worker := some (n.elim .waiting .publishing) } := by
  cases n <;> rfl

variable [TraceSink σ]

/-- What one step of the worker can do. -/
inductive WorkerEffect (e : Evaluator σ) : Evaluator σ → List Deed → Prop where
  | idle : WorkerEffect e e []
  | receive (hw : e.worker = some .waiting) (h : e.wakeUp = true) :
    WorkerEffect e { e with wakeUp := false, worker := some .woken } []
  | stop (hw : e.worker = some .woken) (h : e.disposed = true) (log : List LogLine) :
    WorkerEffect e { e with host := e.host.write log, worker := some .stopped } []
  | proceed (hw : e.worker = some .woken) (h : e.disposed = false) :
    WorkerEffect e { e with worker := some .taking } []
  | miss (hw : e.worker = some .taking) (h : e.slot = none) :
    WorkerEffect e { e with worker := some .waiting } []
  | take (k : Key) (hw : e.worker = some .taking) (h : e.slot = some k) :
    WorkerEffect e { e with slot := none, worker := some (.starting k) } [.turn .taken k]
  | goOn (r : Running) (hw : e.worker.bind Worker.key? = some r.identity.key) (h : Host σ)
    (hl : h.labels = e.host.labels) :
    WorkerEffect e { e with host := h, worker := some (.running r) } []
  | exhaust (k : Key) (hw : e.worker = some (.starting k)) (h : Host σ)
    (hl : h.labels = e.host.labels) :
    WorkerEffect e { e with host := h, worker := some .exhausted } []
  | conclude (k : Key) (hw : e.worker.bind Worker.key? = some k) (h : Host σ)
    (hl : h.labels = e.host.labels) (r : Except Panic RunResult) (n : Option Notice)
    (hn : Heard k r n) :
    WorkerEffect e { e with host := h, worker := some (n.elim .waiting .publishing) }
      [.ended k r]
  /-- The sink panicked in its run, and again when it was unwound. -/
  | die (k : Key) (hw : e.worker.bind Worker.key? = some k) (h : Host σ)
    (hl : h.labels = e.host.labels) (p q : Panic)
    (hq : e.host.submission? k = none ∨ ∃ sink : σ, (TraceSink.unwind sink).result = .error q) :
    WorkerEffect e { e with host := h, worker := some .dead } [.ended k (.error p)]
  | publish (n : Notice) (hw : e.worker = some (.publishing n)) :
    WorkerEffect e { e.publish n with worker := some .waiting } [.published n]

omit [Engine] in
theorem unwind_error {g h h' : Host σ} {k : Key} {q : Panic} (hl : h.labels = g.labels)
    (hu : h.unwind k = (h', .error q)) :
    g.submission? k = none ∨ ∃ sink : σ, (TraceSink.unwind sink).result = .error q := by
  cases hg : g.submission? k with
  | none => exact .inl rfl
  | some s =>
    obtain ⟨s', hs', -⟩ := Host.exists_submission hl hg
    unfold Host.unwind at hu
    rw [Host.withSink_of_submission? hs'] at hu
    exact .inr ⟨s'.sink, (Prod.mk.inj hu).2⟩

variable {e : Evaluator σ} {k : Key} {w : Option Worker}

/-- A run that is over is followed by what is to be said about it. -/
theorem conclude_effect (hw : e.worker.bind Worker.key? = some k) {h : Host σ}
    (hl : h.labels = e.host.labels) {r : RunResult} (hr : r.IsReported) :
    e.WorkerEffect ({ e with host := h, worker := w }.conclude k (.ok r)) [.ended k (.ok r)] := by
  unfold conclude
  dsimp only
  rw [announce_eq]
  cases r.outcome with
  | completed | aborted | missingDependency | compileErrors =>
    exact .conclude k hw h hl _ _ (hr.heard k)
  | faulted error => exact .conclude k hw (h.error _) hl _ _ (hr.heard k)

theorem conclude_panic_effect (hw : e.worker.bind Worker.key? = some k) {h : Host σ}
    (hl : h.labels = e.host.labels) (p : Panic) :
    e.WorkerEffect ({ e with host := h, worker := w }.conclude k (.error p))
      [.ended k (.error p)] := by
  unfold conclude
  dsimp only
  generalize hlogged : h.error _ = logged
  replace hl : logged.labels = e.host.labels := hlogged ▸ hl
  have hkept := (logged.withSink_labels k fun _ => TraceSink.unwind).trans hl
  change (logged.unwind k).1.labels = e.host.labels at hkept
  rcases hu : logged.unwind k with ⟨h', q | _⟩
  · rw [hu] at hkept
    exact .die k hw h' hkept p q (unwind_error hl hu)
  · rw [hu] at hkept
    dsimp only
    rw [announce_eq]
    exact .conclude k hw h' hkept _ _ (.panicked p)

theorem follow_effect (hw : e.worker.bind Worker.key? = some k) {h : Host σ}
    (hl : h.labels = e.host.labels) {s : RunState} (hof : s.IsOf k) (hr : s.IsReported) :
    e.WorkerEffect ({ e with host := h, worker := w }.follow k s) (s.deeds k) := by
  cases s with
  | running r =>
    obtain rfl : r.identity.key = k := hof
    exact .goOn r hw h hl
  | done r => exact conclude_effect hw hl hr
  | panicked p => exact conclude_panic_effect hw hl p

theorem start_labels (fuel : Nat) (r : Runner) (h : Host σ) (k : Key) :
    (r.start fuel h k).1.labels = h.labels ∧
      ∀ s, (r.start fuel h k).2 = some s → s.IsOf k := by
  cases hs : h.submission? k with
  | none =>
    unfold Runner.start
    rw [hs]
    exact ⟨rfl, fun s hs => Option.some.inj hs ▸ trivial⟩
  | some sub =>
    obtain ⟨hcourse, hof⟩ := Runner.start_course fuel r hs
    exact ⟨hcourse.labels, hof⟩

theorem workerStep_effect (fuel : Nat) (e : Evaluator σ) :
    e.WorkerEffect (e.workerStep fuel) (e.workerDeeds fuel) := by
  unfold workerStep workerDeeds
  cases hw : e.worker with
  | none => exact .idle
  | some w =>
    cases w with
    | waiting =>
      dsimp only
      split
      · exact .receive hw ‹_›
      · exact .idle
    | woken =>
      dsimp only
      split
      case isTrue hd => exact .stop hw hd _
      case isFalse hd => exact .proceed hw (Bool.eq_false_iff.mpr hd)
    | taking =>
      dsimp only
      cases hs : e.slot with
      | none => exact .miss hw hs
      | some k => exact .take k hw hs
    | starting k =>
      have hk : e.worker.bind Worker.key? = some k := by rw [hw]; rfl
      obtain ⟨hl, hof⟩ := start_labels fuel e.runner e.host k
      have hr := e.runner.start_isReported fuel e.host k
      dsimp only
      generalize e.runner.start fuel e.host k = started at hl hof hr ⊢
      obtain ⟨h, _ | s⟩ := started
      · exact .exhaust k hw h hl
      · exact follow_effect hk hl (hof s rfl) (hr s rfl)
    | running r =>
      have hk : e.worker.bind Worker.key? = some r.identity.key := by rw [hw]; rfl
      have hl := (Run.advance_course e.host r).labels
      have hof := Run.advance_isOf e.host r
      have hr := Run.advance_isReported e.host r
      dsimp only
      generalize Run.advance e.host r = after at hl hof hr ⊢
      exact follow_effect hk hl hof hr
    | publishing n => exact .publish n hw
    | stopped | dead | exhausted => exact .idle

/-- The worker takes submissions and lets them take no other turn. -/
theorem WorkerEffect.turns {e' : Evaluator σ} {ds : List Deed} (he : e.WorkerEffect e' ds)
    (t : Turn) (ht : t ≠ .taken) : ds.filterMap (Deed.key? t) = [] := by
  cases he <;> cases t <;> first | rfl | contradiction

end

end Evaluator

end LiveTrace
