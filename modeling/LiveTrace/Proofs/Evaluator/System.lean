import LiveTrace.Proofs.Evaluator.Steps

/-
  The evaluator with everyone around it: any number of offers under way, the worker, the owner
  who starts and disposes, listeners who come and go, and owners of submissions who cancel them.
  A schedule is a list of actions, and an action that is not possible changes nothing. Starting
  and disposing need the evaluator for themselves: they begin when every offer has returned, and
  no offer begins before they are over. What an action can do is said once (`act_step`).
-/
namespace LiveTrace

/-- What someone around the evaluator does. -/
inductive Action where
  /-- Calls `push`. -/
  | call (k : Key)
  /-- Goes on with the offer at a place. -/
  | offer (place : Nat)
  | start
  | dispose
  /-- Goes on with the disposal. -/
  | disposal
  /-- Lets the worker do a step, with fuel for the start functions of a run. -/
  | work (fuel : Nat)
  | subscribe
  | unsubscribe (place : Nat)
  /-- The owner of a submission cancels it. -/
  | withdraw (k : Key)
  /-- The files change, or time passes. -/
  | outside (f : Files)

variable [Engine]

structure System (σ : Type) where
  evaluator : Evaluator σ
  /-- Every offer ever called, by its submission, and where it stands. -/
  offers : List (Key × Evaluator.Offer) := []
  /-- The latest disposal, and where it stands. -/
  disposal : Option Evaluator.Disposal := none
  history : List Deed := []

namespace Evaluator

variable {σ : Type} {e e' : Evaluator σ} {ds : List Deed}

/-- What an offer brings to the slot, it was bringing before. -/
theorem OfferEffect.origin {o o' : Offer} (he : e.OfferEffect o e' o' ds) :
    e'.started = e.started ∧ e'.worker = e.worker ∧
      (∀ k, o'.entering? = some k → o.entering? = some k) ∧
      ∀ k, e'.slot = some k → e.slot = some k ∨ o.entering? = some k := by
  cases he <;> simp_all [Offer.entering?]

theorem DisposalEffect.origin {d d' : Disposal} (he : e.DisposalEffect d e' d' ds) :
    e'.started = e.started ∧ (e'.worker = none ∨ e'.worker = e.worker) ∧
      (e'.slot = none ∨ e'.slot = e.slot) := by
  cases he <;> simp

/-- What a worker runs, it ran before or found in the slot. -/
theorem WorkerEffect.origin [TraceSink σ] (he : e.WorkerEffect e' ds) :
    e'.started = e.started ∧ (e.worker = none → e'.worker = none) ∧
      (e'.slot = none ∨ e'.slot = e.slot) ∧
      ∀ k, e'.worker.bind Worker.key? = some k →
        e.worker.bind Worker.key? = some k ∨ e.slot = some k := by
  cases he with
  | idle => exact ⟨rfl, fun hnone => hnone, .inr rfl, fun _ => .inl⟩
  | take k hw hk => simp_all [Worker.key?]
  | receive hw | stop hw | proceed hw | miss hw | exhaust _ hw | publish _ hw =>
    simp [hw, Worker.key?, Evaluator.publish]
  | goOn r hw | die _ hw =>
    have hne : e.worker ≠ none := by
      intro hnone
      simp [hnone] at hw
    simp_all [Worker.key?]
  | conclude k hw _ _ _ n =>
    have hne : e.worker ≠ none := by
      intro hnone
      simp [hnone] at hw
    cases n <;> simp_all [Worker.key?]

end Evaluator

namespace Host

variable {σ : Type}

omit [Engine] in
theorem isSome_submission?_of_labels {h h' : Host σ} (hl : h'.labels = h.labels) (k : Key) :
    (h'.submission? k).isSome = (h.submission? k).isSome := by
  rw [← Option.isSome_map (f := Submission.label), ← labels_getElem?, hl, labels_getElem?,
    Option.isSome_map]

omit [Engine] in
theorem isSome_submission?_cancel (h : Host σ) (j k : Key) :
    ((h.cancel j).submission? k).isSome = (h.submission? k).isSome := by
  unfold cancel
  rw [submission?_update]
  split <;> simp

end Host

namespace System

variable {σ : Type}

/-- A new evaluator, with nothing offered. -/
def initial (h : Host σ) (r : Runner) : System σ := { evaluator := { host := h, runner := r } }

/-- The submissions that took a turn, in order. -/
def keys (s : System σ) (t : Turn) : List Key := s.history.filterMap (Deed.key? t)

theorem keys_append (s : System σ) (e : Evaluator σ) (os : List (Key × Evaluator.Offer))
    (d : Option Evaluator.Disposal) (ds : List Deed) (t : Turn) :
    keys ⟨e, os, d, s.history ++ ds⟩ t = s.keys t ++ ds.filterMap (Deed.key? t) :=
  List.filterMap_append

/-- Deeds that are no such turn leave those alone who took it. -/
theorem keys_keep (s : System σ) {e : Evaluator σ} {os : List (Key × Evaluator.Offer)}
    {d : Option Evaluator.Disposal} {ds : List Deed} {t : Turn}
    (h : ds.filterMap (Deed.key? t) = []) : keys ⟨e, os, d, s.history ++ ds⟩ t = s.keys t := by
  rw [keys_append, h, List.append_nil]

/-- The runs that are over, in order. -/
def ended (s : System σ) : List (Key × Except Panic RunResult) := s.history.filterMap Deed.ended?

/-- Whether a disposal is under way. -/
def isDisposing (s : System σ) : Bool :=
  match s.disposal with
  | none | some .returned => false
  | _ => true

/-- Whether nobody is inside the evaluator but its worker. -/
def isQuiet (s : System σ) : Bool := !s.isDisposing && s.offers.all (·.2 == .returned)

theorem quiet_iff (s : System σ) :
    s.isQuiet = true ↔ s.isDisposing = false ∧ ∀ o ∈ s.offers, o.2 = .returned := by
  simp [isQuiet]

variable [TraceSink σ]

def act (s : System σ) : Action → System σ
  | .call k =>
    if s.isDisposing || (s.evaluator.host.submission? k).isNone then s
    else { s with
      offers := s.offers ++ [(k, .called k)]
      history := s.history ++ [.turn .offered k] }
  | .offer place =>
    match s.offers[place]? with
    | none => s
    | some (k, o) => { s with
      evaluator := (s.evaluator.offerStep o).1
      offers := s.offers.set place (k, (s.evaluator.offerStep o).2)
      history := s.history ++ s.evaluator.offerDeeds o }
  | .start => if s.isQuiet then { s with evaluator := s.evaluator.start.1 } else s
  | .dispose => if s.isQuiet then { s with disposal := some .called } else s
  | .disposal =>
    match s.disposal with
    | none => s
    | some d => { s with
      evaluator := (s.evaluator.disposalStep d).1
      disposal := some (s.evaluator.disposalStep d).2
      history := s.history ++ s.evaluator.disposalDeeds d }
  | .work fuel => { s with
      evaluator := s.evaluator.workerStep fuel
      history := s.history ++ s.evaluator.workerDeeds fuel }
  | .subscribe => { s with
      evaluator := s.evaluator.subscribe
      history := s.history ++ [.subscribed s.evaluator.receivers.length] }
  | .unsubscribe place => { s with evaluator := s.evaluator.unsubscribe place }
  | .withdraw k => { s with
      evaluator := { s.evaluator with host := s.evaluator.host.cancel k }
      history := s.history ++ [.turn .withdrawn k] }
  | .outside f => { s with
      evaluator := { s.evaluator with host := { s.evaluator.host with files := f } } }

/-- Follows a schedule. -/
def run (s : System σ) (as : List Action) : System σ := as.foldl act s

/-! ## What an action can do -/

/-- What one action can do. -/
inductive Step (s : System σ) : System σ → Prop where
  | still : Step s s
  | call (k : Key) (hd : s.isDisposing = false)
    (hk : ∃ sub, s.evaluator.host.submission? k = some sub) :
    Step s { s with
      offers := s.offers ++ [(k, .called k)]
      history := s.history ++ [.turn .offered k] }
  | offer (place : Nat) (k : Key) {o o' : Evaluator.Offer} {e : Evaluator σ} {ds : List Deed}
    (ho : s.offers[place]? = some (k, o)) (he : s.evaluator.OfferEffect o e o' ds) :
    Step s { s with
      evaluator := e, offers := s.offers.set place (k, o'), history := s.history ++ ds }
  | start (hd : s.evaluator.disposed = false) (hs : s.evaluator.started = false) (h : Host σ)
    (hl : h.labels = s.evaluator.host.labels) :
    Step s { s with evaluator :=
      { s.evaluator with host := h, started := true, worker := some .waiting } }
  | dispose (hd : s.isDisposing = false) (ho : ∀ o ∈ s.offers, o.2 = .returned) :
    Step s { s with disposal := some .called }
  | disposal {d d' : Evaluator.Disposal} {e : Evaluator σ} {ds : List Deed}
    (hd : s.disposal = some d) (he : s.evaluator.DisposalEffect d e d' ds) :
    Step s { s with evaluator := e, disposal := some d', history := s.history ++ ds }
  | work {e : Evaluator σ} {ds : List Deed} (he : s.evaluator.WorkerEffect e ds) :
    Step s { s with evaluator := e, history := s.history ++ ds }
  | subscribe :
    Step s { s with
      evaluator := s.evaluator.subscribe
      history := s.history ++ [.subscribed s.evaluator.receivers.length] }
  | unsubscribe (place : Nat) : Step s { s with evaluator := s.evaluator.unsubscribe place }
  | withdraw (k : Key) :
    Step s { s with
      evaluator := { s.evaluator with host := s.evaluator.host.cancel k }
      history := s.history ++ [.turn .withdrawn k] }
  | outside (f : Files) :
    Step s { s with
      evaluator := { s.evaluator with host := { s.evaluator.host with files := f } } }

theorem start_step (s : System σ) : s.Step { s with evaluator := s.evaluator.start.1 } := by
  unfold Evaluator.start
  split
  case isTrue => exact .still
  case isFalse hd =>
    split
    case isTrue => exact .still
    case isFalse hs => exact .start (Bool.eq_false_iff.mpr hd) (Bool.eq_false_iff.mpr hs) _ rfl

theorem act_step (s : System σ) (a : Action) : s.Step (s.act a) := by
  cases a with
  | call k =>
    dsimp only [act]
    split
    case isTrue => exact .still
    case isFalse h =>
      rw [Bool.or_eq_true, not_or, Bool.not_eq_true, Option.isNone_iff_eq_none] at h
      exact .call k h.1 (Option.ne_none_iff_exists'.mp h.2)
  | offer place =>
    dsimp only [act]
    cases ho : s.offers[place]? with
    | none => exact .still
    | some offer => exact .offer place offer.1 ho (s.evaluator.offerStep_effect offer.2)
  | start =>
    dsimp only [act]
    split
    · exact s.start_step
    · exact .still
  | dispose =>
    dsimp only [act]
    split
    case isTrue h => exact .dispose (s.quiet_iff.mp h).1 (s.quiet_iff.mp h).2
    case isFalse => exact .still
  | disposal =>
    dsimp only [act]
    cases hd : s.disposal with
    | none => exact .still
    | some d => exact .disposal hd (s.evaluator.disposalStep_effect d)
  | work fuel => exact .work (s.evaluator.workerStep_effect fuel)
  | subscribe => exact .subscribe
  | unsubscribe place => exact .unsubscribe place
  | withdraw k => exact .withdraw k
  | outside f => exact .outside f

/-- What every step keeps holds after every schedule. -/
theorem run_invariant {P : System σ → Prop} (hstep : ∀ s s' : System σ, P s → s.Step s' → P s')
    {s : System σ} (hs : P s) (as : List Action) : P (s.run as) := by
  induction as generalizing s with
  | nil => exact hs
  | cons a as ih => exact ih (hstep s _ hs (s.act_step a))

/-! ## What is so in every state -/

variable {s s' : System σ}

/-- No step makes or loses a submission. -/
theorem Step.isSome_submission? (hs : s.Step s') (k : Key) :
    (s'.evaluator.host.submission? k).isSome = (s.evaluator.host.submission? k).isSome := by
  cases hs with
  | still | call | dispose | subscribe | unsubscribe | outside => rfl
  | start _ _ h hl => exact Host.isSome_submission?_of_labels hl k
  | withdraw j => exact Host.isSome_submission?_cancel _ j k
  | offer place i ho he =>
    cases he with
    | refuse | accept | fill | displace | wake | rest => rfl
    | reject j | bump j => exact Host.isSome_submission?_cancel _ j k
  | disposal hd he =>
    cases he with
    | again | begin | wake | wait | join | clear | remove | rest => rfl
    | cancel j => exact Host.isSome_submission?_cancel _ j k
  | work he =>
    cases he with
    | idle | receive | stop | proceed | miss | take | publish => rfl
    | goOn _ _ _ hl | exhaust _ _ _ hl | conclude _ _ _ hl | die _ _ _ hl =>
      exact Host.isSome_submission?_of_labels hl k

/-- Before the start there is no worker, and whatever is brought to the slot, waits in it or runs
is a submission. -/
structure Sound (s : System σ) : Prop where
  unstarted : s.evaluator.started = false → s.evaluator.worker = none
  offered : ∀ o ∈ s.offers, ∀ k, o.2.entering? = some k →
    (s.evaluator.host.submission? k).isSome = true
  slot : ∀ k, s.evaluator.slot = some k → (s.evaluator.host.submission? k).isSome = true
  worker : ∀ k, s.evaluator.worker.bind Worker.key? = some k →
    (s.evaluator.host.submission? k).isSome = true

theorem Sound.step (h : s.Sound) (hs : s.Step s') : s'.Sound := by
  have hthere (k : Key) : (s.evaluator.host.submission? k).isSome = true →
      (s'.evaluator.host.submission? k).isSome = true := (hs.isSome_submission? k).trans
  have hoffered : ∀ o ∈ s.offers, ∀ k, o.2.entering? = some k →
      (s'.evaluator.host.submission? k).isSome = true :=
    fun o hmem k hk => hthere k (h.offered o hmem k hk)
  have hslot (k : Key) (hk : s.evaluator.slot = some k) := hthere k (h.slot k hk)
  have hworker (k : Key) (hk : s.evaluator.worker.bind Worker.key? = some k) :=
    hthere k (h.worker k hk)
  cases hs with
  | still | dispose | subscribe | unsubscribe | withdraw | outside =>
    exact ⟨h.unstarted, hoffered, hslot, hworker⟩
  | start => exact ⟨nofun, hoffered, hslot, nofun⟩
  | call k _ hk =>
    refine ⟨h.unstarted, fun o hmem j hj => ?_, hslot, hworker⟩
    rcases List.mem_append.mp hmem with hmem | hmem
    · exact hoffered o hmem j hj
    · obtain rfl := List.mem_singleton.mp hmem
      obtain rfl := Option.some.inj hj
      exact Option.isSome_iff_exists.mpr hk
  | offer place i ho he =>
    obtain ⟨hstarted, hsame, hentering, hfill⟩ := he.origin
    have hbefore := hoffered _ (List.mem_of_getElem? ho)
    refine ⟨fun hs => hsame.trans (h.unstarted (hstarted.symm.trans hs)), fun o hmem k hk => ?_,
      fun k hk => (hfill k hk).elim (hslot k) (hbefore k), fun k hk => hworker k (hsame ▸ hk)⟩
    rcases List.mem_or_eq_of_mem_set hmem with hmem | rfl
    · exact hoffered o hmem k hk
    · exact hbefore k (hentering k hk)
  | disposal hd he =>
    obtain ⟨hstarted, hjoined, hcleared⟩ := he.origin
    refine ⟨fun hs => ?_, hoffered, fun k hk => ?_, fun k hk => ?_⟩
    · rcases hjoined with hnone | hsame
      · exact hnone
      · exact hsame.trans (h.unstarted (hstarted.symm.trans hs))
    · rcases hcleared with hnone | hsame
      · exact nomatch hk.symm.trans hnone
      · exact hslot k (hsame.symm.trans hk)
    · rcases hjoined with hnone | hsame
      · rw [hnone] at hk
        contradiction
      · exact hworker k (hsame ▸ hk)
  | work he =>
    obtain ⟨hstarted, hnone, hcleared, htaken⟩ := he.origin
    refine ⟨fun hs => hnone (h.unstarted (hstarted.symm.trans hs)), hoffered, fun k hk => ?_,
      fun k hk => (htaken k hk).elim (hworker k) (hslot k)⟩
    rcases hcleared with hempty | hsame
    · exact nomatch hk.symm.trans hempty
    · exact hslot k (hsame.symm.trans hk)

theorem sound_run (h : Host σ) (r : Runner) (as : List Action) :
    ((initial h r).run as).Sound := by
  have hstart : (initial h r).Sound := ⟨fun _ => rfl, nofun, nofun, nofun⟩
  exact run_invariant (fun _ _ => Sound.step) hstart as

end System

end LiveTrace
