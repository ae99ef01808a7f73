import LiveTrace.Proofs.Evaluator.System

/-
  The way of a disposal. It goes through its phases one after another, alone with the worker
  (`Phase`, `Shutdown`): first offers are refused, then the worker is gone, then the slot is
  empty, and all of that stays so once the disposal has returned.
-/
namespace LiveTrace

namespace Evaluator

variable [Engine] {σ : Type}

/-- An offer that comes after the evaluator was disposed, or that came to its end before. -/
def Offer.IsOutside (o : Offer) : Prop := o = .returned ∨ ∃ k, o = .called k ∨ o = .refused k

/-- What is so while the latest disposal stands at a point, if there is one. The last argument is
the history, which tells whether a disposal has returned. -/
inductive Phase (e : Evaluator σ) (ds : List Deed) : Option Disposal → Prop where
  | before (h : e.disposed = false) (hn : .disposed ∉ ds) : Phase e ds none
  | called (h : e.disposed = false) (hn : .disposed ∉ ds) : Phase e ds (some .called)
  | waking (h : e.disposed = true) (hn : .disposed ∉ ds) : Phase e ds (some .waking)
  | joining (h : e.disposed = true) (hn : .disposed ∉ ds) : Phase e ds (some .joining)
  | taking (h : e.disposed = true) (hn : .disposed ∉ ds) (hw : e.worker = none) :
    Phase e ds (some .taking)
  | canceling (k : Key) (h : e.disposed = true) (hn : .disposed ∉ ds) (hw : e.worker = none)
    (hs : e.slot = none) : Phase e ds (some (.canceling k))
  | returned (h : e.disposed = true) (hd : .disposed ∈ ds) (hw : e.worker = none)
    (hs : e.slot = none) : Phase e ds (some .returned)
  | calledAgain (h : e.disposed = true) (hd : .disposed ∈ ds) (hw : e.worker = none)
    (hs : e.slot = none) : Phase e ds (some .called)

variable {e e' : Evaluator σ} {ds es : List Deed} {d d' : Disposal}

theorem DisposalEffect.phase (he : e.DisposalEffect d e' d' es) (hp : e.Phase ds (some d)) :
    e'.Phase (ds ++ es) (some d') := by
  cases he with
  | again h =>
    cases hp with
    | called hd => rw [h] at hd; contradiction
    | calledAgain h hd hw hs => exact .returned h (List.mem_append_left _ hd) hw hs
  | begin h =>
    cases hp with
    | called _ hn => exact .waking rfl (by simpa using hn)
    | calledAgain hd => rw [h] at hd; contradiction
  | wake =>
    cases hp with
    | waking h hn => exact .joining h (by simpa using hn)
  | wait => rwa [List.append_nil]
  | join =>
    cases hp with
    | joining h hn => exact .taking h (by simpa using hn) rfl
  | clear =>
    cases hp with
    | taking h _ hw => exact .returned h (by simp) hw rfl
  | remove k =>
    cases hp with
    | taking h hn hw => exact .canceling k h (by simpa using hn) hw rfl
  | cancel k =>
    cases hp with
    | canceling _ h _ hw hs => exact .returned h (by simp) hw hs
  | rest => rwa [List.append_nil]

theorem Phase.append {d : Option Disposal} (hp : e.Phase ds d) (hes : .disposed ∉ es) :
    e.Phase (ds ++ es) d := by
  have hkeep (hn : Deed.disposed ∉ ds) : Deed.disposed ∉ ds ++ es := by
    simpa [List.mem_append, hn] using hes
  cases hp with
  | before h hn => exact .before h (hkeep hn)
  | called h hn => exact .called h (hkeep hn)
  | waking h hn => exact .waking h (hkeep hn)
  | joining h hn => exact .joining h (hkeep hn)
  | taking h hn hw => exact .taking h (hkeep hn) hw
  | canceling k h hn hw hs => exact .canceling k h (hkeep hn) hw hs
  | returned h hmem hw hs => exact .returned h (List.mem_append_left _ hmem) hw hs
  | calledAgain h hmem hw hs => exact .calledAgain h (List.mem_append_left _ hmem) hw hs

/-- A phase lasts as long as what is gone stays away. -/
theorem Phase.keep {d : Option Disposal} (hp : e.Phase ds d) (hd : e'.disposed = e.disposed)
    (hw : e.disposed = true → e.worker = none → e'.worker = none)
    (hs : e.disposed = true → e.slot = none → e'.slot = none) : e'.Phase ds d := by
  cases hp with
  | before h hn => exact .before (hd.trans h) hn
  | called h hn => exact .called (hd.trans h) hn
  | waking h hn => exact .waking (hd.trans h) hn
  | joining h hn => exact .joining (hd.trans h) hn
  | taking h hn hnone => exact .taking (hd.trans h) hn (hw h hnone)
  | canceling k h hn hnone hempty =>
    exact .canceling k (hd.trans h) hn (hw h hnone) (hs h hempty)
  | returned h hmem hnone hempty => exact .returned (hd.trans h) hmem (hw h hnone) (hs h hempty)
  | calledAgain h hmem hnone hempty =>
    exact .calledAgain (hd.trans h) hmem (hw h hnone) (hs h hempty)

theorem OfferEffect.phase {o o' : Offer} {d : Option Disposal} (he : e.OfferEffect o e' o' es)
    (ho : e.disposed = true → o.IsOutside) (hp : e.Phase ds d) : e'.Phase (ds ++ es) d := by
  cases he with
  | refuse | accept | reject | bump | wake | rest =>
    exact (hp.append (by simp)).keep rfl (fun _ hw => hw) fun _ hs => hs
  | fill | displace =>
    -- Nobody fills the slot of an evaluator that was disposed.
    refine (hp.append (by simp)).keep rfl (fun _ hw => hw) fun hd _ => ?_
    simpa [Offer.IsOutside] using ho hd

theorem WorkerEffect.phase [TraceSink σ] {d : Option Disposal} (he : e.WorkerEffect e' es)
    (hp : e.Phase ds d) : e'.Phase (ds ++ es) d := by
  cases he with
  | idle => rwa [List.append_nil]
  | take k hw =>
    exact (hp.append (by simp)).keep rfl (fun _ hnone => nomatch hw.symm.trans hnone) fun _ _ => rfl
  | receive hw | stop hw | proceed hw | miss hw | exhaust _ hw | publish _ hw =>
    exact (hp.append (by simp)).keep rfl (fun _ hnone => nomatch hw.symm.trans hnone) fun _ hs => hs
  | goOn _ hw | conclude _ hw | die _ hw =>
    refine (hp.append (by simp)).keep rfl (fun _ hnone => ?_) fun _ hs => hs
    rw [hnone] at hw
    contradiction

theorem OfferEffect.isOutside {o o' : Offer} (he : e.OfferEffect o e' o' es)
    (ho : e.disposed = true → o.IsOutside) (hd : e'.disposed = true) : o'.IsOutside := by
  cases he with
  | refuse k => exact .inr ⟨k, .inr rfl⟩
  | accept k h => exact absurd (h.symm.trans hd) Bool.false_ne_true
  | reject | wake | rest => exact .inl rfl
  | fill | displace | bump => simpa [Offer.IsOutside] using ho hd

theorem OfferEffect.disposed {o o' : Offer} (he : e.OfferEffect o e' o' es) :
    e'.disposed = e.disposed := by
  cases he <;> rfl

theorem WorkerEffect.disposed [TraceSink σ] (he : e.WorkerEffect e' es) :
    e'.disposed = e.disposed := by
  cases he <;> rfl

end Evaluator

namespace System

variable [Engine] {σ : Type}

/-- A disposal is in its phase, nobody else is inside the evaluator while it is under way, and
afterwards nobody gets inside. -/
structure Shutdown (s : System σ) : Prop where
  phase : s.evaluator.Phase s.history s.disposal
  alone : s.isDisposing = true → ∀ o ∈ s.offers, o.2 = .returned
  outside : s.evaluator.disposed = true → ∀ o ∈ s.offers, o.2.IsOutside
  removed : s.evaluator.disposed = false → s.keys .removed = []

variable {s s' : System σ}

theorem isDisposing_of_ne {d : Evaluator.Disposal} (hd : s.disposal = some d)
    (hne : d ≠ .returned) : s.isDisposing = true := by
  unfold isDisposing
  rw [hd]
  cases d <;> first | rfl | contradiction

/-- Once the evaluator is disposed and no disposal is under way, one has returned. -/
theorem Shutdown.over (hs : s.Shutdown) (h : s.evaluator.disposed = true)
    (hd : s.isDisposing = false) :
    .disposed ∈ s.history ∧ s.evaluator.worker = none ∧ s.evaluator.slot = none := by
  have hphase := hs.phase
  generalize hdis : s.disposal = d at hphase
  cases hphase with
  | returned _ hmem hw hslot => exact ⟨hmem, hw, hslot⟩
  | before hn => exact absurd (hn.symm.trans h) Bool.false_ne_true
  | called | waking | joining | taking | canceling | calledAgain =>
    exact absurd (hd.symm.trans (isDisposing_of_ne hdis nofun)) Bool.false_ne_true

/-- What is so once a disposal has returned. -/
theorem Shutdown.gone (hs : s.Shutdown) (h : .disposed ∈ s.history) :
    s.evaluator.disposed = true ∧ s.evaluator.worker = none ∧ s.evaluator.slot = none ∧
      (s.disposal = some .called ∨ s.disposal = some .returned) := by
  have hphase := hs.phase
  generalize hdis : s.disposal = d at hphase
  cases hphase with
  | returned hd _ hw hslot => exact ⟨hd, hw, hslot, .inr rfl⟩
  | calledAgain hd _ hw hslot => exact ⟨hd, hw, hslot, .inl rfl⟩
  | before _ hn | called _ hn | waking _ hn | joining _ hn | taking _ hn | canceling _ _ hn =>
    exact absurd h hn

variable [TraceSink σ]

theorem Shutdown.phase_step (hd : s.Shutdown) (hs : s.Step s') :
    s'.evaluator.Phase s'.history s'.disposal := by
  cases hs with
  | still => exact hd.phase
  | call | subscribe | withdraw =>
    exact (hd.phase.append (by simp)).keep rfl (fun _ h => h) fun _ h => h
  | unsubscribe | outside => exact hd.phase.keep rfl (fun _ h => h) fun _ h => h
  | offer place k ho he =>
    exact he.phase (fun h => hd.outside h _ (List.mem_of_getElem? ho)) hd.phase
  | start h =>
    exact hd.phase.keep rfl (fun hdisposed _ => absurd (h.symm.trans hdisposed) Bool.false_ne_true)
      fun _ h => h
  | dispose hq =>
    have hphase := hd.phase
    generalize hdis : s.disposal = d at hphase
    cases hphase with
    | before h hn => exact .called h hn
    | returned h hmem hw hs => exact .calledAgain h hmem hw hs
    | called | waking | joining | taking | canceling | calledAgain =>
      exact absurd (hq.symm.trans (isDisposing_of_ne hdis nofun)) Bool.false_ne_true
  | disposal hdis he => exact he.phase (hdis ▸ hd.phase)
  | work he => exact he.phase hd.phase

theorem Shutdown.alone_step (hd : s.Shutdown) (hs : s.Step s') (h : s'.isDisposing = true) :
    ∀ o ∈ s'.offers, o.2 = .returned := by
  cases hs with
  | still | start | work | subscribe | unsubscribe | withdraw | outside => exact hd.alone h
  | call k hq => exact absurd (hq.symm.trans h) Bool.false_ne_true
  | dispose _ ho => exact ho
  | offer place k ho he =>
    -- An offer that has returned has nothing left to do.
    have hret := hd.alone h _ (List.mem_of_getElem? ho)
    dsimp only at hret
    subst hret
    cases he with
    | rest =>
      intro o hmem
      rcases List.mem_or_eq_of_mem_set hmem with hmem | rfl
      · exact hd.alone h o hmem
      · rfl
  | disposal hdis he =>
    refine hd.alone (isDisposing_of_ne hdis ?_)
    rintro rfl
    cases he with
    | rest => exact absurd h Bool.false_ne_true

theorem Shutdown.outside_step (hd : s.Shutdown) (hs : s.Step s')
    (h : s'.evaluator.disposed = true) : ∀ o ∈ s'.offers, o.2.IsOutside := by
  cases hs with
  | still | start | dispose | subscribe | unsubscribe | withdraw | outside => exact hd.outside h
  | work he => exact hd.outside (he.disposed.symm.trans h)
  | call k =>
    intro o hmem
    rcases List.mem_append.mp hmem with hmem | hmem
    · exact hd.outside h o hmem
    · exact .inr ⟨k, .inl (by rw [List.mem_singleton.mp hmem])⟩
  | offer place k ho he =>
    intro o hmem
    rcases List.mem_or_eq_of_mem_set hmem with hmem | rfl
    · exact hd.outside (he.disposed.symm.trans h) o hmem
    · exact he.isOutside (fun h => hd.outside h _ (List.mem_of_getElem? ho)) h
  | disposal hdis he =>
    cases he with
    | rest => exact hd.outside h
    | again | begin | wake | wait | join | clear | remove | cancel =>
      exact fun o hmem => .inl (hd.alone (isDisposing_of_ne hdis nofun) o hmem)

theorem Shutdown.removed_step (hd : s.Shutdown) (hs : s.Step s')
    (h : s'.evaluator.disposed = false) : s'.keys .removed = [] := by
  cases hs with
  | still | start | dispose | unsubscribe | outside => exact hd.removed h
  | call | subscribe | withdraw => exact (s.keys_keep rfl).trans (hd.removed h)
  | offer place k ho he =>
    exact (s.keys_keep (he.turns .removed rfl)).trans (hd.removed (he.disposed.symm.trans h))
  | work he =>
    exact (s.keys_keep (he.turns .removed nofun)).trans (hd.removed (he.disposed.symm.trans h))
  | disposal hdis he =>
    have hphase := hd.phase
    rw [hdis] at hphase
    cases he with
    | begin => contradiction
    | remove =>
      cases hphase with
      | taking hdisposed => exact absurd (h.symm.trans hdisposed) Bool.false_ne_true
    | again | wake | wait | join | clear | cancel | rest =>
      exact (s.keys_keep rfl).trans (hd.removed h)

theorem Shutdown.step (hd : s.Shutdown) (hs : s.Step s') : s'.Shutdown :=
  ⟨hd.phase_step hs, hd.alone_step hs, hd.outside_step hs, hd.removed_step hs⟩

theorem shutdown_run (h : Host σ) (r : Runner) (as : List Action) :
    ((initial h r).run as).Shutdown := by
  have hstart : (initial h r).Shutdown :=
    ⟨.before rfl List.not_mem_nil, nofun, nofun, fun _ => rfl⟩
  exact run_invariant (fun _ _ => Shutdown.step) hstart as

end System

end LiveTrace
