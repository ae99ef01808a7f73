import LiveTrace.Proofs.Evaluator.Ledger
import LiveTrace.Proofs.Evaluator.Shutdown
import LiveTrace.Wasm.Engine

/-
  No wake-up is lost. The channel holds one wake-up and further ones go nowhere, but as long as
  something waits in the slot, somebody is on the way to it (`Attended`): a wake-up, the offer
  that put it there, or the worker. So when everybody rests, the slot is empty, and what was
  swapped into it last is what the worker took last (`no_lost_wakeUp`).
-/
namespace LiveTrace

/-- An offer between its swap and its wake-up. -/
def Evaluator.Offer.IsWaking (o : Evaluator.Offer) : Prop := o = .waking ∨ ∃ k, o = .bumping k

section

variable [Engine]

/-- A worker between receiving a wake-up and emptying the slot. -/
def Worker.IsAwake (w : Worker) : Prop := w = .woken ∨ w = .taking

/-- Whether a worker waits can be computed. -/
instance : (w : Option Worker) → Decidable (w = some .waiting)
  | some .waiting => isTrue rfl
  | none | some .woken | some .taking | some (.starting _) | some (.running _)
  | some (.publishing _) | some .stopped | some .dead | some .exhausted => isFalse nofun

/-- A worker inside a run is not on the way to the slot. -/
theorem Worker.exists_not_isAwake {w? : Option Worker} {k : Key}
    (hw : w?.bind Worker.key? = some k) : ∃ w, w? = some w ∧ ¬ w.IsAwake := by
  obtain ⟨w, rfl, hk⟩ := Option.bind_eq_some_iff.mp hw
  refine ⟨w, rfl, ?_⟩
  rintro (rfl | rfl) <;> contradiction

end

namespace System

section

variable [Engine] {σ : Type}

/-- Someone is on the way to the slot. -/
def IsAttended (s : System σ) : Prop :=
  s.evaluator.wakeUp = true ∨ (∃ o ∈ s.offers, o.2.IsWaking) ∨
    ∃ w, s.evaluator.worker = some w ∧ w.IsAwake

/-- As long as offers are not refused, what is in the slot is attended to. -/
def Attended (s : System σ) : Prop :=
  s.evaluator.disposed = false → s.evaluator.slot = none ∨ s.IsAttended

variable {s s' : System σ}

omit [Engine] in
theorem mem_set_self {α : Type} {l : List α} {i : Nat} {a : α} (h : l[i]? = some a) (b : α) :
    b ∈ l.set i b :=
  List.mem_set (List.getElem?_eq_some_iff.mp h).1 b

omit [Engine] in
/-- An offer that is not on the way to the slot leaves alone those that are. -/
theorem waking_set {offers : List (Key × Evaluator.Offer)} {place : Nat} {k : Key}
    {o : Evaluator.Offer} (ho : offers[place]? = some (k, o)) (hn : ¬ o.IsWaking)
    (o' : Evaluator.Offer) (h : ∃ x ∈ offers, x.2.IsWaking) :
    ∃ x ∈ offers.set place (k, o'), x.2.IsWaking := by
  obtain ⟨x, hmem, hx⟩ := h
  obtain ⟨i, hi⟩ := List.getElem?_of_mem hmem
  have hne : place ≠ i := by
    rintro rfl
    obtain rfl := Option.some.inj (ho.symm.trans hi)
    exact hn hx
  exact ⟨x, List.mem_of_getElem? ((List.getElem?_set_ne hne).trans hi), hx⟩

/-- An offer that was on the way to the slot still is, or has sent a wake-up. -/
theorem Attended.offer (ha : s.Attended) {place : Nat} {k : Key} {o o' : Evaluator.Offer}
    {e : Evaluator σ} {ds : List Deed} (ho : s.offers[place]? = some (k, o))
    (he : s.evaluator.OfferEffect o e o' ds) :
    Attended { s with
      evaluator := e, offers := s.offers.set place (k, o'), history := s.history ++ ds } := by
  have hset := mem_set_self ho (k, o')
  cases he with
  | fill | bump => exact fun _ => .inr (.inr (.inl ⟨_, hset, .inl rfl⟩))
  | displace j => exact fun _ => .inr (.inr (.inl ⟨_, hset, .inr ⟨j, rfl⟩⟩))
  | wake => exact fun _ => .inr (.inl rfl)
  | refuse | accept | reject | rest =>
    have hothers := waking_set ho (by simp [Evaluator.Offer.IsWaking])
    exact fun hd => (ha hd).imp_right (.imp_right (.imp_left (hothers _)))

/-- A worker that was not on the way to the slot may do anything else. -/
theorem Attended.elsewhere (ha : s.Attended) {w : Worker} (hw : s.evaluator.worker = some w)
    (hn : ¬ w.IsAwake) {e : Evaluator σ} (ds : List Deed)
    (hdisposed : e.disposed = s.evaluator.disposed) (hslot : e.slot = s.evaluator.slot)
    (hwakeUp : e.wakeUp = s.evaluator.wakeUp) :
    Attended { s with evaluator := e, history := s.history ++ ds } := by
  refine fun hd => (ha (hdisposed.symm.trans hd)).imp hslot.trans ?_
  rintro (h | h | ⟨w', hw', hawake⟩)
  · exact .inl (hwakeUp.trans h)
  · exact .inr (.inl h)
  · obtain rfl := Option.some.inj (hw.symm.trans hw')
    exact absurd hawake hn

/-- A worker that was on the way to the slot still is, or has found or left it empty. -/
theorem Attended.work [TraceSink σ] (ha : s.Attended) {e : Evaluator σ} {ds : List Deed}
    (he : s.evaluator.WorkerEffect e ds) :
    Attended { s with evaluator := e, history := s.history ++ ds } := by
  cases he with
  | idle => exact ha
  | receive => exact fun _ => .inr (.inr (.inr ⟨_, rfl, .inl rfl⟩))
  | stop _ h => exact fun hd => absurd (hd.symm.trans h) Bool.false_ne_true
  | proceed => exact fun _ => .inr (.inr (.inr ⟨_, rfl, .inr rfl⟩))
  | miss _ h => exact fun _ => .inl h
  | take => exact fun _ => .inl rfl
  | goOn r hw | conclude _ hw | die _ hw =>
    obtain ⟨w, hw, hn⟩ := Worker.exists_not_isAwake hw
    exact ha.elsewhere hw hn _ rfl rfl rfl
  | exhaust k hw => exact ha.elsewhere hw (by simp [Worker.IsAwake]) _ rfl rfl rfl
  | publish n hw => exact ha.elsewhere hw (by simp [Worker.IsAwake]) _ rfl rfl rfl

theorem Attended.disposal (ha : s.Attended) {d d' : Evaluator.Disposal} {e : Evaluator σ}
    {ds : List Deed} (he : s.evaluator.DisposalEffect d e d' ds) :
    Attended { s with evaluator := e, disposal := some d', history := s.history ++ ds } := by
  cases he with
  | again | wait | cancel | rest => exact ha
  | begin => exact nofun
  | wake => exact fun _ => .inr (.inl rfl)
  | clear | remove => exact fun _ => .inl rfl
  | join h =>
    refine fun hd => (ha hd).imp_right (.imp_right (.imp_right ?_))
    -- Only a worker that came to its end is joined.
    rintro ⟨w, hw, hawake⟩
    have hfinished := h w hw
    rcases hawake with rfl | rfl <;> contradiction

theorem Attended.step [TraceSink σ] (ha : s.Attended) (hsound : s.Sound) (hs : s.Step s') :
    s'.Attended := by
  cases hs with
  | still | subscribe | unsubscribe | withdraw | outside | dispose => exact ha
  | call k =>
    refine fun hd => (ha hd).imp_right (.imp_right (.imp_left ?_))
    rintro ⟨o, hmem, ho⟩
    exact ⟨o, List.mem_append_left _ hmem, ho⟩
  | offer place k ho he => exact ha.offer ho he
  | start _ hstarted =>
    refine fun hd => (ha hd).imp_right (.imp_right (.imp_right ?_))
    rintro ⟨w, hw, -⟩
    exact nomatch (hsound.unstarted hstarted).symm.trans hw
  | disposal hdis he => exact ha.disposal he
  | work he => exact ha.work he

variable [TraceSink σ]

theorem attended_run (h : Host σ) (r : Runner) (as : List Action) :
    ((initial h r).run as).Attended := by
  have hstart : (initial h r).Attended := fun _ => .inl rfl
  have hboth := run_invariant (P := fun s : System σ => s.Sound ∧ s.Attended)
    (fun _ _ h hs => ⟨h.1.step hs, h.2.step h.1 hs⟩) ⟨sound_run h r [], hstart⟩ as
  exact hboth.2

theorem act_disposal {a : Action} (ha : a ≠ .dispose) (hn : s.disposal = none) :
    (s.act a).disposal = none := by
  cases a with
  | dispose => contradiction
  | disposal =>
    dsimp only [act]
    rw [hn]
    exact hn
  | call | offer | start =>
    dsimp only [act]
    split <;> exact hn
  | work | subscribe | unsubscribe | withdraw | outside => exact hn

/-- If nobody ever disposes of the evaluator, offers are not refused. -/
theorem not_disposed (h : Host σ) (r : Runner) {as : List Action} (hno : .dispose ∉ as) :
    ((initial h r).run as).evaluator.disposed = false := by
  have hnone {s : System σ} (hn : s.disposal = none) : (s.run as).disposal = none := by
    induction as generalizing s with
    | nil => exact hn
    | cons a as ih =>
      rw [List.mem_cons, not_or] at hno
      exact ih hno.2 (act_disposal (Ne.symm hno.1) hn)
  have hphase := (shutdown_run h r as).phase
  rw [hnone rfl] at hphase
  cases hphase with
  | before hd => exact hd

/-- Without a disposal, what waits in the slot is never forgotten: there is a wake-up, or an
offer between its swap and its wake-up, or the worker is between receiving a wake-up and emptying
the slot. So once every offer has returned and the worker waits for a wake-up that is not there,
the slot is empty and the worker took last what was swapped in last. -/
theorem no_lost_wakeUp (h : Host σ) (r : Runner) (as : List Action) (hno : .dispose ∉ as) :
    let s := (initial h r).run as
    (∀ k, s.evaluator.slot = some k → s.evaluator.wakeUp = true ∨
      (∃ o ∈ s.offers, o.2 = .waking ∨ ∃ j, o.2 = .bumping j) ∨
      s.evaluator.worker = some .woken ∨ s.evaluator.worker = some .taking) ∧
    ((∀ o ∈ s.offers, o.2 = .returned) → s.evaluator.worker = some .waiting →
      s.evaluator.wakeUp = false →
      s.evaluator.slot = none ∧ (s.keys .swapped).getLast? = (s.keys .taken).getLast?) := by
  intro s
  have hdisposed : s.evaluator.disposed = false := not_disposed h r hno
  have hsomeone := attended_run h r as hdisposed
  refine ⟨fun k hk => ?_, fun hreturned hwaiting hchannel => ?_⟩
  · rcases hsomeone with hnone | h | h | ⟨w, hw, rfl | rfl⟩
    · exact nomatch hk.symm.trans hnone
    · exact .inl h
    · exact .inr (.inl h)
    · exact .inr (.inr (.inl hw))
    · exact .inr (.inr (.inr hw))
  · have hempty : s.evaluator.slot = none := by
      rcases hsomeone with hnone | h | ⟨o, hmem, ho⟩ | ⟨w, hw, hawake⟩
      · exact hnone
      · exact absurd (hchannel.symm.trans h) Bool.false_ne_true
      · rw [hreturned o hmem] at ho
        rcases ho with ho | ⟨j, ho⟩ <;> contradiction
      · obtain rfl := Option.some.inj (hwaiting.symm.trans hw)
        rcases hawake with h | h <;> contradiction
    exact ⟨hempty, (order_run h r as).last hempty ((shutdown_run h r as).removed hdisposed)⟩

end

/-- Two offers race. First both stand behind their swaps, then the worker, woken by the first of
them, takes what the second one swapped in, runs it, and finds nothing on its next wake-up. -/
theorem no_lost_wakeUp_between_swaps :
    let missing : Project := { references := ["a"] }
    let h : Host Recorder := { submissions := [{ id := 4, project := missing, sink := {} },
      { id := 5, project := missing, sink := {} }] }
    let r : Runner := ⟨{ workspaceRoot := "w" }⟩
    let racing : List Action := [.start, .call 0, .call 1, .offer 0, .offer 1, .offer 0, .offer 1]
    let resting := racing ++ [.offer 0, .work 1, .offer 1, .work 1, .offer 1, .work 1, .work 1,
      .work 1, .work 1, .work 1]
    ((initial h r).run racing).evaluator.slot = some 1 ∧
      (∃ o ∈ ((initial h r).run racing).offers, o.2 = .waking ∨ ∃ j, o.2 = .bumping j) ∧
      ((initial h r).run resting).keys .taken = [1] ∧
      (((initial h r).run resting).keys .swapped).getLast? =
        (((initial h r).run resting).keys .taken).getLast? := by
  intro missing h r racing resting
  have hracing : ((initial h r).run racing).evaluator.slot = some 1 ∧
      ((initial h r).run racing).evaluator.worker = some .waiting ∧
      ((initial h r).run racing).evaluator.wakeUp = false := by decide +kernel
  have hresting : (∀ o ∈ ((initial h r).run resting).offers, o.2 = .returned) ∧
      ((initial h r).run resting).evaluator.worker = some .waiting ∧
      ((initial h r).run resting).evaluator.wakeUp = false ∧
      ((initial h r).run resting).keys .taken = [1] := by decide +kernel
  obtain ⟨hslot, hwaiting, hchannel⟩ := hracing
  obtain ⟨hreturned, hwaiting', hchannel', htaken⟩ := hresting
  have hattended := (no_lost_wakeUp h r racing (by simp [racing])).1 1 hslot
  rw [hwaiting, hchannel] at hattended
  have hlast := (no_lost_wakeUp h r resting (by simp [resting, racing])).2 hreturned hwaiting'
    hchannel'
  exact ⟨hslot, by simpa using hattended, htaken, hlast.2⟩

end System

end LiveTrace
