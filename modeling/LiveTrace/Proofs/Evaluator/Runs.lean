import LiveTrace.Proofs.Evaluator.Steps
import LiveTrace.Proofs.Run.Ending

/-
  The runs that an evaluator makes. Once its worker has taken a submission, its steps are those of
  one run from beginning to end, whoever is canceled between them, and then it draws its
  conclusions (`workAmid_of_runAmid`). So whatever is known of runs is known of evaluators.
-/
namespace LiveTrace.Evaluator

variable [Engine] {σ : Type} [TraceSink σ]

/-- Lets the worker take `n` steps. Before step `i`, counted from here, the submissions `ws i` are
canceled. -/
def workAmid (fuel : Nat) : Nat → (Nat → List Key) → Evaluator σ → Evaluator σ
  | 0, _, e => e
  | n + 1, ws, e =>
    workAmid fuel n (fun i => ws (i + 1))
      ({ e with host := e.host.cancelAll (ws 0) }.workerStep fuel)

theorem workAmid_succ (fuel n : Nat) (ws : Nat → List Key) (e : Evaluator σ) :
    e.workAmid fuel (n + 1) ws =
      ({ e with host := e.host.cancelAll (ws 0) }.workerStep fuel).workAmid fuel n
        fun i => ws (i + 1) := by
  rw [workAmid]

theorem workerStep_running {e : Evaluator σ} {r : Running} (hw : e.worker = some (.running r))
    (fuel : Nat) :
    e.workerStep fuel = { e with host := (Run.advance e.host r).1 }.follow r.identity.key
      (Run.advance e.host r).2 := by
  obtain ⟨host, runner, slot, wakeUp, disposed, started, worker, receivers, subscribers⟩ := e
  obtain rfl : worker = some (.running r) := hw
  rfl

theorem workerStep_starting {e : Evaluator σ} {k : Key} (hw : e.worker = some (.starting k))
    {fuel : Nat} {h : Host σ} {s : RunState} (hs : e.runner.start fuel e.host k = (h, some s)) :
    e.workerStep fuel = { e with host := h }.follow k s := by
  obtain ⟨host, runner, slot, wakeUp, disposed, started, worker, receivers, subscribers⟩ := e
  obtain rfl : worker = some (.starting k) := hw
  unfold workerStep
  dsimp only at hs ⊢
  rw [hs]

/-- Conclusions do not depend on where the worker stood. -/
theorem conclude_worker (e : Evaluator σ) (w : Option Worker) (k : Key)
    (x : Except Panic RunResult) : { e with worker := w }.conclude k x = e.conclude k x := by
  cases x with
  | ok r =>
    unfold conclude
    dsimp only
    rw [announce_eq, announce_eq]
    cases r.outcome <;> rfl
  | error p =>
    unfold conclude
    dsimp only
    generalize (e.host.error _).unwind k = after
    obtain ⟨h, q | _⟩ := after <;> rfl

theorem follow_over {s : RunState} {x : Except Panic RunResult} (hs : s.result? = some x)
    (e : Evaluator σ) (k : Key) : e.follow k s = e.conclude k x := by
  cases s with
  | running r => contradiction
  | done r =>
    obtain rfl := Option.some.inj hs
    rfl
  | panicked p =>
    obtain rfl := Option.some.inj hs
    rfl

section

variable {h' : Host σ} {k : Key} {x : Except Panic RunResult}

/-- A run that has invoked its entry function is brought to its end step by step. -/
theorem workAmid_of_toEndAmid {e : Evaluator σ} {r : Running} {steps : Nat} {ws : Nat → List Key}
    (hw : e.worker = some (.running r)) (hk : r.identity.key = k)
    (hrun : Run.toEndAmid steps ws e.host (.running r) = (h', some x)) (fuel : Nat) :
    ∃ n, e.workAmid fuel n ws = { e with host := h' }.conclude k x := by
  induction steps generalizing e r ws with
  | zero => exact nomatch congrArg Prod.snd hrun
  | succ steps ih =>
    have hof := Run.advance_isOf (e.host.cancelAll (ws 0)) r
    have hstep := workerStep_running (e := { e with host := e.host.cancelAll (ws 0) }) hw fuel
    rw [hk] at hstep
    rw [Run.toEndAmid_running] at hrun
    generalize Run.advance (e.host.cancelAll (ws 0)) r = after at hrun hof hstep
    obtain ⟨h₁, state⟩ := after
    cases hstate : state.result? with
    | some found =>
      dsimp only at hrun hstep
      rw [Run.toEndAmid_over hstate] at hrun
      obtain ⟨rfl, hfound⟩ := Prod.mk.inj hrun
      obtain rfl := Option.some.inj hfound
      refine ⟨1, ?_⟩
      rw [workAmid_succ, hstep, follow_over hstate]
      rfl
    | none =>
      cases state with
      | done | panicked => contradiction
      | running r' =>
        have hk' : r'.identity.key = k := (show r'.identity.key = r.identity.key from hof).trans hk
        obtain ⟨n, hn⟩ := ih (e := { e with host := h₁, worker := some (.running r') }) rfl hk' hrun
        refine ⟨n + 1, ?_⟩
        rw [workAmid_succ, hstep]
        exact hn.trans (conclude_worker { e with host := h' } _ k x)

/-- What the worker does with a submission it has taken is a run, and what follows from it. -/
theorem workAmid_of_runAmid {e : Evaluator σ} {fuel : Nat} {ws : Nat → List Key}
    (hw : e.worker = some (.starting k))
    (hrun : e.runner.runAmid fuel ws e.host k = (h', some x)) :
    ∃ n, (e.workerStep fuel).workAmid fuel n ws = { e with host := h' }.conclude k x := by
  obtain ⟨-, hof⟩ := start_labels fuel e.runner e.host k
  unfold Runner.runAmid at hrun
  rcases hstart : e.runner.start fuel e.host k with ⟨h₁, _ | state⟩
  · rw [hstart] at hrun
    exact nomatch congrArg Prod.snd hrun
  · rw [hstart] at hrun hof
    rw [workerStep_starting hw hstart]
    dsimp only at hrun
    cases hstate : state.result? with
    | some found =>
      rw [Run.toEndAmid_over hstate] at hrun
      obtain ⟨rfl, hfound⟩ := Prod.mk.inj hrun
      obtain rfl := Option.some.inj hfound
      exact ⟨0, follow_over hstate _ k⟩
    | none =>
      cases state with
      | done | panicked => contradiction
      | running r =>
        obtain ⟨n, hn⟩ := workAmid_of_toEndAmid
          (e := { e with host := h₁, worker := some (.running r) }) rfl (hof _ rfl) hrun fuel
        exact ⟨n, hn.trans (conclude_worker { e with host := h' } _ k x)⟩

end

end LiveTrace.Evaluator
