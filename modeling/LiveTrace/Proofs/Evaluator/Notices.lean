import LiveTrace.Proofs.Evaluator.System
import LiveTrace.Trace.Monitor
import LiveTrace.Wasm.Engine
import Mathlib.Data.List.Forall2
import Mathlib.Data.List.ReduceOption

/-
  What subscribers hear. Everyone who listens has been sent what was published since, in order
  (`Audience`); and what was published is what there was to be said about the runs that are over,
  in the order their submissions were taken (`Account`). So every run is heard of once, or not
  at all if it changed nothing (`notices_of_runs`). A sink that cannot even be unwound would take
  the worker with it.
-/
namespace LiveTrace

/-- The place of a receiver that starts to listen. -/
def Deed.place? : Deed → Option Nat
  | subscribed place => some place
  | _ => none

section

variable [Engine]

/-- What a worker is about to publish. -/
def Worker.notice? : Worker → Option Notice
  | publishing n => some n
  | _ => none

/-- The submissions that were taken and whose runs are not over: at most one. -/
def Worker.Holds : Worker → List Key → Prop
  | starting k, ks => ks = [k]
  | running r, ks => ks = [r.identity.key]
  | exhausted, ks => ∃ k, ks = [k]
  | waiting, ks | woken, ks | taking, ks | publishing _, ks | stopped, ks | dead, ks => ks = []

/-- A worker inside a run holds its submission and has nothing to publish. -/
theorem Worker.of_key? {w? : Option Worker} {k : Key} (hw : w?.bind Worker.key? = some k) :
    ∃ w, w? = some w ∧ w.notice? = none ∧ ∀ ks, w.Holds ks ↔ ks = [k] := by
  obtain ⟨w, rfl, hk⟩ := Option.bind_eq_some_iff.mp hw
  refine ⟨w, rfl, ?_⟩
  cases w with
  | starting j => exact Option.some.inj hk ▸ ⟨rfl, fun _ => Iff.rfl⟩
  | running r => exact Option.some.inj hk ▸ ⟨rfl, fun _ => Iff.rfl⟩
  | waiting | woken | taking | publishing | stopped | dead | exhausted => contradiction

/-- A worker that came to its end holds nothing and has nothing to publish. -/
theorem Worker.of_isFinished {w : Worker} (hw : w.isFinished = true) :
    w.notice? = none ∧ ∀ ks, w.Holds ks → ks = [] := by
  cases w <;> first | contradiction | exact ⟨rfl, fun _ h => h⟩

end

namespace System

section

variable [Engine] {σ : Type}

/-- What was published, in order. -/
def published (s : System σ) : List Notice := s.history.filterMap Deed.notice?

/-- What a receiver was sent is what was published since it subscribed. -/
def HasHeard (ds : List Deed) (place : Nat) (r : Receiver) : Prop :=
  ∃ before after, ds = before ++ .subscribed place :: after ∧
    .subscribed place ∉ before ++ after ∧ r.notices = after.filterMap Deed.notice?

/-- Every receiver subscribed once, and everyone who still listens is on the list of subscribers
and was sent what there was. -/
structure Audience (s : System σ) : Prop where
  subscribed : s.history.filterMap Deed.place? = List.range s.evaluator.receivers.length
  listening : ∀ place r, s.evaluator.receivers[place]? = some r → r.dropped = false →
    place ∈ s.evaluator.subscribers ∧ HasHeard s.history place r

variable {s s' : System σ}

omit [Engine] in
theorem HasHeard.append {ds es : List Deed} {place : Nat} {r r' : Receiver}
    (h : HasHeard ds place r) (hes : .subscribed place ∉ es)
    (hr : r'.notices = r.notices ++ es.filterMap Deed.notice?) : HasHeard (ds ++ es) place r' := by
  obtain ⟨before, after, rfl, honce, hnotices⟩ := h
  refine ⟨before, after ++ es, by simp, ?_, by rw [hr, hnotices, List.filterMap_append]⟩
  rw [List.mem_append] at honce ⊢
  rw [List.mem_append]
  tauto

/-- When receivers stay as they are, they hear nothing. -/
theorem Audience.keep (ha : s.Audience) {e : Evaluator σ} {os : List (Key × Evaluator.Offer)}
    {d : Option Evaluator.Disposal} {ds : List Deed}
    (hreceivers : e.receivers = s.evaluator.receivers)
    (hsubscribers : e.subscribers = s.evaluator.subscribers)
    (hplaces : ds.filterMap Deed.place? = []) (hnotices : ds.filterMap Deed.notice? = []) :
    Audience ⟨e, os, d, s.history ++ ds⟩ := by
  refine ⟨?_, fun place r hr hd => ?_⟩
  · simpa [hplaces, hreceivers] using ha.subscribed
  · obtain ⟨hmem, hheard⟩ := ha.listening place r (hreceivers ▸ hr) hd
    refine ⟨hsubscribers ▸ hmem, hheard.append (fun hds => ?_) (by rw [hnotices, List.append_nil])⟩
    have hplace : place ∈ ds.filterMap Deed.place? := List.mem_filterMap.mpr ⟨_, hds, rfl⟩
    simp [hplaces] at hplace

/-- Everyone who listens hears a notice that is published. -/
theorem Audience.publish (ha : s.Audience) (n : Notice) (w : Option Worker) :
    Audience { s with
      evaluator := { s.evaluator.publish n with worker := w }
      history := s.history ++ [.published n] } := by
  refine ⟨?_, fun place r hr hd => ?_⟩
  · rw [List.filterMap_append, ha.subscribed]
    simp [Evaluator.publish, Deed.place?]
  · dsimp only [Evaluator.publish] at hr ⊢
    rw [List.getElem?_mapIdx] at hr
    obtain ⟨r₀, hr₀, rfl⟩ := Option.map_eq_some_iff.mp hr
    have hd₀ : r₀.dropped = false := by
      split at hd <;> exact hd
    obtain ⟨hmem, hheard⟩ := ha.listening place r₀ hr₀ hd₀
    have hlistens : s.evaluator.listens place = true := by
      simp [Evaluator.listens, hr₀, hd₀]
    have hlistening : place ∈ s.evaluator.subscribers.filter s.evaluator.listens :=
      List.mem_filter.mpr ⟨hmem, hlistens⟩
    rw [if_pos (List.contains_iff_mem.mpr hlistening)]
    exact ⟨hlistening, hheard.append (by simp) rfl⟩

/-- Who subscribes has nothing to hear yet. -/
theorem Audience.subscribe (ha : s.Audience) :
    Audience { s with
      evaluator := s.evaluator.subscribe
      history := s.history ++ [.subscribed s.evaluator.receivers.length] } := by
  refine ⟨?_, fun place r hr hd => ?_⟩
  · rw [List.filterMap_append, ha.subscribed]
    simp [Evaluator.subscribe, Deed.place?, List.range_succ]
  · dsimp only [Evaluator.subscribe] at hr ⊢
    by_cases hlt : place < s.evaluator.receivers.length
    · rw [List.getElem?_append_left hlt] at hr
      obtain ⟨hmem, hheard⟩ := ha.listening place r hr hd
      refine ⟨List.mem_append_left _ hmem, hheard.append ?_ (List.append_nil _).symm⟩
      simp [Nat.ne_of_lt hlt]
    · rw [List.getElem?_append_right (Nat.le_of_not_lt hlt)] at hr
      obtain ⟨hzero, rfl⟩ := List.getElem?_eq_some_iff.mp hr
      obtain rfl : place = s.evaluator.receivers.length := by
        rw [List.length_singleton] at hzero
        omega
      have hnew : Deed.subscribed s.evaluator.receivers.length ∉ s.history := by
        intro hmem
        have hplace : s.evaluator.receivers.length ∈ s.history.filterMap Deed.place? :=
          List.mem_filterMap.mpr ⟨_, hmem, rfl⟩
        simp [ha.subscribed] at hplace
      refine ⟨List.mem_append_right _ (List.mem_singleton.mpr rfl), s.history, [], rfl, ?_, ?_⟩
      · rwa [List.append_nil]
      · simp

/-- Who drops out need not be sent anything. -/
theorem Audience.unsubscribe (ha : s.Audience) (place : Nat) :
    Audience { s with evaluator := s.evaluator.unsubscribe place } := by
  refine ⟨?_, fun other r hr hd => ?_⟩
  · simpa [Evaluator.unsubscribe] using ha.subscribed
  · dsimp only [Evaluator.unsubscribe] at hr ⊢
    rw [List.getElem?_modify] at hr
    obtain ⟨r₀, hr₀, rfl⟩ := Option.map_eq_some_iff.mp hr
    by_cases hplace : place = other
    · rw [if_pos hplace] at hd
      contradiction
    · rw [if_neg hplace] at hd ⊢
      exact ha.listening other r₀ hr₀ hd

theorem Audience.step [TraceSink σ] (ha : s.Audience) (hs : s.Step s') : s'.Audience := by
  cases hs with
  | still | start | dispose | outside => exact ⟨ha.subscribed, ha.listening⟩
  | call | withdraw => exact ha.keep rfl rfl rfl rfl
  | subscribe => exact ha.subscribe
  | unsubscribe place => exact ha.unsubscribe place
  | offer place k ho he => cases he <;> exact ha.keep rfl rfl rfl rfl
  | disposal hd he => cases he <;> exact ha.keep rfl rfl rfl rfl
  | work he =>
    cases he with
    | publish n => exact ha.publish n _
    | idle | receive | stop | proceed | miss | take | goOn | exhaust | conclude | die =>
      exact ha.keep rfl rfl rfl rfl

theorem audience_run [TraceSink σ] (h : Host σ) (r : Runner) (as : List Action) :
    ((initial h r).run as).Audience := by
  have hstart : (initial h r).Audience := ⟨rfl, nofun⟩
  exact run_invariant (fun _ _ => Audience.step) hstart as

/-! ## What is said about runs -/

/-- What was published, and what the worker is about to publish, is what there was to be said
about the runs that are over; and whoever was taken has a run that is over or in the worker's
hands. -/
structure Account (s : System σ) : Prop where
  heard : ∃ heard, List.Forall₂ (fun run n => Heard run.1 run.2 n) s.ended heard ∧
    heard.reduceOption = s.published ++ (s.evaluator.worker.bind Worker.notice?).toList
  taken : ∃ rest, s.keys .taken = s.ended.map (·.1) ++ rest ∧
    s.evaluator.worker.elim (rest = []) (·.Holds rest)

/-- A step that is about no run. -/
theorem Account.keep (ha : s.Account) {e : Evaluator σ} {os : List (Key × Evaluator.Offer)}
    {d : Option Evaluator.Disposal} {ds : List Deed}
    (hnotice : e.worker.bind Worker.notice? = s.evaluator.worker.bind Worker.notice?)
    (hholds : ∀ ks, s.evaluator.worker.elim (ks = []) (·.Holds ks) →
      e.worker.elim (ks = []) (·.Holds ks))
    (hended : ds.filterMap Deed.ended? = []) (hpublished : ds.filterMap Deed.notice? = [])
    (htaken : ds.filterMap (Deed.key? .taken) = []) :
    Account ⟨e, os, d, s.history ++ ds⟩ := by
  obtain ⟨⟨heard, hall, hsaid⟩, ⟨rest, hrest, hrestHolds⟩⟩ := ha
  refine ⟨⟨heard, ?_, ?_⟩, ⟨rest, ?_, hholds rest hrestHolds⟩⟩
  · simpa [ended, hended] using hall
  · rw [hnotice]
    simpa [published, hpublished] using hsaid
  · simpa [keys, ended, hended, htaken] using hrest

/-- The worker takes a submission. -/
theorem Account.take (ha : s.Account) (k : Key) (hw : s.evaluator.worker = some .taking) :
    Account { s with
      evaluator := { s.evaluator with slot := none, worker := some (.starting k) }
      history := s.history ++ [.turn .taken k] } := by
  obtain ⟨⟨heard, hall, hsaid⟩, ⟨rest, hrest, hholds⟩⟩ := ha
  rw [hw] at hsaid hholds
  obtain rfl : rest = [] := hholds
  refine ⟨⟨heard, ?_, ?_⟩, ⟨[k], ?_, rfl⟩⟩
  · simpa [ended, List.filterMap_cons, Deed.ended?] using hall
  · simpa [published, List.filterMap_cons, Deed.notice?, Worker.notice?] using hsaid
  · rw [List.append_nil] at hrest
    simpa [keys, ended, List.filterMap_cons, Deed.key?, Deed.ended?] using hrest

/-- A run is over, and the worker is about to publish what is to be said about it. -/
theorem Account.conclude (ha : s.Account) {k : Key}
    (hw : s.evaluator.worker.bind Worker.key? = some k) (h : Host σ) {r : Except Panic RunResult}
    {n : Option Notice} (hn : Heard k r n) :
    Account { s with
      evaluator := { s.evaluator with host := h, worker := some (n.elim .waiting .publishing) }
      history := s.history ++ [.ended k r] } := by
  obtain ⟨⟨heard, hall, hsaid⟩, ⟨rest, hrest, hholds⟩⟩ := ha
  obtain ⟨w, hw, hnone, hone⟩ := Worker.of_key? hw
  rw [hw] at hsaid hholds
  obtain rfl : rest = [k] := (hone rest).mp hholds
  refine ⟨⟨heard ++ [n], ?_, ?_⟩, ⟨[], ?_, by cases n <;> rfl⟩⟩
  · have hlast := List.rel_append hall (.cons (b := n) (a := (k, r)) hn .nil)
    simpa [ended, List.filterMap_cons, Deed.ended?] using hlast
  · rw [Option.bind_some, hnone, Option.toList_none, List.append_nil] at hsaid
    rw [List.reduceOption_append, hsaid]
    cases n <;> simp [published, Deed.notice?, Worker.notice?]
  · simpa [keys, ended, List.filterMap_cons, Deed.key?, Deed.ended?] using hrest

/-- The worker publishes what is to be said. -/
theorem Account.publish (ha : s.Account) (n : Notice)
    (hw : s.evaluator.worker = some (.publishing n)) :
    Account { s with
      evaluator := { s.evaluator.publish n with worker := some .waiting }
      history := s.history ++ [.published n] } := by
  obtain ⟨⟨heard, hall, hsaid⟩, ⟨rest, hrest, hholds⟩⟩ := ha
  rw [hw] at hsaid hholds
  refine ⟨⟨heard, ?_, ?_⟩, ⟨rest, ?_, hholds⟩⟩
  · simpa [ended, List.filterMap_cons, Deed.ended?] using hall
  · simpa [published, List.filterMap_cons, Deed.notice?, Worker.notice?] using hsaid
  · simpa [keys, ended, List.filterMap_cons, Deed.key?, Deed.ended?] using hrest

/-- A step that the worker survives. -/
theorem Account.work [TraceSink σ] (ha : s.Account) {e : Evaluator σ} {ds : List Deed}
    (he : s.evaluator.WorkerEffect e ds)
    (hsurvives : e.worker = some .dead → s.evaluator.worker = some .dead) :
    Account { s with evaluator := e, history := s.history ++ ds } := by
  cases he with
  | idle => exact ha.keep rfl (fun _ h => h) rfl rfl rfl
  | receive hw | stop hw | proceed hw | miss hw =>
    exact ha.keep (by simp [hw, Worker.notice?]) (by simp [hw, Worker.Holds]) rfl rfl rfl
  | exhaust k hw =>
    exact ha.keep (by simp [hw, Worker.notice?]) (by simp [hw, Worker.Holds]) rfl rfl rfl
  | goOn r hw =>
    obtain ⟨w, hw, hnone, hone⟩ := Worker.of_key? hw
    refine ha.keep ?_ (fun ks hks => ?_) rfl rfl rfl
    · rw [hw]
      exact hnone.symm
    · rw [hw] at hks
      exact (hone ks).mp hks
  | take k hw => exact ha.take k hw
  | conclude k hw h _ r n hn => exact ha.conclude hw h hn
  | publish n hw => exact ha.publish n hw
  | die k hw =>
    rw [hsurvives rfl] at hw
    contradiction

theorem Account.step [TraceSink σ] (ha : s.Account) (hsound : s.Sound) (hs : s.Step s')
    (hsurvives : s'.evaluator.worker = some .dead → s.evaluator.worker = some .dead) :
    s'.Account := by
  cases hs with
  | still | dispose | unsubscribe | outside => exact ⟨ha.heard, ha.taken⟩
  | call | subscribe | withdraw => exact ha.keep rfl (fun _ h => h) rfl rfl rfl
  | start _ hstarted =>
    have hnone := hsound.unstarted hstarted
    obtain ⟨⟨heard, hall, hsaid⟩, ⟨rest, hrest, hholds⟩⟩ := ha
    rw [hnone] at hsaid hholds
    exact ⟨⟨heard, hall, hsaid⟩, ⟨rest, hrest, hholds⟩⟩
  | offer place k ho he => cases he <;> exact ha.keep rfl (fun _ h => h) rfl rfl rfl
  | work he => exact ha.work he hsurvives
  | disposal hd he =>
    cases he with
    | again | begin | wake | wait | clear | remove | cancel | rest =>
      exact ha.keep rfl (fun _ h => h) rfl rfl rfl
    | join hfinished =>
      refine ha.keep ?_ (fun ks hks => ?_) rfl rfl rfl
      · cases hw : s.evaluator.worker with
        | none => rfl
        | some w => exact (Worker.of_isFinished (hfinished w hw)).1.symm
      · cases hw : s.evaluator.worker with
        | none => rwa [hw] at hks
        | some w =>
          rw [hw] at hks
          exact (Worker.of_isFinished (hfinished w hw)).2 ks hks

/-- A worker survives if all sinks can be unwound. -/
theorem Step.survives [TraceSink σ] (hunwind : ∀ sink : σ, (TraceSink.unwind sink).result = .ok ())
    (hs : s.Step s') (hsound : s.Sound) (hdead : s'.evaluator.worker = some .dead) :
    s.evaluator.worker = some .dead := by
  cases hs with
  | still | call | dispose | subscribe | unsubscribe | withdraw | outside => exact hdead
  | start => exact nomatch hdead
  | offer place k ho he => exact he.origin.2.1.symm.trans hdead
  | disposal hd he =>
    rcases he.origin.2.1 with hnone | hsame
    · exact nomatch hnone.symm.trans hdead
    · exact hsame.symm.trans hdead
  | work he =>
    cases he with
    | idle => exact hdead
    | receive | stop | proceed | miss | take | goOn | exhaust | publish => exact nomatch hdead
    | conclude _ _ _ _ _ n => cases n <;> exact nomatch hdead
    | die k hw _ _ _ q hq =>
      rcases hq with hnone | ⟨sink, hpanic⟩
      · have hthere := hsound.worker k hw
        rw [hnone] at hthere
        contradiction
      · exact nomatch (hunwind sink).symm.trans hpanic

theorem account_run [TraceSink σ] (hunwind : ∀ sink : σ, (TraceSink.unwind sink).result = .ok ())
    (h : Host σ) (r : Runner) (as : List Action) : ((initial h r).run as).Account := by
  have hstart : (initial h r).Account := ⟨⟨[], .nil, rfl⟩, ⟨[], rfl, rfl⟩⟩
  have hboth := run_invariant (P := fun s : System σ => s.Sound ∧ s.Account)
    (fun _ _ h hs => ⟨h.1.step hs, h.2.step h.1 hs (hs.survives hunwind h.1)⟩)
    ⟨sound_run h r [], hstart⟩ as
  exact hboth.2

/-- Every subscriber hears of every run exactly once, and in order, whatever the schedule, unless
unwinding a sink panics. Who still listens was sent exactly what was published since subscribing.
What was published, with what the worker is about to publish, is what there was to be said about
the runs that are over, one after another; and these are the runs of the submissions that were
taken, in the order in which they were taken, but for one that is in the worker's hands. -/
theorem notices_of_runs [TraceSink σ]
    (hunwind : ∀ sink : σ, (TraceSink.unwind sink).result = .ok ()) (h : Host σ) (r : Runner)
    (as : List Action) :
    let s := (initial h r).run as
    (∀ place receiver, s.evaluator.receivers[place]? = some receiver → receiver.dropped = false →
      HasHeard s.history place receiver) ∧
    (∃ heard, List.Forall₂ (fun run n => Heard run.1 run.2 n) s.ended heard ∧
      heard.reduceOption = s.published ++ (s.evaluator.worker.bind Worker.notice?).toList) ∧
    ∃ rest, s.keys .taken = s.ended.map (·.1) ++ rest ∧
      s.evaluator.worker.elim (rest = []) (·.Holds rest) := by
  intro s
  have haudience : s.Audience := audience_run h r as
  have haccount : s.Account := account_run hunwind h r as
  exact ⟨fun place receiver hr hd => (haudience.listening place receiver hr hd).2,
    haccount.heard, haccount.taken⟩

end

/-- Two listeners, one of whom comes when the first of three runs is already published. The run
in the middle changes nothing, so neither hears of it. -/
theorem notices_of_runs_to_two_listeners :
    let unread : Submission Monitor :=
      { id := 4, project := { sources := [.file "s"] }, sink := {} }
    let missing : Submission Monitor := { id := 5, project := { references := ["a"] }, sink := {} }
    let h : Host Monitor := { submissions := [unread, missing, unread] }
    let r : Runner := ⟨{ workspaceRoot := "w" }⟩
    let push (k : Key) : List Action :=
      [.call k, .offer k, .offer k, .offer k, .work 1, .work 1, .work 1, .work 1, .work 1]
    let as : List Action := [.start, .subscribe] ++ push 0 ++ [.subscribe] ++ push 1 ++ push 2
    ((initial h r).run as).ended.map (·.1) = [0, 1, 2] ∧
      ((initial h r).run as).published.map (·.submission) = [0, 2] ∧
      ((initial h r).run as).evaluator.receivers.map (·.notices.length) = [2, 1] ∧
      ∀ place receiver, ((initial h r).run as).evaluator.receivers[place]? = some receiver →
        HasHeard ((initial h r).run as).history place receiver := by
  intro unread missing h r push as
  have hunwind (m : Monitor) : (TraceSink.unwind m).result = .ok () := rfl
  have hrun : ((initial h r).run as).ended.map (·.1) = [0, 1, 2] ∧
      ((initial h r).run as).published.map (·.submission) = [0, 2] ∧
      ((initial h r).run as).evaluator.receivers.map (·.notices.length) = [2, 1] ∧
      ∀ receiver ∈ ((initial h r).run as).evaluator.receivers, receiver.dropped = false := by
    decide +kernel
  obtain ⟨hended, hpublished, hnotices, hstay⟩ := hrun
  refine ⟨hended, hpublished, hnotices, fun place receiver hr => ?_⟩
  exact (notices_of_runs hunwind h r as).1 place receiver hr
    (hstay receiver (List.mem_of_getElem? hr))

end System

end LiveTrace
