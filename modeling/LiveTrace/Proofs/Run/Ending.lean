import LiveTrace.Proofs.Run.Progress
import LiveTrace.Proofs.Run.Result

/-
  How a run ends. While its entry function runs, anyone may cancel submissions: `runAmid` is a
  run with given cancellations before each of its advances, and without any it is `run`
  (`runAmid_nothing`). Such a run ends in one of four ways (`Ending`): no working directory could
  be made, a stage had the last word, a sink panicked in a start function, or the code of its
  entry function came to an end (`ending_of_runAmid`). Either way, what is kept by each of the few
  things a run does to a host is kept by the run (`Ending.keeps`).
-/
namespace LiveTrace

namespace Host

variable {σ : Type}

/-- Sets the flags of some submissions. -/
def cancelAll (h : Host σ) (ks : List Key) : Host σ := ks.foldl cancel h

variable [TraceSink σ]

/-- `h.Amid C h'`: reports of events, and cancellations of submissions in `C`, lead from `h`
to `h'`. -/
inductive Amid (C : Key → Prop) (h : Host σ) : Host σ → Prop where
  | here : Amid C h h
  | report {h₁ : Host σ} (ha : Amid C h h₁) (sid : SubmissionId) (e : Event) :
    Amid C h (h₁.report sid e).1
  | cancel {h₁ : Host σ} (ha : Amid C h h₁) {j : Key} (hj : C j) : Amid C h (h₁.cancel j)

variable {C : Key → Prop} {h h₁ h₂ : Host σ}

theorem Amid.keeps {P : Host σ → Prop} (ha : h.Amid C h₁) (hP : P h)
    (hreport : ∀ g sid e, P g → P (g.report sid e).1)
    (hcancel : ∀ g j, C j → P g → P (g.cancel j)) : P h₁ := by
  induction ha with
  | here => exact hP
  | report _ sid e ih => exact hreport _ sid e ih
  | cancel _ hj ih => exact hcancel _ _ hj ih

theorem Amid.reported (ha : h.Amid C h₁) {p : Option Panic} (hr : h₁.Reported p h₂) :
    h.Amid C h₂ :=
  hr.keeps ha fun _ sid e ha => ha.report sid e

theorem Amid.cancelAll (ha : h.Amid C h₁) {ks : List Key} (hks : ∀ j ∈ ks, C j) :
    h.Amid C (h₁.cancelAll ks) := by
  induction ks generalizing h₁ with
  | nil => exact ha
  | cons j ks ih =>
    exact ih (ha.cancel (hks j List.mem_cons_self)) fun i hi => hks i (List.mem_cons_of_mem j hi)

theorem Amid.files (ha : h.Amid C h₁) : h₁.files = h.files :=
  ha.keeps (P := fun g => g.files = h.files) rfl
    (fun g sid e hg => (report_eq_outside g sid e).1.trans hg) fun _ _ _ hg => hg

theorem Amid.current (ha : h.Amid C h₁) : h₁.current = h.current :=
  ha.keeps (P := fun g => g.current = h.current) rfl
    (fun g sid e hg => (report_current g sid e).trans hg) fun _ _ _ hg => hg

theorem Amid.idOf? (ha : h.Amid C h₁) : h₁.idOf? = h.idOf? :=
  ha.keeps (P := fun g => g.idOf? = h.idOf?) rfl
    (fun g sid e hg => (idOf?_report g sid e).trans hg)
    fun g j _ hg => (idOf?_update g j (f := Submission.cancel) fun _ => rfl).trans hg

end Host

/-! ## From the entry function to the end -/

namespace Run

variable {σ : Type} [TraceSink σ]

omit [TraceSink σ] in
/-- What a run says about its outcome goes to the log. -/
theorem noteOutcome_host (h : Host σ) (i : RunIdentity) (o : RunOutcome) :
    ∃ lines, noteOutcome h i o = h.write lines := by
  unfold noteOutcome
  cases o.note? i.id with
  | none => exact ⟨[], by simp [Host.write]⟩
  | some text => exact ⟨_, rfl⟩

variable [Engine]

/-- The sink is unwound at the end of a run, and the log tells of its outcome. -/
theorem finish_host (h : Host σ) (i : RunIdentity) (w : Workspace) (o : RunOutcome) :
    ∃ lines, (finish h i w o).1 = ((removeWorkspace h w).unwind i.key).1.write lines := by
  unfold finish
  obtain ⟨h', p | _⟩ := (removeWorkspace h w).unwind i.key
  · exact ⟨[], by simp [Host.write]⟩
  · exact noteOutcome_host h' i o

/-- No more than unwinding is done to the sinks at the end of a run. -/
theorem finish_submission? (h : Host σ) (i : RunIdentity) (w : Workspace) (o : RunOutcome) :
    (finish h i w o).1.submission? = ((removeWorkspace h w).unwind i.key).1.submission? := by
  obtain ⟨lines, hlines⟩ := finish_host h i w o
  rw [hlines]
  rfl

/-- At the end of a run, what has to do neither with files nor with the log is changed by unwinding
only. -/
theorem finish_keeps {P : Host σ → Prop} {h : Host σ} {i : RunIdentity} (hP : P h)
    (houtside : ∀ g f log, P g → P { g with files := f, log := log })
    (hunwind : ∀ g, P g → P (g.unwind i.key).1) (w : Workspace) (o : RunOutcome) :
    P (finish h i w o).1 := by
  obtain ⟨lines, hlines⟩ := finish_host h i w o
  rw [hlines]
  exact houtside _ _ _ (hunwind _ (houtside h _ _ hP))

/-- A run ends in a report that fits its outcome, unless its sink panics. -/
theorem finish_result (h : Host σ) (i : RunIdentity) (w : Workspace) (o : RunOutcome) :
    (∃ p, ((removeWorkspace h w).unwind i.key).2 = .error p ∧
        (finish h i w o).2 = .panicked p) ∨
      ∃ g : Host σ, (finish h i w o).2 = .done ⟨o, some (reportOf g i o)⟩ := by
  unfold finish
  obtain ⟨h', p | _⟩ := (removeWorkspace h w).unwind i.key
  · exact .inl ⟨p, rfl, rfl⟩
  · exact .inr ⟨_, rfl⟩

theorem finish_over (h : Host σ) (i : RunIdentity) (w : Workspace) (o : RunOutcome) :
    ∃ result, (finish h i w o).2.result? = some result := by
  rcases finish_result h i w o with ⟨p, -, hp⟩ | ⟨g, hg⟩
  · exact ⟨.error p, by rw [hp]; rfl⟩
  · exact ⟨_, by rw [hg]; rfl⟩

/-- When its code has ended, a run drops its registration and is over. -/
theorem ended_cases (h : Host σ) (r : Running) (e : GuestEnd) :
    (∃ p, ended h r e = (removeWorkspace (h.drop r.identity.id) r.workspace, .panicked p)) ∨
      ended h r e = finish (h.drop r.identity.id) r.identity r.workspace (outcomeOf e) := by
  cases e with
  | panicked p => exact .inl ⟨p, rfl⟩
  | returned | aborted | fault => exact .inr rfl

/-- Goes on to the end, if `fuel` advances are enough. Before advance `n`, counted from here, the
submissions `ws n` are canceled. -/
def toEndAmid : Nat → (Nat → List Key) → Host σ → RunState →
    Host σ × Option (Except Panic RunResult)
  | _, _, h, .done r => (h, some (.ok r))
  | _, _, h, .panicked p => (h, some (.error p))
  | 0, _, h, .running _ => (h, none)
  | fuel + 1, ws, h, .running r =>
    let (h, s) := advance (h.cancelAll (ws 0)) r
    toEndAmid fuel (fun n => ws (n + 1)) h s

theorem toEndAmid_running (fuel : Nat) (ws : Nat → List Key) (h : Host σ) (r : Running) :
    toEndAmid (fuel + 1) ws h (.running r) =
      toEndAmid fuel (fun n => ws (n + 1)) (advance (h.cancelAll (ws 0)) r).1
        (advance (h.cancelAll (ws 0)) r).2 := by
  rw [toEndAmid]

theorem toEndAmid_over {s : RunState} {result : Except Panic RunResult}
    (hs : s.result? = some result) (fuel : Nat) (ws : Nat → List Key) (h : Host σ) :
    toEndAmid fuel ws h s = (h, some result) := by
  cases s with
  | running r => contradiction
  | done r => cases fuel <;> exact congrArg (Prod.mk h) hs
  | panicked p => cases fuel <;> exact congrArg (Prod.mk h) hs

theorem toEndAmid_nothing (fuel : Nat) (h : Host σ) (s : RunState) :
    toEndAmid fuel (fun _ => []) h s = toEnd fuel h s := by
  induction fuel generalizing h s with
  | zero => cases s <;> rfl
  | succ fuel ih =>
    cases s with
    | done r => rfl
    | panicked p => rfl
    | running r =>
      rw [toEndAmid_running, toEnd]
      exact ih _ _

/-- A run that has invoked its entry function comes to its end when its code does. -/
theorem ended_of_toEndAmid {C : Key → Prop} {h g h' : Host σ} {r : Running} {fuel : Nat}
    {ws : Nat → List Key} {result : Except Panic RunResult} (hws : ∀ n, ∀ j ∈ ws n, C j)
    (hg : h.Amid C g) (hend : toEndAmid fuel ws g (.running r) = (h', some result)) :
    ∃ g' e, h.Amid C g' ∧ (ended g' r e).1 = h' ∧ (ended g' r e).2.result? = some result := by
  -- What is left of the code when it ends no longer matters.
  induction fuel generalizing g r ws with
  | zero => exact nomatch congrArg Prod.snd hend
  | succ fuel ih =>
    have hcanceled := hg.cancelAll (hws 0)
    have hadvanced := Guest.advance_reported (g.cancelAll (ws 0)) r.code
    rw [toEndAmid_running] at hend
    unfold advance at hend
    generalize Guest.advance (g.cancelAll (ws 0)) r.code = after at hend hadvanced
    obtain ⟨g', code | e⟩ := after
    · obtain ⟨g'', e, hg'', hended⟩ := ih (fun n => hws (n + 1)) (hcanceled.reported hadvanced) hend
      exact ⟨g'', e, hg'', by cases e <;> exact hended⟩
    · refine ⟨g', e, hcanceled.reported hadvanced, ?_⟩
      have hover : ∃ result, (ended g' r e).2.result? = some result := by
        rcases ended_cases g' r e with ⟨p, hp⟩ | hfinish
        · exact ⟨.error p, by rw [hp]; rfl⟩
        · rw [hfinish]
          exact finish_over _ r.identity r.workspace _
      obtain ⟨found, hfound⟩ := hover
      dsimp only at hend
      rw [toEndAmid_over hfound] at hend
      obtain ⟨hhost, hresult⟩ := Prod.mk.inj hend
      exact ⟨hhost, hresult ▸ hfound⟩

end Run

/-! ## From the beginning to the end -/

namespace Runner

variable [Engine] {σ : Type} [TraceSink σ]

/-- The run of a submission from beginning to end, if `fuel` is enough. Before advance `n` of its
entry function the submissions `ws n` are canceled. -/
def runAmid (fuel : Nat) (ws : Nat → List Key) (r : Runner) (h : Host σ) (k : Key) :
    Host σ × Option (Except Panic RunResult) :=
  match r.start fuel h k with
  | (h, none) => (h, none)
  | (h, some state) => Run.toEndAmid fuel ws h state

theorem runAmid_nothing (fuel : Nat) (r : Runner) (h : Host σ) (k : Key) :
    r.runAmid fuel (fun _ => []) h k = r.run fuel h k := by
  unfold runAmid run
  obtain ⟨h', _ | s⟩ := r.start fuel h k
  · rfl
  · exact Run.toEndAmid_nothing fuel h' s

/-- Whether a run gets as far as to invoke its entry function. -/
def invokes (fuel : Nat) (r : Runner) (h : Host σ) (k : Key) : Bool :=
  match (r.start fuel h k).2 with
  | some (.running _) => true
  | _ => false

/-- The working directory that a run gets, and the files with it. -/
def createWorkspace (r : Runner) (h : Host σ) : Files × Except WorkspaceError Workspace :=
  Workspace.create r.config.workspaceRoot h.runs h.files

/-- A run that has its working directory. -/
def begun (h : Host σ) (sub : Submission σ) (f : Files) (w : Workspace) : Stage σ :=
  ⟨Host.debug { h with files := f, runs := h.runs + 1 } s!"Submission {sub.id} runs in {w.runId}",
    w⟩

/-- Whose run it is that has its working directory. -/
def identity (k : Key) (sub : Submission σ) (f : Files) (w : Workspace) : RunIdentity :=
  ⟨k, sub.id, w.runId, sub.createdAt, f.now⟩

/-- The ways in which a run of `sub` ends that began with the host `h`: whether it invoked its
entry function, the host it leaves, and what it came to. While the function ran, submissions in
`C` were canceled. -/
inductive Ending (C : Key → Prop) (r : Runner) (h : Host σ) (k : Key) (sub : Submission σ) :
    Bool → Host σ → Except Panic RunResult → Prop where
  | homeless {f : Files} {e : WorkspaceError} (hc : r.createWorkspace h = (f, .error e)) :
    Ending C r h k sub false { h with files := f } (.ok ⟨.faulted (.workspace e), none⟩)
  | halted {f : Files} {w : Workspace} {s : Stage σ} {o : RunOutcome}
    {result : Except Panic RunResult} (hc : r.createWorkspace h = (f, .ok w))
    (hp : (begun h sub f w).Progress none s)
    (hr : (Run.finish s.host (identity k sub f w) s.workspace o).2.result? = some result) :
    Ending C r h k sub false (Run.finish s.host (identity k sub f w) s.workspace o).1 result
  | cutShort {f : Files} {w : Workspace} {s : Stage σ} {p : Panic}
    (hc : r.createWorkspace h = (f, .ok w)) (hp : (begun h sub f w).Progress (some p) s) :
    Ending C r h k sub false (Run.removeWorkspace s.host s.workspace) (.error p)
  | ended {f : Files} {w : Workspace} {s : Stage σ} {g : Host σ} {running : Running}
    {e : GuestEnd} {result : Except Panic RunResult} (hc : r.createWorkspace h = (f, .ok w))
    (hp : (begun h sub f w).Progress none s) (hi : running.identity = identity k sub f w)
    (hw : running.workspace = s.workspace) (hg : (s.host.load k).Amid C g)
    (hr : (Run.ended g running e).2.result? = some result) :
    Ending C r h k sub true (Run.ended g running e).1 result

/-- What is kept by all that a run does to a host is kept by the run. -/
theorem Ending.keeps {P : Host σ → Prop} {C : Key → Prop} {r : Runner} {h h' : Host σ} {k : Key}
    {sub : Submission σ} {invoked : Bool} {result : Except Panic RunResult}
    (hend : r.Ending C h k sub invoked h' result) (hP : P h)
    (houtside : ∀ g f log, P g → P { g with files := f, log := log })
    (hcount : ∀ g, P g → P { g with runs := g.runs + 1 })
    (hslot : ∀ g c, c = none ∨ c = some k → P g → P { g with current := c })
    (hreport : ∀ g sid e, P g → P (g.report sid e).1)
    (hcancel : ∀ g j, C j → P g → P (g.cancel j)) (hunwind : ∀ g, P g → P (g.unwind k).1) :
    P h' := by
  have hbegun (f : Files) (w : Workspace) : P (begun h sub f w).host :=
    houtside _ _ _ (hcount _ (houtside h f h.log hP))
  cases hend with
  | homeless hc => exact houtside h _ h.log hP
  | @halted f w s o result hc hp hr =>
    exact Run.finish_keeps (hp.keeps (hbegun f w) hreport houtside) houtside hunwind _ _
  | @cutShort f w s p hc hp =>
    exact houtside s.host _ _ (hp.keeps (hbegun f w) hreport houtside)
  | @ended f w s g running e result hc hp hi hw hg hr =>
    have hkey : running.identity.key = k := congrArg RunIdentity.key hi
    have hloaded : P (s.host.load k) := by
      obtain ⟨lines, hload⟩ := s.host.load_host k
      rw [hload]
      exact houtside _ _ _ (hslot _ _ (.inr rfl) (hp.keeps (hbegun f w) hreport houtside))
    have hdropped : P (g.drop running.identity.id) := by
      have hg' : P g := hg.keeps hloaded hreport hcancel
      unfold Host.drop
      split
      · exact hslot g none (.inl rfl) hg'
      · exact hg'
    rcases Run.ended_cases g running e with ⟨p, hp'⟩ | hfinish
    · rw [hp']
      exact houtside (g.drop running.identity.id) _ _ hdropped
    · rw [hfinish]
      exact Run.finish_keeps hdropped houtside (hkey ▸ hunwind) _ _

section

variable {C : Key → Prop} {r : Runner} {h h' : Host σ} {k : Key} {sub : Submission σ}
  {invoked : Bool} {result : Except Panic RunResult}

theorem Ending.idOf? (hend : r.Ending C h k sub invoked h' result) : h'.idOf? = h.idOf? :=
  hend.keeps (P := fun g => g.idOf? = h.idOf?) rfl (fun _ _ _ hg => hg) (fun _ hg => hg)
    (fun _ _ _ hg => hg) (fun g sid e hg => (Host.idOf?_report g sid e).trans hg)
    (fun g j _ hg => (Host.idOf?_update g j (f := Submission.cancel) fun _ => rfl).trans hg)
    fun g hg => (Host.idOf?_withSink g k _).trans hg

theorem Ending.runs (hend : r.Ending C h k sub invoked h' result) : h.runs ≤ h'.runs :=
  hend.keeps (P := fun g => h.runs ≤ g.runs) Nat.le.refl (fun _ _ _ hg => hg)
    (fun _ hg => Nat.le_succ_of_le hg) (fun _ _ _ hg => hg)
    (fun g sid e hg => (Host.report_eq_outside g sid e).2 ▸ hg) (fun _ _ _ hg => hg)
    fun g hg => (Host.withSink_outside g k _).2 ▸ hg

/-- A submission that is neither run nor registered nor canceled stays as it is. -/
theorem Ending.others (hend : r.Ending C h k sub invoked h' result) {j : Key} (hj : j ≠ k)
    (hcurrent : h.current ≠ some j) (hC : ¬ C j) : h'.submission? j = h.submission? j := by
  refine And.right (hend.keeps
    (P := fun g => g.current ≠ some j ∧ g.submission? j = h.submission? j) ⟨hcurrent, rfl⟩
    (fun _ _ _ hg => hg) (fun _ hg => hg) ?_ ?_ ?_ ?_)
  · rintro g c (rfl | rfl) ⟨-, hsame⟩
    · exact ⟨nofun, hsame⟩
    · exact ⟨fun heq => hj (Option.some.inj heq).symm, hsame⟩
  · rintro g sid e ⟨hother, hsame⟩
    exact ⟨Host.report_current g sid e ▸ hother, (Host.report_others g sid e hother).trans hsame⟩
  · rintro g i hi ⟨hother, hsame⟩
    have hne : i ≠ j := fun heq => hC (heq ▸ hi)
    refine ⟨hother, ?_⟩
    unfold Host.cancel
    rw [Host.submission?_update, if_neg hne, hsame]
  · rintro g ⟨hother, hsame⟩
    exact ⟨Host.withSink_current g k _ ▸ hother,
      (Host.withSink_others g (Ne.symm hj) _).trans hsame⟩

end

/-- What becomes of a run when its stages are over. -/
def entered (i : RunIdentity) :
    Stage σ × Option (Except Stage.Halt Stage.Compiled) → Host σ × Option RunState
  | (s, none) => (s.host, none)
  | (s, some (.error (.outcome o))) =>
    ((Run.finish s.host i s.workspace o).1, some (Run.finish s.host i s.workspace o).2)
  | (s, some (.error (.panicked p))) => (Run.removeWorkspace s.host s.workspace, some (.panicked p))
  | (s, some (.ok c)) =>
    ((Run.invoke s.host i s.workspace c).1, some (Run.invoke s.host i s.workspace c).2)

section

variable {r : Runner} {h : Host σ} {k : Key} {sub : Submission σ} {f : Files}

theorem start_homeless {e : WorkspaceError} (hsub : h.submission? k = some sub)
    (hc : r.createWorkspace h = (f, .error e)) (fuel : Nat) :
    r.start fuel h k =
      ({ h with files := f }, some (.done ⟨.faulted (.workspace e), none⟩)) := by
  unfold createWorkspace at hc
  unfold start
  rw [hsub]
  dsimp only
  rw [hc]

theorem start_created {w : Workspace} (hsub : h.submission? k = some sub)
    (hc : r.createWorkspace h = (f, .ok w)) (fuel : Nat) :
    r.start fuel h k =
      entered (identity k sub f w) (Stage.prepare fuel r.config (begun h sub f w) sub) := by
  unfold createWorkspace at hc
  unfold start
  rw [hsub]
  dsimp only
  rw [hc]
  dsimp only
  unfold begun identity
  obtain ⟨s, _ | (o | p) | c⟩ := Stage.prepare fuel r.config _ sub <;> rfl

/-- A run whose stages are over has invoked its entry function, or it is over as well. -/
theorem ending_of_entered {C : Key → Prop} {w : Workspace} {s : Stage σ}
    {a : Option (Except Stage.Halt Stage.Compiled)} {g : Host σ} {state : RunState}
    (hc : r.createWorkspace h = (f, .ok w))
    (hp : (begun h sub f w).Progress (a.bind (panicIn Stage.Halt.panic?)) s)
    (hentered : entered (identity k sub f w) (s, a) = (g, some state)) :
    (∃ running : Running, state = .running running ∧ running.identity = identity k sub f w ∧
      running.workspace = s.workspace ∧ g = s.host.load k ∧ (begun h sub f w).Progress none s) ∨
    ∃ result, state.result? = some result ∧ r.Ending C h k sub false g result := by
  obtain _ | (o | p) | c := a
  · exact nomatch congrArg Prod.snd hentered
  · obtain ⟨rfl, hstate⟩ := Prod.mk.inj hentered
    obtain rfl := Option.some.inj hstate
    obtain ⟨result, hresult⟩ := Run.finish_over s.host (identity k sub f w) s.workspace o
    exact .inr ⟨result, hresult, .halted hc hp hresult⟩
  · obtain ⟨rfl, hstate⟩ := Prod.mk.inj hentered
    obtain rfl := Option.some.inj hstate
    exact .inr ⟨.error p, rfl, .cutShort hc hp⟩
  · obtain ⟨rfl, hstate⟩ := Prod.mk.inj hentered
    obtain rfl := Option.some.inj hstate
    unfold Run.invoke
    cases Engine.entry? c.core c.store c.unit Assembly.entryExport with
    | none =>
      obtain ⟨result, hresult⟩ := Run.finish_over s.host (identity k sub f w) s.workspace
        (.faulted (.entryPointMissing Assembly.entryExport))
      exact .inr ⟨result, hresult, .halted hc hp hresult⟩
    | some code => exact .inl ⟨_, rfl, rfl, rfl, rfl, hp⟩

theorem ending_of_runAmid {C : Key → Prop} {fuel : Nat} {ws : Nat → List Key} {h' : Host σ}
    {result : Except Panic RunResult} (hsub : h.submission? k = some sub)
    (hws : ∀ n, ∀ j ∈ ws n, C j) (hrun : r.runAmid fuel ws h k = (h', some result)) :
    r.Ending C h k sub (r.invokes fuel h k) h' result := by
  unfold runAmid at hrun
  unfold invokes
  rcases hc : r.createWorkspace h with ⟨f, e | w⟩
  · rw [start_homeless hsub hc] at hrun ⊢
    dsimp only at hrun
    rw [Run.toEndAmid_over rfl] at hrun
    obtain ⟨rfl, hresult⟩ := Prod.mk.inj hrun
    obtain rfl := Option.some.inj hresult
    exact .homeless hc
  · rw [start_created hsub hc] at hrun ⊢
    have hprepared := Stage.prepare_progress fuel r.config (begun h sub f w) sub
    generalize Stage.prepare fuel r.config (begun h sub f w) sub = prepared at hrun hprepared ⊢
    obtain ⟨s, a⟩ := prepared
    rcases hentered : entered (identity k sub f w) (s, a) with ⟨g, _ | state⟩
    · rw [hentered] at hrun
      exact nomatch congrArg Prod.snd hrun
    · rw [hentered] at hrun
      dsimp only at hrun ⊢
      rcases ending_of_entered (k := k) hc hprepared hentered with
        ⟨running, rfl, hi, hw, rfl, hp⟩ | ⟨found, hfound, hending⟩
      · obtain ⟨g, e, hg, rfl, hresult⟩ := Run.ended_of_toEndAmid hws .here hrun
        exact .ended hc hp hi hw hg hresult
      · rw [Run.toEndAmid_over hfound] at hrun
        obtain ⟨rfl, hresult⟩ := Prod.mk.inj hrun
        obtain rfl := Option.some.inj hresult
        cases state with
        | running running => exact nomatch hfound
        | done _ => exact hending
        | panicked _ => exact hending

end

end Runner

end LiveTrace
