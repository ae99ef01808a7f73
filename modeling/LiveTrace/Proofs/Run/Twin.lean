import LiveTrace.Proofs.Run.Course
import LiveTrace.Proofs.Trace.Monitor

/-
  Two runs of one submission step by step, one of which reports cancellation after `n` events.
  Until then the two hosts differ in that limit and in nothing else (`Counting`, `limit`), and
  every part of a run does the same to both. When the limit is reached, they part: the run with
  the limit is told to stop, and comes to its end with no more than closing what is open, while
  the other one goes on and takes more events (`Parted`). `Twin` says that one of the two is so,
  and the lemmas that it is so for each part of a run.
-/
namespace LiveTrace

/-! ## Events are only added -/

namespace Monitor

/-- A call that loses no event. -/
def Grows {α : Type} (call : SinkCall Monitor α) : Prop :=
  ∀ m : Monitor, m.events <+: (call m).sink.events

section

variable {α β : Type}

theorem grows_pure (a : α) : Grows (pure a : SinkCall Monitor α) := fun _ => List.prefix_rfl

theorem Grows.bind {call : SinkCall Monitor α} {f : α → SinkCall Monitor β} (h : Grows call)
    (hf : ∀ a, Grows (f a)) : Grows (call >>= f) := by
  intro m
  change m.events <+: (SinkCall.andThen call f m).sink.events
  unfold SinkCall.andThen
  split
  · exact (h m).trans (hf _ _)
  · exact h m

theorem grows_record (e : Event) : Grows (TraceSink.record e) := by
  intro m
  dsimp only [TraceSink.record]
  cases m.panic? e with
  | some p => exact List.prefix_rfl
  | none =>
    change m.events <+: if m.keeps then m.events ++ [e] else m.events
    split
    · exact List.prefix_append _ _
    · exact List.prefix_rfl

theorem grows_goesOn (flag : Bool) : Grows (Event.goesOn flag) := fun _ => List.prefix_rfl

theorem grows_offer (flag : Bool) (e : Event) : Grows (e.offer flag) := by
  unfold Event.offer
  cases e with
  | endMethod | endLoop => exact (grows_record _).bind fun _ => grows_goesOn flag
  | endIteration id =>
    refine (grows_record _).bind fun _ => (grows_goesOn flag).bind fun answer => ?_
    split
    · exact grows_pure true
    · exact (grows_record _).bind fun _ => grows_pure false
  | beginIteration id =>
    refine (grows_goesOn flag).bind fun answer => ?_
    split
    · exact (grows_record _).bind fun _ => grows_pure true
    · exact (grows_record _).bind fun _ => grows_pure false
  | beginMethod | beginLoop | change | ret =>
    refine (grows_goesOn flag).bind fun answer => ?_
    split
    · exact (grows_record _).bind fun _ => grows_pure true
    · exact grows_pure false

end

end Monitor

namespace Host

/-- The events that the monitor of a submission kept. -/
def events? (h : Host Monitor) (k : Key) : Option (List Event) :=
  (h.submission? k).map (·.sink.events)

/-- The monitor of a submission has taken some events, and maybe more. -/
def HasTaken (h : Host Monitor) (k : Key) (start : List Event) : Prop :=
  ∃ events, h.events? k = some events ∧ start <+: events

section

variable {h h' : Host Monitor} {j k : Key} {start : List Event} {p : Option Panic}

theorem HasTaken.withSink {α : Type} (ht : h.HasTaken k start)
    {call : Bool → SinkCall Monitor α} (hcall : ∀ flag, Monitor.Grows (call flag)) :
    (h.withSink j call).1.HasTaken k start := by
  obtain ⟨events, hevents, hprefix⟩ := ht
  obtain ⟨s, hs, rfl⟩ := Option.map_eq_some_iff.mp hevents
  refine ⟨_, congrArg (Option.map _) (withSink_submission? h j call hs), ?_⟩
  split
  · exact hprefix.trans (hcall s.canceled s.sink)
  · exact hprefix

theorem HasTaken.report (ht : h.HasTaken k start) (sid : SubmissionId) (e : Event) :
    (h.report sid e).1.HasTaken k start := by
  cases hj : h.registered? sid with
  | none => rwa [report_unregistered hj]
  | some j =>
    rw [report_registered hj]
    exact ht.withSink fun flag => Monitor.grows_offer flag e

theorem HasTaken.unwind (ht : h.HasTaken k start) (j : Key) :
    (h.unwind j).1.HasTaken k start :=
  ht.withSink fun _ _ => List.prefix_rfl

theorem HasTaken.move (ht : h.HasTaken k start) (hm : h.Move j h') : h'.HasTaken k start := by
  cases hm with
  | outside => exact ht
  | load =>
    unfold Host.load
    dsimp only
    split <;> exact ht
  | drop id =>
    unfold Host.drop
    split <;> exact ht
  | report sid e => exact ht.report sid e
  | unwind => exact ht.unwind j

theorem HasTaken.course (ht : h.HasTaken k start) (hc : h.Course j p h') :
    h'.HasTaken k start := by
  induction hc with
  | here => exact ht
  | move _ hm ih => exact ih.move hm
  | reportPanic _ _ ih => exact ih.report _ _
  | unwindPanic _ _ ih => exact ih.unwind _

end

end Host

/-! ## Two hosts -/

namespace Host

/-- The host in which the monitor of a submission has a limit. -/
def limit (h : Host Monitor) (k : Key) (n : Nat) : Host Monitor :=
  h.update k fun s => { s with sink := s.sink.limited n }

/-- The submission `k` is not canceled, and its monitor took `n` events at most. If another one is
registered, it took none. -/
structure Counting (h : Host Monitor) (k : Key) (n : Nat) : Prop where
  counted : ∃ s, h.submission? k = some s ∧ s.canceled = false ∧ s.sink.Counted n
  reach : h.current = some k ∨ h.current = none ∨ h.events? k = some []

/-- The monitor of a submission was cut off behind some events. -/
def IsCutOff (h : Host Monitor) (k : Key) (start : List Event) : Prop :=
  ∃ s, h.submission? k = some s ∧ s.sink.CutOff start

/-- The monitor of `k` was cut off behind `n` events in `g`, which are the first ones in `h`. -/
def Parted (k : Key) (n : Nat) (h g : Host Monitor) : Prop :=
  ∃ start, start.length = n ∧ h.HasTaken k start ∧ g.IsCutOff k start

/-- The same was done to two hosts. Either it came to the same, the hosts differ in the limit, and
a panic was that of another monitor; or the one with the limit was told to stop. -/
inductive Twin (k : Key) (n : Nat) {α : Type} (stops : α → Prop) (panic? : α → Option Panic) :
    Host Monitor × α → Host Monitor × α → Prop where
  | together {h : Host Monitor} {a : α} (hc : h.Counting k n)
    (hp : ∀ p, panic? a = some p → h.events? k = some []) :
    Twin k n stops panic? (h, a) (h.limit k n, a)
  | parted {h g : Host Monitor} {a b : α} (hp : Parted k n h g) (hs : stops b) :
    Twin k n stops panic? (h, a) (g, b)

section

variable {h g : Host Monitor} {k : Key} {n : Nat}

/-- Where there is no panic, coming to the same is all there is to it. -/
theorem Twin.quiet {α : Type} {stops : α → Prop} {panic? : α → Option Panic} {a : α}
    (hc : h.Counting k n) (ha : panic? a = none) :
    Twin k n stops panic? (h, a) (h.limit k n, a) :=
  .together hc fun p hp => absurd (hp.symm.trans ha) (Option.some_ne_none p)

theorem Parted.course (hp : Parted k n h g) {j : Key} {p : Option Panic} {h' : Host Monitor}
    (hc : h.Course j p h') : Parted k n h' g := by
  obtain ⟨start, hlength, htaken, hcut⟩ := hp
  exact ⟨start, hlength, htaken.course hc, hcut⟩

theorem limit_labels (h : Host Monitor) (k : Key) (n : Nat) : (h.limit k n).labels = h.labels := by
  refine List.ext_getElem? fun j => ?_
  rw [labels_getElem?, labels_getElem?]
  unfold limit
  rw [submission?_update]
  split
  · rw [Option.map_map]
    rfl
  · rfl

theorem limit_submission? (h : Host Monitor) (k : Key) (n : Nat) (j : Key) :
    (h.limit k n).submission? j = if k = j then
      (h.submission? j).map fun s => { s with sink := s.sink.limited n } else h.submission? j :=
  submission?_update h k _ j

theorem limit_idOf? (h : Host Monitor) (k : Key) (n : Nat) : (h.limit k n).idOf? = h.idOf? := by
  funext j
  unfold idOf?
  rw [limit_submission?]
  split
  · rw [Option.map_map]
    rfl
  · rfl

theorem registered?_limit (h : Host Monitor) (k : Key) (n : Nat) (sid : SubmissionId) :
    (h.limit k n).registered? sid = h.registered? sid := by
  unfold registered?
  rw [limit_idOf?]
  rfl

theorem isActive_limit (h : Host Monitor) (k : Key) (n : Nat) (sid : SubmissionId) :
    (h.limit k n).isActive sid = h.isActive sid := by
  unfold isActive
  rw [registered?_limit]
  simp only [isCanceled_eq, limit_labels]

theorem currentId?_limit (h : Host Monitor) (k : Key) (n : Nat) :
    (h.limit k n).currentId? = h.currentId? := by
  unfold currentId?
  rw [limit_idOf?]
  rfl

/-- A call to another sink knows nothing of the limit. -/
theorem withSink_limit {α : Type} {j : Key} (hj : j ≠ k) (call : Bool → SinkCall Monitor α) :
    (h.limit k n).withSink j call =
      ((h.withSink j call).1.limit k n, (h.withSink j call).2) := by
  unfold withSink
  rw [limit_submission?, if_neg (Ne.symm hj)]
  cases h.submission? j with
  | none => rfl
  | some s =>
    unfold limit update write
    dsimp only
    rw [List.modify_modify_ne _ _ _ (Ne.symm hj)]

theorem update_limit (h : Host Monitor) (k : Key) (n : Nat) (m : Monitor) :
    (h.limit k n).update k (fun s => { s with sink := m.limited n }) =
      (h.update k fun s => { s with sink := m }).limit k n := by
  unfold limit update
  dsimp only
  rw [List.modify_modify_eq, List.modify_modify_eq]
  rfl

theorem Counting.outside (hc : h.Counting k n) (f : Files) (log : List LogLine) (runs : Nat) :
    Counting { h with files := f, log := log, runs := runs } k n := ⟨hc.counted, hc.reach⟩

theorem Counting.ne_registered (hc : h.Counting k n) {sid : SubmissionId} {j : Key}
    (hj : h.registered? sid = some j) (hne : j ≠ k) : h.events? k = some [] := by
  have hcurrent : h.current = some j := (Option.filter_eq_some_iff.mp hj).1
  rcases hc.reach with h | h | h
  · exact absurd (Option.some.inj (hcurrent.symm.trans h)) hne
  · exact nomatch hcurrent.symm.trans h
  · exact h

end

/-! ## Code that calls hooks -/

section

variable {h : Host Monitor} {k : Key} {n : Nat}

/-- An event is offered to the monitor of `k` in both hosts. -/
theorem Counting.offer (hc : h.Counting k n) (hcurrent : h.current = some k) (e : Event) :
    Twin k n (· = .ok false) (panicIn some) (h.withSink k (e.offer ·))
      ((h.limit k n).withSink k (e.offer ·)) := by
  obtain ⟨s, hs, hflag, hm⟩ := hc.counted
  have hevents := Monitor.take_events hm.keeps e
  obtain ⟨hfree, htaken⟩ := hm.offer e
  have hs' : (h.limit k n).submission? k = some { s with sink := s.sink.limited n } := by
    rw [limit_submission?, if_pos rfl, hs]
    rfl
  have hafter := withSink_submission? h k (e.offer ·) hs
  rw [if_pos rfl, hflag, hfree] at hafter
  have hanswer : (h.withSink k (e.offer ·)).2 = .ok true := by
    rw [withSink_of_submission? hs, hflag, hfree]
  rcases htaken with ⟨hnext, hcut⟩ | ⟨start, hlength, hprefix, hoff, hresult⟩
  · have hsame : (h.limit k n).withSink k (e.offer ·) =
        ((h.withSink k (e.offer ·)).1.limit k n, (h.withSink k (e.offer ·)).2) := by
      rw [withSink_of_submission? hs, withSink_of_submission? hs']
      dsimp only
      rw [hflag, hfree, hcut, update_limit]
      rfl
    have hstays := (withSink_current h k (e.offer ·)).trans hcurrent
    rw [hsame]
    generalize h.withSink k (e.offer ·) = x at hafter hanswer hstays ⊢
    obtain ⟨h', a⟩ := x
    obtain rfl : a = .ok true := hanswer
    exact .quiet ⟨⟨_, hafter, rfl, hnext⟩, .inl hstays⟩ rfl
  · have hafter' := withSink_submission? (h.limit k n) k (e.offer ·) hs'
    have hanswer' : ((h.limit k n).withSink k (e.offer ·)).2 = .ok false := by
      rw [withSink_of_submission? hs', hflag]
      exact hresult
    rw [if_pos rfl, hflag] at hafter'
    generalize h.withSink k (e.offer ·) = x at hafter ⊢
    generalize (h.limit k n).withSink k (e.offer ·) = y at hafter' hanswer' ⊢
    refine .parted ⟨start, hlength, ⟨_, ?_, hprefix⟩, _, hafter', hoff⟩ hanswer'
    rw [events?, hafter, ← hevents]
    rfl

theorem report_twin (hc : h.Counting k n) (sid : SubmissionId) (e : Event) :
    Twin k n (· = .error .aborted) (panicIn fun s => (CallFault.stop s).panic?) (h.report sid e)
      ((h.limit k n).report sid e) := by
  cases hj : h.registered? sid with
  | none =>
    rw [report_unregistered hj, report_unregistered ((registered?_limit h k n sid).trans hj)]
    exact .quiet hc rfl
  | some j =>
    rw [report_registered hj, report_registered ((registered?_limit h k n sid).trans hj)]
    by_cases hk : j = k
    · subst hk
      have hcurrent : h.current = some j := (Option.filter_eq_some_iff.mp hj).1
      have hoffer := hc.offer hcurrent e
      generalize h.withSink j (e.offer ·) = x at hoffer ⊢
      generalize (h.limit j n).withSink j (e.offer ·) = y at hoffer ⊢
      cases hoffer with
      | @together h' a hc' hp =>
        refine .together hc' fun p hpanic => hp p ?_
        rcases a with q | _ | _
        · exact hpanic
        · contradiction
        · contradiction
      | parted hp hs => exact .parted hp (by rw [hs])
    · have hunheard := hc.ne_registered hj hk
      rw [withSink_limit hk]
      obtain ⟨s, hs, hflag, hm⟩ := hc.counted
      have hafter := withSink_submission? h j (e.offer ·) hs
      rw [if_neg hk] at hafter
      have hstill : (h.withSink j (e.offer ·)).1.events? k = some [] := by
        rw [events?, hs] at hunheard
        rw [events?, hafter]
        exact hunheard
      exact .together ⟨⟨s, hafter, hflag, hm⟩, .inr (.inr hstill)⟩ fun _ _ => hstill

theorem call_twin (hc : h.Counting k n) (m : Option Wasm.Memory) (c : GuestCall) :
    Twin k n (· = .error (.stop .aborted)) (panicIn CallFault.panic?) (h.call m c)
      ((h.limit k n).call m c) := by
  unfold Host.call
  rw [isActive_limit]
  split
  · exact .quiet hc rfl
  · cases c.report.event m c.id with
    | error e => exact .quiet hc rfl
    | ok e =>
      have hreport := report_twin hc c.sid e
      dsimp only
      generalize h.report c.sid e = x at hreport ⊢
      generalize (h.limit k n).report c.sid e = y at hreport ⊢
      cases hreport with
      | @together h' a hc' hp =>
        cases a <;> exact .together hc' hp
      | @parted h' g' a b hp hs =>
        rw [hs]
        cases a <;> exact .parted hp rfl

end

end Host

namespace Guest

open Host (Twin Counting)

variable [Engine] {h : Host Monitor} {k : Key} {n : Nat}

theorem callHook_twin (hc : h.Counting k n) (hook : Hook) (operands : List Wasm.Value)
    (memory : Option Wasm.Memory) (next : Engine.Code) :
    Twin k n (· = .ended .aborted) panic? (callHook h hook operands memory next)
      (callHook (h.limit k n) hook operands memory next) := by
  unfold callHook
  cases GuestCall.ofOperands? hook operands with
  | none => exact .quiet hc rfl
  | some c =>
    have hcall := Host.call_twin hc memory c
    dsimp only
    generalize h.call memory c = x at hcall ⊢
    generalize (h.limit k n).call memory c = y at hcall ⊢
    cases hcall with
    | @together h' a hc' hp =>
      rcases a with e | _
      · exact .together hc' fun p hpanic => hp p (e.panic?_guestEnd.symm.trans hpanic)
      · exact .quiet hc' rfl
    | @parted h' g' a b hp hs =>
      rw [hs]
      cases a <;> exact .parted hp rfl

theorem advance_twin (hc : h.Counting k n) (c : Engine.Code) :
    Twin k n (· = .ended .aborted) panic? (advance h c) (advance (h.limit k n) c) := by
  unfold advance
  cases Engine.resume c with
  | returned s => exact .quiet hc rfl
  | trap t => exact .quiet hc rfl
  | tired next => exact .quiet hc rfl
  | hook hook operands memory next => exact callHook_twin hc hook operands memory next

theorem drive_twin (fuel : Nat) (hc : h.Counting k n) (c : Engine.Code) :
    Twin k n (· = some .aborted) (·.bind GuestEnd.panic?) (drive fuel h c)
      (drive fuel (h.limit k n) c) := by
  induction fuel generalizing h c with
  | zero => exact .quiet hc rfl
  | succ fuel ih =>
    have hfirst := advance_twin hc c
    unfold drive
    generalize advance h c = x at hfirst ⊢
    generalize advance (h.limit k n) c = y at hfirst ⊢
    cases hfirst with
    | @together h' a hc' hp =>
      cases a with
      | running c' => exact ih hc' c'
      | ended e => exact .together hc' hp
    | @parted h' g' a b hp hs =>
      rw [hs]
      cases a with
      | running c' => exact .parted (hp.course ((drive_reported fuel h' c').course k)) rfl
      | ended e => exact .parted hp rfl

end Guest

/-! ## The stages of a run -/

namespace Stage

open Host (Counting Parted)

/-- Twins in working directories. As long as nothing parted them, these are the same. -/
inductive Twin (k : Key) (n : Nat) {α : Type} (stops : α → Prop) (panic? : α → Option Panic) :
    Stage Monitor × α → Stage Monitor × α → Prop where
  | together {h : Host Monitor} {w : Workspace} {a : α} (hc : h.Counting k n)
    (hp : ∀ p, panic? a = some p → h.events? k = some []) :
    Twin k n stops panic? (⟨h, w⟩, a) (⟨h.limit k n, w⟩, a)
  | parted {s t : Stage Monitor} {a b : α} (hp : Parted k n s.host t.host) (hs : stops b) :
    Twin k n stops panic? (s, a) (t, b)

section

variable {k : Key} {n : Nat} {h : Host Monitor}

theorem Twin.quiet {α : Type} {stops : α → Prop} {panic? : α → Option Panic} {a : α}
    {w : Workspace} (hc : h.Counting k n) (ha : panic? a = none) :
    Twin k n stops panic? (⟨h, w⟩, a) (⟨h.limit k n, w⟩, a) :=
  .together hc fun p hp => absurd (hp.symm.trans ha) (Option.some_ne_none p)

/-- What is done in a working directory has to do with no monitor. -/
theorem inWorkspace_twin (hc : h.Counting k n) (w : Workspace)
    (action : Workspace → Files → Staging) :
    Twin k n (fun _ => False) (fun _ => none) (inWorkspace ⟨h, w⟩ action)
      (inWorkspace ⟨h.limit k n, w⟩ action) := by
  unfold inWorkspace
  dsimp only
  rw [show (h.limit k n).files = h.files from rfl]
  cases (action w h.files).result with
  | ok path => exact .quiet (hc.outside _ h.log h.runs) rfl
  | error e => exact .quiet (hc.outside _ h.log h.runs) rfl

theorem stageDependency_twin (hc : h.Counting k n) (c : EvaluatorConfig) (w : Workspace)
    (path : String) :
    Twin k n (fun _ => False) (fun _ => none) (stageDependency c ⟨h, w⟩ path)
      (stageDependency c ⟨h.limit k n, w⟩ path) := by
  unfold stageDependency
  change Twin _ _ _ _ _ (if !h.files.pathExists path then _ else _)
  split
  · exact .quiet hc rfl
  · split
    · exact .quiet hc rfl
    · exact inWorkspace_twin hc w _

theorem stageDependencies_twin (hc : h.Counting k n) (c : EvaluatorConfig) (w : Workspace)
    (paths : List String) :
    Twin k n (fun _ => False) (fun _ => none) (stageDependencies c ⟨h, w⟩ paths)
      (stageDependencies c ⟨h.limit k n, w⟩ paths) := by
  induction paths generalizing h w with
  | nil => exact .quiet hc rfl
  | cons path rest ih =>
    have hfirst := stageDependency_twin hc c w path
    unfold stageDependencies
    generalize stageDependency c ⟨h, w⟩ path = x at hfirst ⊢
    generalize stageDependency c ⟨h.limit k n, w⟩ path = y at hfirst ⊢
    cases hfirst with
    | parted _ hs => exact hs.elim
    | @together h' w' a hc' hp =>
      rcases a with e | first
      · exact .quiet hc' rfl
      · have hrest := ih hc' w'
        dsimp only
        generalize stageDependencies c ⟨h', w'⟩ rest = x at hrest ⊢
        generalize stageDependencies c ⟨h'.limit k n, w'⟩ rest = y at hrest ⊢
        cases hrest with
        | parted _ hs => exact hs.elim
        | @together h'' w'' b hc'' hp =>
          cases b <;> exact .quiet hc'' rfl

variable [Engine]

theorem instantiate_twin (fuel : Nat) (hc : h.Counting k n) (l : Linking) (m : Engine.Module) :
    Host.Twin k n (· = some .failed) (·.bind Instantiated.panic?) (instantiate fuel h l m)
      (instantiate fuel (h.limit k n) l m) := by
  unfold instantiate
  cases Engine.instantiate? l.core l.linker l.store m with
  | none => exact .quiet hc rfl
  | some i =>
    dsimp only
    cases i.start with
    | none => exact .quiet hc rfl
    | some c =>
      have hdrive := Guest.drive_twin fuel hc c
      dsimp only
      generalize Guest.drive fuel h c = x at hdrive ⊢
      generalize Guest.drive fuel (h.limit k n) c = y at hdrive ⊢
      cases hdrive with
      | @together h' b hc' hp =>
        rcases b with _ | e
        · exact .quiet hc' rfl
        · cases e with
          | panicked p => exact .together hc' hp
          | returned | fault | aborted => exact .quiet hc' rfl
      | @parted h' g' b b' hp hs =>
        rw [hs]
        rcases b with _ | e
        · exact .parted hp rfl
        · cases e <;> exact .parted hp rfl

/-- A dependency that is told to stop cannot be linked. -/
theorem linkDependency_twin (fuel : Nat) (hc : h.Counting k n) (w : Workspace) (l : Linking)
    (path : String) :
    Twin k n (∃ o, · = some (.error (.outcome o))) (·.bind (panicIn Halt.panic?))
      (linkDependency fuel ⟨h, w⟩ l path) (linkDependency fuel ⟨h.limit k n, w⟩ l path) := by
  unfold linkDependency
  rw [show loadModule? (⟨h.limit k n, w⟩ : Stage Monitor) l.core path =
    loadModule? ⟨h, w⟩ l.core path from rfl]
  cases loadModule? (⟨h, w⟩ : Stage Monitor) l.core path with
  | none => exact .quiet hc rfl
  | some m =>
    have hinst := instantiate_twin fuel hc l m
    dsimp only
    generalize instantiate fuel h l m = x at hinst ⊢
    generalize instantiate fuel (h.limit k n) l m = y at hinst ⊢
    cases hinst with
    | @together h' a hc' hp =>
      rcases a with _ | i
      · exact .quiet hc' rfl
      · cases i with
        | failed => exact .quiet hc' rfl
        | panicked p => exact .together hc' hp
        | ok store unit =>
          dsimp only
          cases Engine.register? l.linker store (moduleName path) unit with
          | none => exact .quiet hc' rfl
          | some linker => exact .quiet hc' rfl
    | @parted h' g' a b hp hs =>
      rw [hs]
      rcases a with _ | i
      · exact .parted hp ⟨_, rfl⟩
      · cases i with
        | failed | panicked => exact .parted hp ⟨_, rfl⟩
        | ok store unit =>
          dsimp only
          cases Engine.register? l.linker store (moduleName path) unit <;>
            exact .parted hp ⟨_, rfl⟩

theorem linkDependencies_twin (fuel : Nat) (hc : h.Counting k n) (w : Workspace) (l : Linking)
    (paths : List String) :
    Twin k n (∃ o, · = some (.error (.outcome o))) (·.bind (panicIn Halt.panic?))
      (linkDependencies fuel ⟨h, w⟩ l paths) (linkDependencies fuel ⟨h.limit k n, w⟩ l paths) := by
  induction paths generalizing h w l with
  | nil => exact .quiet hc rfl
  | cons path rest ih =>
    have hfirst := linkDependency_twin fuel hc w l path
    unfold linkDependencies
    generalize linkDependency fuel ⟨h, w⟩ l path = x at hfirst ⊢
    generalize linkDependency fuel ⟨h.limit k n, w⟩ l path = y at hfirst ⊢
    cases hfirst with
    | @together h' w' a hc' hp =>
      obtain _ | e | l' := a
      · exact .quiet hc' rfl
      · exact .together hc' hp
      · exact ih hc' w' l'
    | @parted s t a b hp hs =>
      obtain ⟨o, rfl⟩ := hs
      obtain _ | e | l' := a
      · exact .parted hp ⟨o, rfl⟩
      · exact .parted hp ⟨o, rfl⟩
      · exact .parted (hp.course ((linkDependencies_progress fuel s l' rest).course k)) ⟨o, rfl⟩

theorem compile_twin (fuel : Nat) (hc : h.Counting k n) (w : Workspace) (id : SubmissionId)
    (dependencies sources : List String) (code options : String) :
    Twin k n (∃ o, · = some (.error (.outcome o))) (·.bind (panicIn Halt.panic?))
      (compile fuel ⟨h, w⟩ id dependencies sources code options)
      (compile fuel ⟨h.limit k n, w⟩ id dependencies sources code options) := by
  unfold compile
  obtain ⟨parsed, ds⟩ := CompilerOptions.parse options
  dsimp only
  split
  · exact .quiet hc rfl
  · -- What the options are warned of goes to both logs.
    rw [show (h.limit k n).write _ = (h.write _).limit k n from rfl]
    have hwarned := hc.outside h.files (h.log ++ ds.map fun d : Diagnostic => ⟨.debug, d.render⟩)
      h.runs
    change Counting (h.write _) k n at hwarned
    generalize h.write _ = noted at hwarned ⊢
    have hwritten := inWorkspace_twin hwarned w fun w f =>
      w.writeFile f Assembly.unitFileName (Utf8.encode (Assembly.assemble sources code).toList)
    generalize inWorkspace ⟨noted, w⟩ _ = x at hwritten ⊢
    generalize inWorkspace ⟨noted.limit k n, w⟩ _ = y at hwritten ⊢
    cases hwritten with
    | parted _ hs => exact hs.elim
    | @together h₁ w₁ a hc₁ hp =>
      obtain o | path := a
      · exact .quiet hc₁ rfl
      · dsimp only
        rw [show setUp (⟨h₁.limit k n, w₁⟩ : Stage Monitor) parsed id path =
          setUp ⟨h₁, w₁⟩ parsed id path from rfl]
        rcases setUp (⟨h₁, w₁⟩ : Stage Monitor) parsed id path with o | ⟨m, l⟩
        · exact .quiet hc₁ rfl
        · have hlinked := linkDependencies_twin fuel hc₁ w₁ l dependencies
          dsimp only
          generalize linkDependencies fuel ⟨h₁, w₁⟩ l dependencies = x at hlinked ⊢
          generalize linkDependencies fuel ⟨h₁.limit k n, w₁⟩ l dependencies = y at hlinked ⊢
          cases hlinked with
          | @together h₂ w₂ a hc₂ hp =>
            obtain _ | e | l := a
            · exact .quiet hc₂ rfl
            · exact .together hc₂ hp
            · have hinst := instantiate_twin fuel hc₂ l m
              dsimp only
              generalize instantiate fuel h₂ l m = x at hinst ⊢
              generalize instantiate fuel (h₂.limit k n) l m = y at hinst ⊢
              cases hinst with
              | @together h₃ a hc₃ hp =>
                obtain _ | i := a
                · exact .quiet hc₃ rfl
                · cases i with
                  | panicked p => exact .together hc₃ hp
                  | ok | failed => exact .quiet hc₃ rfl
              | @parted h₃ g₃ a b hp hs =>
                rw [hs]
                obtain _ | i := a
                · exact .parted hp ⟨_, rfl⟩
                · cases i <;> exact .parted hp ⟨_, rfl⟩
          | @parted s t a b hp hs =>
            obtain ⟨o, rfl⟩ := hs
            obtain _ | e | l := a
            · exact .parted hp ⟨o, rfl⟩
            · exact .parted hp ⟨o, rfl⟩
            · have hinst := (instantiate_reported fuel s.host l m).course k
              dsimp only
              generalize instantiate fuel s.host l m = after at hinst ⊢
              obtain ⟨h₃, _ | i⟩ := after
              · exact .parted (hp.course hinst) ⟨o, rfl⟩
              · cases i <;> exact .parted (hp.course hinst) ⟨o, rfl⟩

theorem prepare_twin (fuel : Nat) (hc : h.Counting k n) (w : Workspace) (c : EvaluatorConfig)
    {sub sub' : Submission Monitor} (hsub : sub'.label = sub.label) :
    Twin k n (∃ o, · = some (.error (.outcome o))) (·.bind (panicIn Halt.panic?))
      (prepare fuel c ⟨h, w⟩ sub) (prepare fuel c ⟨h.limit k n, w⟩ sub') := by
  obtain ⟨id, project, code, sink, canceled, tag, createdAt⟩ := sub
  obtain ⟨id', project', code', sink', canceled', tag', createdAt'⟩ := sub'
  obtain ⟨rfl, rfl, rfl, -, rfl, rfl, rfl⟩ := Submission.mk.inj hsub
  have hstaged := stageDependencies_twin hc c w project'.references
  unfold prepare
  dsimp only
  generalize stageDependencies c ⟨h, w⟩ project'.references = x at hstaged ⊢
  generalize stageDependencies c ⟨h.limit k n, w⟩ project'.references = y at hstaged ⊢
  cases hstaged with
  | parted _ hs => exact hs.elim
  | @together h₁ w₁ a hc₁ hp =>
    obtain o | dependencies := a
    · exact .quiet hc₁ rfl
    · dsimp only
      rw [show (h₁.limit k n).files = h₁.files from rfl]
      cases project'.readSources h₁.files with
      | error e => exact .quiet hc₁ rfl
      | ok sources => exact compile_twin fuel hc₁ w₁ _ _ _ _ _

end

end Stage

end LiveTrace
