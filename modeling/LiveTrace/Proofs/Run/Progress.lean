import LiveTrace.Proofs.Host.Calls
import LiveTrace.Run.Basic

/-
  What a run does before its entry function is entered, and what code does while it runs. Code
  reports events and nothing else (`drive_reported`); the stages of a run let code run, write
  to the log, and bring files into the working directory (`prepare_progress`). While nothing is
  registered, reports come to nothing (`Reported.eq_of_unregistered`). A part that ends in a
  panic met it in a report.
-/
namespace LiveTrace

/-! ## The panic that a part of a run ends in -/

def CallFault.panic? : CallFault → Option Panic
  | stop (.panicked p) => some p
  | _ => none

/-- The panic in a result, where a failure may be one. -/
def panicIn {ε α : Type} (f : ε → Option Panic) : Except ε α → Option Panic
  | .error e => f e
  | .ok _ => none

def Stage.Halt.panic? : Stage.Halt → Option Panic
  | panicked p => some p
  | outcome _ => none

section

variable [Engine]

def GuestEnd.panic? : GuestEnd → Option Panic
  | panicked p => some p
  | _ => none

def Guest.panic? : Guest → Option Panic
  | running _ => none
  | ended e => e.panic?

def Stage.Instantiated.panic? : Stage.Instantiated → Option Panic
  | panicked p => some p
  | _ => none

theorem CallFault.panic?_guestEnd (e : CallFault) : e.guestEnd.panic? = e.panic? := by
  cases e with
  | stop s => cases s <;> rfl
  | operand e => rfl

end

/-! ## Reports -/

namespace Host

variable {σ : Type} [TraceSink σ]

/-- `h.Reported p h'`: reports of events lead from `h` to `h'`, and `p` is the panic met in the
last of them, if there was one. -/
inductive Reported (h : Host σ) : Option Panic → Host σ → Prop where
  | here : Reported h none h
  | report {p : Option Panic} {h₁ : Host σ} (hr : Reported h p h₁) (sid : SubmissionId)
    (e : Event) : Reported h p (h₁.report sid e).1
  | panic {h₁ : Host σ} {sid : SubmissionId} {e : Event} {p : Panic} (hr : Reported h none h₁)
    (hp : (h₁.report sid e).2 = .error (.panicked p)) : Reported h (some p) (h₁.report sid e).1

variable {h h₁ h₂ : Host σ} {p : Option Panic}

theorem Reported.trans (hr : h.Reported none h₁) (hs : h₁.Reported p h₂) : h.Reported p h₂ := by
  induction hs with
  | here => exact hr
  | report _ sid e ih => exact ih.report sid e
  | panic _ hp ih => exact ih.panic hp

/-- What every report keeps is kept. -/
theorem Reported.keeps {P : Host σ → Prop} (hr : h.Reported p h₁) (hP : P h)
    (hstep : ∀ g sid e, P g → P (g.report sid e).1) : P h₁ := by
  induction hr with
  | here => exact hP
  | report _ sid e ih => exact hstep _ sid e ih
  | panic _ _ ih => exact hstep _ _ _ ih

theorem report_eq_outside (h : Host σ) (sid : SubmissionId) (e : Event) :
    (h.report sid e).1.files = h.files ∧ (h.report sid e).1.runs = h.runs := by
  cases hk : h.registered? sid with
  | none =>
    rw [report_unregistered hk]
    exact ⟨rfl, rfl⟩
  | some k =>
    rw [report_registered hk]
    exact withSink_outside h k _

theorem Reported.files (hr : h.Reported p h₁) : h₁.files = h.files :=
  hr.keeps (P := fun g => g.files = h.files) rfl fun g sid e hg =>
    (report_eq_outside g sid e).1.trans hg

theorem report_of_current_eq_none (hnone : h.current = none) (sid : SubmissionId) (e : Event) :
    h.report sid e = (h, .error .aborted) := by
  refine report_unregistered ?_ e
  unfold registered?
  rw [hnone]
  rfl

theorem Reported.eq_of_unregistered (hr : h.Reported p h₁) (hnone : h.current = none) :
    h₁ = h := by
  refine hr.keeps (P := (· = h)) rfl ?_
  rintro g sid e rfl
  rw [report_of_current_eq_none hnone]

end Host

/-! ## Code that calls hooks -/

section

variable {σ : Type} [TraceSink σ]

theorem Host.report_reported (h : Host σ) (sid : SubmissionId) (e : Event) :
    h.Reported (panicIn (fun s => (CallFault.stop s).panic?) (h.report sid e).2)
      (h.report sid e).1 := by
  rcases hr : (h.report sid e).2 with s | _
  · cases s with
    | aborted => exact Reported.here.report sid e
    | panicked p => exact Reported.here.panic hr
  · exact Reported.here.report sid e

theorem Host.call_reported (h : Host σ) (m : Option Wasm.Memory) (c : GuestCall) :
    h.Reported (panicIn CallFault.panic? (h.call m c).2) (h.call m c).1 := by
  unfold Host.call
  split
  · exact .here
  · cases c.report.event m c.id with
    | error e => exact .here
    | ok e =>
      have hreport := h.report_reported c.sid e
      dsimp only
      generalize h.report c.sid e = after at hreport ⊢
      obtain ⟨h', s | _⟩ := after <;> exact hreport

namespace Guest

variable [Engine]

theorem callHook_reported (h : Host σ) (hook : Hook) (operands : List Wasm.Value)
    (memory : Option Wasm.Memory) (next : Engine.Code) :
    h.Reported (callHook h hook operands memory next).2.panic?
      (callHook h hook operands memory next).1 := by
  unfold callHook
  cases GuestCall.ofOperands? hook operands with
  | none => exact .here
  | some c =>
    have hcall := h.call_reported memory c
    dsimp only
    generalize h.call memory c = after at hcall ⊢
    obtain ⟨h', e | _⟩ := after
    · rw [show (Guest.ended e.guestEnd).panic? = e.panic? from e.panic?_guestEnd]
      exact hcall
    · exact hcall

theorem advance_reported (h : Host σ) (c : Engine.Code) :
    h.Reported (advance h c).2.panic? (advance h c).1 := by
  unfold advance
  cases Engine.resume c with
  | returned s => exact .here
  | trap t => exact .here
  | tired next => exact .here
  | hook hook operands memory next => exact callHook_reported h hook operands memory next

theorem drive_reported (fuel : Nat) (h : Host σ) (c : Engine.Code) :
    h.Reported ((drive fuel h c).2.bind GuestEnd.panic?) (drive fuel h c).1 := by
  induction fuel generalizing h c with
  | zero => exact .here
  | succ fuel ih =>
    have hfirst := advance_reported h c
    unfold drive
    generalize advance h c = after at hfirst ⊢
    obtain ⟨h', c' | e⟩ := after
    · exact hfirst.trans (ih h' c')
    · exact hfirst

end Guest

/-! ## The stages -/

namespace Stage

/-- `s.Progress p s'`: what stages do leads from `s` to `s'`, and `p` is the panic met in the end,
if there was one. -/
inductive Progress (s : Stage σ) : Option Panic → Stage σ → Prop where
  | here : Progress s none s
  | code {p : Option Panic} {s₁ : Stage σ} {h : Host σ} (hp : Progress s none s₁)
    (hr : s₁.host.Reported p h) : Progress s p { s₁ with host := h }
  | note {s₁ : Stage σ} (hp : Progress s none s₁) (lines : List LogLine) :
    Progress s none { s₁ with host := s₁.host.write lines }
  | copy {s₁ : Stage σ} (hp : Progress s none s₁) (source : String) :
    Progress s none (s₁.inWorkspace fun w f => w.stageFile f source).1
  | unit {s₁ : Stage σ} (hp : Progress s none s₁) (bytes : List UInt8) :
    Progress s none (s₁.inWorkspace fun w f => w.writeFile f Assembly.unitFileName bytes).1

variable {s s₁ s₂ : Stage σ} {p : Option Panic}

theorem Progress.trans (hp : s.Progress none s₁) (hq : s₁.Progress p s₂) : s.Progress p s₂ := by
  induction hq with
  | here => exact hp
  | code _ hr ih => exact ih.code hr
  | note _ lines ih => exact ih.note lines
  | copy _ source ih => exact ih.copy source
  | unit _ bytes ih => exact ih.unit bytes

omit [TraceSink σ] in
theorem inWorkspace_stage (s : Stage σ) (action : Workspace → Files → Staging) :
    (s.inWorkspace action).1 = ⟨{ s.host with files := (action s.workspace s.host.files).files },
      (action s.workspace s.host.files).workspace⟩ := by
  unfold inWorkspace
  dsimp only
  cases (action s.workspace s.host.files).result <;> rfl

/-- What has to do neither with files nor with the log is changed by reports only. -/
theorem Progress.keeps {P : Host σ → Prop} (hp : s.Progress p s₁) (hP : P s.host)
    (hreport : ∀ g sid e, P g → P (g.report sid e).1)
    (houtside : ∀ g f log, P g → P { g with files := f, log := log }) : P s₁.host := by
  induction hp with
  | here => exact hP
  | code _ hr ih => exact hr.keeps ih hreport
  | note _ lines ih => exact houtside _ _ _ ih
  | copy _ source ih =>
    rw [inWorkspace_stage]
    exact houtside _ _ _ ih
  | unit _ bytes ih =>
    rw [inWorkspace_stage]
    exact houtside _ _ _ ih

theorem Progress.current (hp : s.Progress p s₁) : s₁.host.current = s.host.current :=
  hp.keeps (P := fun g => g.current = s.host.current) rfl
    (fun g sid e hg => (Host.report_current g sid e).trans hg) fun _ _ _ hg => hg

theorem Progress.idOf? (hp : s.Progress p s₁) : s₁.host.idOf? = s.host.idOf? :=
  hp.keeps (P := fun g => g.idOf? = s.host.idOf?) rfl
    (fun g sid e hg => (Host.idOf?_report g sid e).trans hg) fun _ _ _ hg => hg

/-- The stages reach the registered submission and no other one. -/
theorem Progress.others (hp : s.Progress p s₁) {j : Key} (hj : s.host.current ≠ some j) :
    s₁.host.submission? j = s.host.submission? j := by
  refine And.right (hp.keeps (P := fun g => g.current = s.host.current ∧
    g.submission? j = s.host.submission? j) ⟨rfl, rfl⟩ ?_ fun _ _ _ hg => hg)
  rintro g sid e ⟨hcurrent, hsame⟩
  exact ⟨(Host.report_current g sid e).trans hcurrent,
    (Host.report_others g sid e (hcurrent ▸ hj)).trans hsame⟩

theorem stageDependency_progress (c : EvaluatorConfig) (s : Stage σ) (path : String) :
    s.Progress none (stageDependency c s path).1 := by
  unfold stageDependency
  split
  · exact .here
  · split
    · exact .here
    · exact Progress.here.copy path

theorem stageDependencies_progress (c : EvaluatorConfig) (s : Stage σ) (paths : List String) :
    s.Progress none (stageDependencies c s paths).1 := by
  induction paths generalizing s with
  | nil => exact .here
  | cons path rest ih =>
    have hfirst := stageDependency_progress c s path
    unfold stageDependencies
    generalize stageDependency c s path = after at hfirst ⊢
    obtain ⟨s', e | first⟩ := after
    · exact hfirst
    · have hrest := ih s'
      dsimp only
      generalize stageDependencies c s' rest = last at hrest ⊢
      obtain ⟨s'', e | others⟩ := last <;> exact hfirst.trans hrest

variable [Engine]

theorem instantiate_reported (fuel : Nat) (h : Host σ) (l : Linking) (m : Engine.Module) :
    h.Reported ((instantiate fuel h l m).2.bind Instantiated.panic?)
      (instantiate fuel h l m).1 := by
  unfold instantiate
  cases Engine.instantiate? l.core l.linker l.store m with
  | none => exact .here
  | some i =>
    dsimp only
    cases i.start with
    | none => exact .here
    | some c =>
      have hdrive := Guest.drive_reported fuel h c
      dsimp only
      generalize Guest.drive fuel h c = after at hdrive ⊢
      obtain ⟨h', _ | e⟩ := after
      · exact hdrive
      · cases e <;> exact hdrive

theorem linkDependency_progress (fuel : Nat) (s : Stage σ) (l : Linking) (path : String) :
    s.Progress ((linkDependency fuel s l path).2.bind (panicIn Halt.panic?))
      (linkDependency fuel s l path).1 := by
  unfold linkDependency
  cases s.loadModule? l.core path with
  | none => exact .here
  | some m =>
    have hinst := Progress.here.code (instantiate_reported fuel s.host l m)
    dsimp only
    generalize instantiate fuel s.host l m = after at hinst ⊢
    obtain ⟨h', _ | i⟩ := after
    · exact hinst
    · cases i with
      | failed => exact hinst
      | panicked p => exact hinst
      | ok store unit =>
        dsimp only
        cases Engine.register? l.linker store (moduleName path) unit <;> exact hinst

theorem linkDependencies_progress (fuel : Nat) (s : Stage σ) (l : Linking)
    (paths : List String) :
    s.Progress ((linkDependencies fuel s l paths).2.bind (panicIn Halt.panic?))
      (linkDependencies fuel s l paths).1 := by
  induction paths generalizing s l with
  | nil => exact .here
  | cons path rest ih =>
    have hfirst := linkDependency_progress fuel s l path
    unfold linkDependencies
    generalize linkDependency fuel s l path = after at hfirst ⊢
    obtain ⟨s', _ | e | l'⟩ := after
    · exact hfirst
    · exact hfirst
    · exact hfirst.trans (ih s' l')

theorem compile_progress (fuel : Nat) (s : Stage σ) (id : SubmissionId)
    (dependencies sources : List String) (code options : String) :
    s.Progress
      ((compile fuel s id dependencies sources code options).2.bind (panicIn Halt.panic?))
      (compile fuel s id dependencies sources code options).1 := by
  unfold compile
  obtain ⟨parsed, ds⟩ := CompilerOptions.parse options
  dsimp only
  split
  · exact .here
  · -- What the options are warned of goes to the log before the unit is written.
    have hwritten := (Progress.here (s := s)).note (ds.map fun d : Diagnostic =>
      ⟨.debug, d.render⟩) |>.unit (Utf8.encode (Assembly.assemble sources code).toList)
    generalize Stage.inWorkspace _ _ = unit at hwritten ⊢
    obtain ⟨s₁, o | path⟩ := unit
    · exact hwritten
    · dsimp only at hwritten ⊢
      rcases s₁.setUp parsed id path with o | ⟨m, l⟩
      · exact hwritten
      · have hlinked := hwritten.trans (linkDependencies_progress fuel s₁ l dependencies)
        dsimp only
        generalize linkDependencies fuel s₁ l dependencies = linked at hlinked ⊢
        obtain ⟨s₂, _ | e | l⟩ := linked
        · exact hlinked
        · exact hlinked
        · have hinst := hlinked.code (instantiate_reported fuel s₂.host l m)
          dsimp only at hinst ⊢
          generalize instantiate fuel s₂.host l m = after at hinst ⊢
          obtain ⟨h', _ | i⟩ := after
          · exact hinst
          · cases i <;> exact hinst

theorem prepare_progress (fuel : Nat) (c : EvaluatorConfig) (s : Stage σ) (sub : Submission σ) :
    s.Progress ((prepare fuel c s sub).2.bind (panicIn Halt.panic?))
      (prepare fuel c s sub).1 := by
  have hstaged := stageDependencies_progress c s sub.project.references
  unfold prepare
  generalize stageDependencies c s sub.project.references = staged at hstaged ⊢
  obtain ⟨s₁, o | dependencies⟩ := staged
  · exact hstaged
  · dsimp only
    cases sub.project.readSources s₁.host.files with
    | error e => exact hstaged
    | ok sources => exact hstaged.trans (compile_progress fuel s₁ _ _ _ _ _)

end Stage

end

end LiveTrace
