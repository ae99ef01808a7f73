import LiveTrace.Proofs.Run.Ending
import LiveTrace.Proofs.Trace.Sinks
import LiveTrace.Wasm.Engine

/-
  How a run ends when one of its calls comes too late. A call is too late when it names a submission
  that is not registered, when the flag of the submission is set, or when its sink reports that it
  is canceled (`Host.IsOver`). Six of the fifteen hooks look at the registration and the flag
  before they read their operands, and all of them at the registration; where that is enough, the
  run is aborted whichever sink it has. A sink is asked only behind the operands: if it alone
  reports the cancellation, a call with operands that cannot be read is a fault of the run
  (`advance_of_isOver`).
-/
namespace LiveTrace

variable {σ : Type}

/-! ## Sinks that stand by a cancellation -/

/-- A sink that reports that it is canceled when the flag of its submission is set, and that goes
on reporting it behind an end. -/
class SteadySink (σ : Type) [TraceSink σ] : Prop where
  isCanceled_flag (s : σ) : (TraceSink.isCanceled true s).result = .ok true
  isCanceled_end {flag : Bool} {s : σ} (h : (TraceSink.isCanceled flag s).result = .ok true)
    {e : Event} (he : e.isEnd = true) :
    (TraceSink.isCanceled flag (TraceSink.record e s).sink).result = .ok true

instance : SteadySink Recorder where
  isCanceled_flag _ := rfl
  isCanceled_end h _ _ := h

/-- A monitor that is full stays full when it takes an event or panics at it. -/
theorem Monitor.isFull_record {m : Monitor} (h : m.isFull = true) (e : Event) :
    (TraceSink.record e m : Reply Monitor Unit).sink.isFull = true := by
  simp only [TraceSink.record]
  cases m.panic? e with
  | some p => exact h
  | none =>
    change (m.note e).isFull = true
    unfold isFull note at *
    cases hn : m.cancelAfter with
    | none => simp [hn] at h
    | some n =>
      have hle : n ≤ m.count := by simpa [hn] using h
      simpa using Nat.le_succ_of_le hle

instance : SteadySink Monitor where
  isCanceled_flag _ := rfl
  isCanceled_end {flag m} h {e} _ := by
    have hcanceled : (flag || m.isFull) = true := Except.ok.inj h
    change Except.ok (flag || (TraceSink.record e m : Reply Monitor Unit).sink.isFull) = _
    rcases Bool.or_eq_true_iff.mp hcanceled with hflag | hfull
    · rw [hflag, Bool.true_or]
    · rw [Monitor.isFull_record hfull, Bool.or_true]

namespace SinkCall

variable {α β : Type} {x : SinkCall σ α} {f : α → SinkCall σ β} {s : σ}

/-- What none of the later calls results in, both calls together do not. -/
theorem bind_result_ne {b : β}
    (h : ∀ a, (x s).result = .ok a → (f a (x s).sink).result ≠ .ok b) :
    ((x >>= f) s).result ≠ .ok b := by
  change (SinkCall.andThen x f s).result ≠ _
  unfold SinkCall.andThen
  cases hx : (x s).result with
  | error p => exact nofun
  | ok a => exact h a hx

end SinkCall

section

variable [TraceSink σ] {flag : Bool} {s : σ}

theorem Event.goesOn_canceled (h : (TraceSink.isCanceled flag s).result = .ok true) :
    (goesOn flag s).result = .ok false := by
  change (SinkCall.andThen (TraceSink.isCanceled flag) _ s).result = _
  unfold SinkCall.andThen
  rw [h]
  rfl

/-- A sink that reports that it is canceled lets nothing go on. -/
theorem Event.offer_ne_of_canceled [SteadySink σ]
    (h : (TraceSink.isCanceled flag s).result = .ok true) (e : Event) :
    (e.offer flag s).result ≠ .ok true := by
  have hasked {b : Bool} (hb : (goesOn flag s).result = .ok b) : b = false :=
    (Except.ok.inj ((goesOn_canceled h).symm.trans hb)).symm
  have hended {e : Event} (he : e.isEnd = true) :
      (goesOn flag (TraceSink.record e s).sink).result = .ok false :=
    goesOn_canceled (SteadySink.isCanceled_end h he)
  cases e with
  | endMethod id | endLoop id =>
    refine SinkCall.bind_result_ne fun _ _ => ?_
    rw [hended rfl]
    exact nofun
  | endIteration id =>
    refine SinkCall.bind_result_ne fun _ _ => SinkCall.bind_result_ne fun b hb => ?_
    obtain rfl : b = false := Except.ok.inj (hb.symm.trans (hended rfl))
    exact SinkCall.bind_result_ne fun _ _ => nofun
  | beginIteration id =>
    refine SinkCall.bind_result_ne fun b hb => ?_
    obtain rfl := hasked hb
    exact SinkCall.bind_result_ne fun _ _ => nofun
  | beginMethod | beginLoop | change | ret =>
    refine SinkCall.bind_result_ne fun b hb => ?_
    obtain rfl := hasked hb
    exact nofun

end

/-! ## Calls that come too late -/

namespace Host

variable [TraceSink σ]

/-- Why a call for the submission `sid` comes too late: another one is registered or none, or the
flag is set, or the sink reports that it is canceled. -/
inductive IsOver (h : Host σ) (sid : SubmissionId) : Prop where
  | stale (hk : h.registered? sid = none)
  | flag {k : Key} (hk : h.registered? sid = some k) (hflag : h.isCanceled k = true)
  | sink {k : Key} {s : Submission σ} (hk : h.registered? sid = some k)
    (hs : h.submission? k = some s)
    (hsink : (TraceSink.isCanceled s.canceled s.sink).result = .ok true)

variable {h : Host σ} {sid : SubmissionId}

/-- Nothing is reported too late. -/
theorem IsOver.report [SteadySink σ] (hover : h.IsOver sid) (e : Event) :
    (h.report sid e).2 = .error .aborted ∨ ∃ p, (h.report sid e).2 = .error (.panicked p) := by
  have hregistered {k : Key} {s : Submission σ} (hk : h.registered? sid = some k)
      (hs : h.submission? k = some s)
      (hsink : (TraceSink.isCanceled s.canceled s.sink).result = .ok true) :
      (h.report sid e).2 = .error .aborted ∨ ∃ p, (h.report sid e).2 = .error (.panicked p) := by
    have hoffer := e.offer_ne_of_canceled hsink
    rw [report_registered hk, withSink_of_submission? hs]
    dsimp only
    rcases hr : (e.offer s.canceled s.sink).result with p | _ | _
    · exact .inr ⟨p, rfl⟩
    · exact .inl rfl
    · exact absurd hr hoffer
  cases hover with
  | stale hk => exact .inl (by rw [report_unregistered hk])
  | sink hk hs hsink => exact hregistered hk hs hsink
  | @flag k hk hflag =>
    cases hs : h.submission? k with
    | none => simp [isCanceled, hs] at hflag
    | some s =>
      have hset : s.canceled = true := by simpa [isCanceled, hs] using hflag
      refine hregistered hk hs ?_
      rw [hset]
      exact SteadySink.isCanceled_flag s.sink

end Host

/-- A call that nothing is checked before has no operands that could not be read. -/
theorem GuestReport.event_of_not_isChecked {r : GuestReport} (hr : r.isChecked = false)
    (m : Option Wasm.Memory) (id : UInt32) : ∃ e, r.event m id = .ok e := by
  cases r with
  | beginMethod | change | changeI32 | changeI64 | changeF64 | retText => contradiction
  | _ => exact ⟨_, rfl⟩

/-- How a call that comes too late ends. Its operands matter if its submission is registered and
the flag is not set. -/
def GuestCall.refusal (c : GuestCall) (active : Bool) (m : Option Wasm.Memory) : CallFault :=
  match active, c.report.event m c.id with
  | true, .error e => .operand e
  | _, _ => .stop .aborted

namespace GuestCall

variable {c : GuestCall} {m : Option Wasm.Memory}

theorem refusal_inactive (c : GuestCall) (m : Option Wasm.Memory) :
    c.refusal false m = .stop .aborted := by
  unfold refusal
  split <;> first | rfl | contradiction

theorem refusal_of_ok {e : Event} (he : c.report.event m c.id = .ok e) (active : Bool) :
    c.refusal active m = .stop .aborted := by
  unfold refusal
  rw [he]
  cases active <;> rfl

theorem refusal_of_error {e : OperandError} (he : c.report.event m c.id = .error e) :
    c.refusal true m = .operand e := by
  unfold refusal
  rw [he]

end GuestCall

/-- A call whose operands are read ends as the report of its event does. -/
theorem Host.call_of_event [TraceSink σ] {h : Host σ} {c : GuestCall} {m : Option Wasm.Memory}
    {e : Event} (hpass : (c.report.isChecked && !h.isActive c.sid) = false)
    (he : c.report.event m c.id = .ok e) :
    (h.call m c).2 = (h.report c.sid e).2.mapError .stop := by
  unfold Host.call
  rw [hpass, if_neg Bool.false_ne_true, he]
  dsimp only
  obtain ⟨h', s | _⟩ := h.report c.sid e <;> rfl

/-- Where the registration or the flag is enough to refuse a call, nothing is done. -/
theorem Host.call_of_refused [TraceSink σ] {h : Host σ} {c : GuestCall}
    (hrefused : h.registered? c.sid = none ∨ c.report.isChecked = true ∧ h.isActive c.sid = false)
    (m : Option Wasm.Memory) : h.call m c = (h, .error (.stop .aborted)) := by
  have hinactive : h.isActive c.sid = false := by
    rcases hrefused with hk | ⟨-, hinactive⟩
    · unfold isActive
      rw [hk]
    · exact hinactive
  unfold Host.call
  rw [hinactive]
  cases hchecked : c.report.isChecked with
  | true => rfl
  | false =>
    have hk : h.registered? c.sid = none := hrefused.resolve_right (by simp [hchecked])
    obtain ⟨e, he⟩ := GuestReport.event_of_not_isChecked hchecked m c.id
    rw [he, Bool.false_and, if_neg Bool.false_ne_true]
    dsimp only
    rw [report_unregistered hk]

/-- A call that comes too late is refused, unless the sink panics. -/
theorem Host.call_of_isOver [TraceSink σ] [SteadySink σ] {h : Host σ} {c : GuestCall}
    (hover : h.IsOver c.sid) (m : Option Wasm.Memory) :
    (h.call m c).2 = .error (c.refusal (h.isActive c.sid) m) ∨
      ∃ p, (h.call m c).2 = .error (.stop (.panicked p)) := by
  have hreported {e : Event} (hpass : (c.report.isChecked && !h.isActive c.sid) = false)
      (he : c.report.event m c.id = .ok e) :
      (h.call m c).2 = .error (.stop .aborted) ∨
        ∃ p, (h.call m c).2 = .error (.stop (.panicked p)) := by
    rw [call_of_event hpass he]
    rcases hover.report e with haborted | ⟨p, hp⟩
    · exact .inl (by rw [haborted]; rfl)
    · exact .inr ⟨p, by rw [hp]; rfl⟩
  cases hactive : h.isActive c.sid with
  | false =>
    rw [GuestCall.refusal_inactive]
    cases hchecked : c.report.isChecked with
    | true => exact .inl (congrArg Prod.snd (call_of_refused (.inr ⟨hchecked, hactive⟩) m))
    | false =>
      obtain ⟨e, he⟩ := GuestReport.event_of_not_isChecked hchecked m c.id
      exact hreported (by rw [hchecked]; rfl) he
  | true =>
    have hpass : (c.report.isChecked && !h.isActive c.sid) = false := by simp [hactive]
    cases he : c.report.event m c.id with
    | ok e =>
      rw [GuestCall.refusal_of_ok he]
      exact hreported hpass he
    | error e =>
      have hcall : h.call m c = (h, .error (.operand e)) := by
        unfold Host.call
        rw [hpass, if_neg Bool.false_ne_true, he]
      rw [GuestCall.refusal_of_error he]
      exact .inl (congrArg Prod.snd hcall)

/-! ## The end of the run -/

namespace Run

section

variable [Engine] [TraceSink σ] {h : Host σ} {r : Running} {hook : Hook}
  {operands : List Wasm.Value} {memory : Option Wasm.Memory} {next : Engine.Code} {c : GuestCall}

/-- A run whose code makes a call that is refused is over. -/
theorem advance_of_call_error {f : CallFault}
    (hhook : Engine.resume r.code = .hook hook operands memory next)
    (hc : GuestCall.ofOperands? hook operands = some c)
    (hf : (h.call memory c).2 = .error f) :
    ∃ g, advance h r = ended g r f.guestEnd := by
  unfold advance Guest.advance
  rw [hhook]
  dsimp only
  unfold Guest.callHook
  rw [hc]
  dsimp only
  generalize h.call memory c = after at hf
  obtain ⟨g, result⟩ := after
  obtain rfl : result = .error f := hf
  exact ⟨g, rfl⟩

theorem outcomeOf_refusal (c : GuestCall) (active : Bool) (m : Option Wasm.Memory) :
    outcomeOf (c.refusal active m).guestEnd = .aborted ↔
      active = false ∨ ∃ e, c.report.event m c.id = .ok e := by
  cases active with
  | false =>
    rw [GuestCall.refusal_inactive]
    exact ⟨fun _ => .inl rfl, fun _ => rfl⟩
  | true =>
    cases he : c.report.event m c.id with
    | ok e =>
      rw [GuestCall.refusal_of_ok he]
      exact ⟨fun _ => .inr ⟨e, rfl⟩, fun _ => rfl⟩
    | error e =>
      rw [GuestCall.refusal_of_error he]
      exact ⟨nofun, fun h => by simp at h⟩

/-- A run whose code makes a call that is refused ends as the call does, unless its sink panics. -/
theorem advance_of_refusal {f : CallFault}
    (hhook : Engine.resume r.code = .hook hook operands memory next)
    (hc : GuestCall.ofOperands? hook operands = some c) (hf : (h.call memory c).2 = .error f)
    (hcalm : ∀ p, (advance h r).2 ≠ .panicked p) :
    ∃ report, (advance h r).2 = .done ⟨outcomeOf f.guestEnd, some report⟩ ∧
      (report.aborted = true ↔ outcomeOf f.guestEnd = .aborted) := by
  obtain ⟨g, hended⟩ := advance_of_call_error hhook hc hf
  rw [hended] at hcalm ⊢
  rcases ended_cases g r f.guestEnd with ⟨p, hp⟩ | hfinish
  · exact absurd (congrArg Prod.snd hp) (hcalm p)
  · rw [hfinish] at hcalm ⊢
    rcases finish_result (g.drop r.identity.id) r.identity r.workspace (outcomeOf f.guestEnd) with
      ⟨p, -, hp⟩ | ⟨g', hdone⟩
    · exact absurd hp (hcalm p)
    · exact ⟨_, hdone, beq_iff_eq⟩

/-- A run whose call comes too late is over. If it is refused for the registration or the flag
alone, the run is aborted, whichever sink it has. With a sink that stands by a cancellation, it ends
as the call does, unless the sink panics: it is aborted, and its report says so; but if its
submission is registered and the flag is not set, so that the sink alone reports the cancellation,
and the operands cannot be read, it is a fault. -/
theorem advance_of_isOver (h : Host σ) (r : Running)
    (hhook : Engine.resume r.code = .hook hook operands memory next)
    (hc : GuestCall.ofOperands? hook operands = some c)
    (hcalm : ∀ p, (advance h r).2 ≠ .panicked p) :
    ((h.registered? c.sid = none ∨ c.report.isChecked = true ∧ h.isActive c.sid = false) →
      ∃ report, (advance h r).2 = .done ⟨.aborted, some report⟩ ∧ report.aborted = true) ∧
    ∀ [SteadySink σ], h.IsOver c.sid →
      ∃ report, (advance h r).2 =
          .done ⟨outcomeOf (c.refusal (h.isActive c.sid) memory).guestEnd, some report⟩ ∧
        (report.aborted = true ↔
          h.isActive c.sid = false ∨ ∃ e, c.report.event memory c.id = .ok e) := by
  refine ⟨fun hrefused => ?_, fun hover => ?_⟩
  · have hcall : (h.call memory c).2 = .error (.stop .aborted) :=
      congrArg Prod.snd (Host.call_of_refused hrefused memory)
    obtain ⟨report, hdone, haborted⟩ := advance_of_refusal hhook hc hcall hcalm
    exact ⟨report, hdone, haborted.mpr rfl⟩
  · rcases Host.call_of_isOver hover memory with hcall | ⟨p, hp⟩
    · obtain ⟨report, hdone, haborted⟩ := advance_of_refusal hhook hc hcall hcalm
      exact ⟨report, hdone, haborted.trans (outcomeOf_refusal c _ memory)⟩
    · obtain ⟨g, hended⟩ := advance_of_call_error hhook hc hp
      exact absurd (congrArg Prod.snd hended) (hcalm p)

end

/-- Code that is about to call a hook with some operands, the last one first, and exports a memory
of one page. -/
def calling (hook : Hook) (operands : List Wasm.Value) : Running :=
  let store : Wasm.Store := {
    funcs := #[.hook hook], memories := #[{ pages := 1 }],
    instances := #[{ funcs := #[0], exports := [(memoryExport, .memory 0)] }] }
  let frame : Wasm.Frame :=
    { instance_ := 0, locals := #[], results := 0, code := [.call 0], stack := operands }
  ⟨⟨0, 1, "run", 0, 0⟩, ⟨"run", "/runs/run", []⟩, Wasm.Step.next ⟨store, [frame], 10⟩⟩

/-- Code that is about to report the value 3 of a variable, whose name is empty and stands at an
address. -/
def naming (address : UInt32) : Running :=
  calling .logI64 [.i64 3, .i32 0, .i32 address, .i32 2, .i32 1]

/-- With the flag set, a run is aborted even if its sink takes no notice of the flag and the name
is outside of the memory. With a sink that alone reports the cancellation, it is aborted if the
name can be read. -/
theorem advance_of_isOver_naming :
    let flagged : Host DetachedRecorder :=
      { submissions := [{ id := 1, sink := {}, canceled := true }], current := some 0 }
    let full : Host Monitor :=
      { submissions := [{ id := 1, sink := { cancelAfter := some 0 } }], current := some 0 }
    (∃ report, (advance flagged (naming 65537)).2 = .done ⟨.aborted, some report⟩ ∧
        report.aborted = true) ∧
      full.IsOver 1 ∧
      ∃ report, (advance full (naming 0)).2 = .done ⟨.aborted, some report⟩ ∧
        report.aborted = true := by
  intro flagged full
  have hover : full.IsOver 1 := .sink (k := 0) rfl rfl rfl
  have hcalm (p : Panic) : (advance flagged (naming 65537)).2 ≠ .panicked p := nofun
  have hresult : ((advance full (naming 0)).2.result?.bind Except.toOption).isSome = true := by
    decide +kernel
  have hcalm' (p : Panic) : (advance full (naming 0)).2 ≠ .panicked p :=
    fun hp => by simp [hp, RunState.result?, Except.toOption] at hresult
  obtain ⟨hflagged, -⟩ := advance_of_isOver flagged (naming 65537)
    (c := ⟨1, 2, .changeI64 ⟨65537, 0⟩ 3⟩) rfl rfl hcalm
  obtain ⟨-, hfull⟩ := advance_of_isOver full (naming 0)
    (c := ⟨1, 2, .changeI64 ⟨0, 0⟩ 3⟩) rfl rfl hcalm'
  obtain ⟨report, hdone, haborted⟩ := hfull hover
  have hread : ∃ e, GuestReport.event (some { pages := 1 }) 2 (.changeI64 ⟨0, 0⟩ 3) = .ok e := by
    have hok : (GuestReport.event (some { pages := 1 }) 2 (.changeI64 ⟨0, 0⟩ 3)).isOk = true := by
      decide +kernel
    cases he : GuestReport.event (some { pages := 1 }) 2 (.changeI64 ⟨0, 0⟩ 3) with
    | ok e => exact ⟨e, rfl⟩
    | error => exact nomatch he ▸ hok
  rw [(outcomeOf_refusal _ _ _).mpr (.inr hread)] at hdone
  exact ⟨hflagged (.inr ⟨rfl, rfl⟩), hover, report, hdone, haborted.mpr (.inr hread)⟩

/-- With a sink that alone reports the cancellation and a name outside of the memory, a run is a
fault. -/
theorem advance_faults_of_canceled_sink :
    let h : Host Monitor :=
      { submissions := [{ id := 1, sink := { cancelAfter := some 0 } }], current := some 0 }
    h.IsOver 1 ∧ ∃ report, report.aborted = false ∧ (advance h (naming 65537)).2 =
      .done ⟨.faulted (.runtime (.operand (.outsideMemory 65537 65537))), some report⟩ := by
  intro h
  exact ⟨.sink (k := 0) rfl rfl rfl, _, rfl, rfl⟩

/-- The end of a method is not checked before. With the flag set and a sink that takes no notice of
the flag, the run goes on. -/
theorem advance_goes_on_with_detached_sink :
    let h : Host DetachedRecorder :=
      { submissions := [{ id := 1, sink := {}, canceled := true }], current := some 0 }
    h.IsOver 1 ∧ ∃ r, (advance h (calling .endMethod [.i32 2, .i32 1])).2 = .running r := by
  intro h
  exact ⟨.flag (k := 0) rfl rfl, _, rfl⟩

end Run

end LiveTrace
