import LiveTrace.Proofs.Host.Calls
import LiveTrace.Run.Stage

/-
  Two hosts that agree on one submission. In both of them it is the same, and it or nothing at all
  is registered. Code that calls hooks cannot tell them apart: every call gets the same answer, and
  the hosts agree afterwards (`report_same`, up to `instantiate_same`). Nothing is said about the
  other submissions, the log, or what is in the files.
-/
namespace LiveTrace

namespace Host

variable {σ : Type}

/-- Two hosts have the same submission `k`, no other one is registered in either of them, and it
is the same time in both. -/
structure Agree (k : Key) (h g : Host σ) : Prop where
  slot : h.current = none ∨ h.current = some k
  current : g.current = h.current
  own : g.submission? k = h.submission? k
  now : g.files.now = h.files.now

/-- The same was done to two hosts: they agree, and `R` relates what it came to. -/
structure Same {α β : Type} (k : Key) (R : α → β → Prop) (x : Host σ × α) (y : Host σ × β) :
    Prop where
  agree : Agree k x.1 y.1
  result : R x.2 y.2

variable {α : Type} {h g : Host σ} {k : Key}

theorem Agree.outside (ha : h.Agree k g) {f f' : Files} (hnow : f'.now = f.now)
    (log log' : List LogLine) (runs runs' : Nat) :
    Agree k { h with files := f, log := log, runs := runs }
      { g with files := f', log := log', runs := runs' } := ⟨ha.slot, ha.current, ha.own, hnow⟩

theorem Agree.write (ha : h.Agree k g) (log log' : List LogLine) :
    Agree k (h.write log) (g.write log') := ⟨ha.slot, ha.current, ha.own, ha.now⟩

theorem Agree.idOf? (ha : h.Agree k g) : g.idOf? k = h.idOf? k := by
  unfold Host.idOf?
  rw [ha.own]

theorem Agree.withSink (ha : h.Agree k g) (call : Bool → SinkCall σ α) :
    Same k Eq (h.withSink k call) (g.withSink k call) := by
  cases hs : h.submission? k with
  | none =>
    unfold Host.withSink
    rw [ha.own, hs]
    exact ⟨ha, rfl⟩
  | some s =>
    have hs' : g.submission? k = some s := ha.own.trans hs
    refine ⟨⟨?_, ?_, ?_, ?_⟩, ?_⟩
    · rw [withSink_current]
      exact ha.slot
    · rw [withSink_current, withSink_current]
      exact ha.current
    · rw [withSink_submission? h k call hs, withSink_submission? g k call hs']
    · rw [(withSink_outside h k call).1, (withSink_outside g k call).1]
      exact ha.now
    · rw [withSink_of_submission? hs, withSink_of_submission? hs']

/-! ## Registrations and cancellations -/

theorem Agree.load (ha : h.Agree k g) : Agree k (h.load k) (g.load k) := by
  obtain ⟨lines, hload⟩ := h.load_host k
  obtain ⟨lines', hload'⟩ := g.load_host k
  rw [hload, hload']
  exact ⟨.inr rfl, rfl, ha.own, ha.now⟩

theorem Agree.drop (ha : h.Agree k g) (id : SubmissionId) : Agree k (h.drop id) (g.drop id) := by
  have hid : g.currentId? = h.currentId? := by
    unfold currentId?
    rw [ha.current]
    rcases ha.slot with hslot | hslot
    · rw [hslot]
      rfl
    · rw [hslot]
      exact ha.idOf?
  unfold Host.drop
  rw [hid]
  split
  · exact ⟨.inl rfl, rfl, ha.own, ha.now⟩
  · exact ha

theorem Agree.cancel (ha : h.Agree k g) (j : Key) : Agree k (h.cancel j) (g.cancel j) := by
  refine ⟨ha.slot, ha.current, ?_, ha.now⟩
  unfold Host.cancel
  rw [submission?_update, submission?_update, ha.own]

/-! ## Calls -/

theorem Agree.registered? (ha : h.Agree k g) (sid : SubmissionId) :
    g.registered? sid = h.registered? sid ∧ ∀ j, h.registered? sid = some j → j = k := by
  unfold Host.registered?
  rw [ha.current]
  rcases ha.slot with hslot | hslot
  · rw [hslot]
    exact ⟨rfl, nofun⟩
  · rw [hslot, Option.filter_some, Option.filter_some, ha.idOf?]
    refine ⟨rfl, fun j hj => ?_⟩
    split at hj
    · exact (Option.some.inj hj).symm
    · contradiction

theorem isActive_same (ha : h.Agree k g) (sid : SubmissionId) :
    g.isActive sid = h.isActive sid := by
  obtain ⟨hsame, hown⟩ := ha.registered? sid
  unfold isActive isCanceled
  rw [hsame]
  cases hj : h.registered? sid with
  | none => rfl
  | some j =>
    obtain rfl := hown j hj
    dsimp only
    rw [ha.own]

variable [TraceSink σ]

theorem report_same (ha : h.Agree k g) (sid : SubmissionId) (e : Event) :
    Same k Eq (h.report sid e) (g.report sid e) := by
  obtain ⟨hsame, hown⟩ := ha.registered? sid
  cases hj : h.registered? sid with
  | none =>
    rw [report_unregistered hj, report_unregistered (hsame.trans hj)]
    exact ⟨ha, rfl⟩
  | some j =>
    obtain rfl := hown j hj
    obtain ⟨hagree, hresult⟩ := ha.withSink (e.offer ·)
    rw [report_registered hj, report_registered (hsame.trans hj)]
    exact ⟨hagree, by dsimp only; rw [hresult]⟩

theorem call_same (ha : h.Agree k g) (m : Option Wasm.Memory) (c : GuestCall) :
    Same k Eq (h.call m c) (g.call m c) := by
  unfold Host.call
  rw [isActive_same ha]
  split
  · exact ⟨ha, rfl⟩
  · cases c.report.event m c.id with
    | error e => exact ⟨ha, rfl⟩
    | ok e =>
      obtain ⟨hagree, hresult⟩ := report_same ha c.sid e
      dsimp only
      generalize h.report c.sid e = x at hagree hresult ⊢
      generalize g.report c.sid e = y at hagree hresult ⊢
      obtain ⟨h', a⟩ := x
      obtain ⟨g', b⟩ := y
      obtain rfl : a = b := hresult
      cases a <;> exact ⟨hagree, rfl⟩

theorem unwind_same (ha : h.Agree k g) : Same k Eq (h.unwind k) (g.unwind k) := ha.withSink _

end Host

/-! ## Code -/

section

open Host (Agree Same)

variable [Engine] {σ : Type} [TraceSink σ] {h g : Host σ} {k : Key}

namespace Guest

theorem callHook_same (ha : h.Agree k g) (hook : Hook) (operands : List Wasm.Value)
    (memory : Option Wasm.Memory) (next : Engine.Code) :
    Same k Eq (callHook h hook operands memory next) (callHook g hook operands memory next) := by
  unfold callHook
  cases GuestCall.ofOperands? hook operands with
  | none => exact ⟨ha, rfl⟩
  | some c =>
    obtain ⟨hagree, hresult⟩ := Host.call_same ha memory c
    dsimp only
    generalize h.call _ c = x at hagree hresult ⊢
    generalize g.call _ c = y at hagree hresult ⊢
    obtain ⟨h', a⟩ := x
    obtain ⟨g', b⟩ := y
    obtain rfl : a = b := hresult
    cases a <;> exact ⟨hagree, rfl⟩

theorem advance_same (ha : h.Agree k g) (c : Engine.Code) :
    Same k Eq (advance h c) (advance g c) := by
  unfold advance
  cases Engine.resume c with
  | returned s => exact ⟨ha, rfl⟩
  | trap t => exact ⟨ha, rfl⟩
  | tired next => exact ⟨ha, rfl⟩
  | hook hook operands memory next => exact callHook_same ha hook operands memory next

theorem drive_same (ha : h.Agree k g) (fuel : Nat) (c : Engine.Code) :
    Same k Eq (drive fuel h c) (drive fuel g c) := by
  induction fuel generalizing h g c with
  | zero => exact ⟨ha, rfl⟩
  | succ fuel ih =>
    obtain ⟨hagree, hresult⟩ := advance_same ha c
    unfold drive
    generalize advance h c = x at hagree hresult ⊢
    generalize advance g c = y at hagree hresult ⊢
    obtain ⟨h', a⟩ := x
    obtain ⟨g', b⟩ := y
    obtain rfl : a = b := hresult
    cases a with
    | running c' => exact ih hagree c'
    | ended e => exact ⟨hagree, rfl⟩

end Guest

theorem Stage.instantiate_same (ha : h.Agree k g) (fuel : Nat) (l : Linking) (m : Engine.Module) :
    Same k Eq (instantiate fuel h l m) (instantiate fuel g l m) := by
  unfold instantiate
  cases Engine.instantiate? l.core l.linker l.store m with
  | none => exact ⟨ha, rfl⟩
  | some i =>
    dsimp only
    cases i.start with
    | none => exact ⟨ha, rfl⟩
    | some c =>
      obtain ⟨hagree, hresult⟩ := Guest.drive_same ha fuel c
      dsimp only
      generalize Guest.drive fuel h _ = x at hagree hresult ⊢
      generalize Guest.drive fuel g _ = y at hagree hresult ⊢
      obtain ⟨h', a⟩ := x
      obtain ⟨g', b⟩ := y
      obtain rfl : a = b := hresult
      rcases a with _ | e
      · exact ⟨hagree, rfl⟩
      · cases e <;> exact ⟨hagree, rfl⟩

end

end LiveTrace
