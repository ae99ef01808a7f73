import LiveTrace.Proofs.Host.Cancellation
import LiveTrace.Trace.Monitor

/-
  What a monitor takes. A monitor that does not panic takes every event it is offered while
  there is room (`offer_goesOn`). One without room takes what a canceled sink takes, which is two
  ends at most, and so does one that an end has just filled (`offer_refused`). `Counted` says
  that a monitor without a limit could have had the limit `n` so far, and `CutOff` what becomes
  of the one that has it (`Counted.offer`).
-/
namespace LiveTrace

theorem Event.whenCanceled_length (e : Event) : e.whenCanceled.length ≤ 2 := by
  cases e <;> simp [whenCanceled]

/-- A sink that is filled by an end takes that end first. -/
theorem Event.whenCanceled_end {e : Event} (he : e.isEnd = true) :
    ∃ rest, e.whenCanceled = e :: rest := by
  cases e <;> first | exact ⟨_, rfl⟩ | contradiction

theorem SinkCall.bind_ok {σ α β : Type} {x : SinkCall σ α} {s t : σ} {log : List LogLine} {a : α}
    (hx : x s = ⟨t, log, .ok a⟩) (f : α → SinkCall σ β) :
    (x >>= f) s = ⟨(f a t).sink, log ++ (f a t).log, (f a t).result⟩ := by
  change SinkCall.andThen x f s = _
  unfold SinkCall.andThen
  rw [hx]

namespace Monitor

/-- The monitor after one more event. -/
def take (m : Monitor) (e : Event) : Monitor :=
  { m.note e with recorder := (m.recorder.record e).1 }

/-- The monitor with a limit. -/
def limited (n : Nat) (m : Monitor) : Monitor := { m with cancelAfter := some n }

theorem goesOn_eq (m : Monitor) : Event.goesOn false m = ⟨m, [], .ok (!m.isFull)⟩ := rfl

section

variable {m : Monitor} (hcalm : m.panicAt = none) {e : Event}
include hcalm

theorem record_eq (e : Event) :
    TraceSink.record e m = ⟨m.take e, (m.recorder.record e).2.map Note.line, .ok ()⟩ := by
  obtain ⟨recorder, cancelAfter, keeps, panicAt, count, events⟩ := m
  obtain rfl : panicAt = none := hcalm
  rfl

/-- While there is room, an event is taken and the run goes on. -/
theorem offer_goesOn (hroom : m.isFull = false)
    (hlast : e.isEnd = true → (m.take e).isFull = false) :
    e.offer false m = ⟨m.take e, (m.recorder.record e).2.map Note.line, .ok true⟩ := by
  have hrecord := record_eq hcalm e
  unfold Event.offer
  cases e with
  | endMethod | endLoop =>
    dsimp only
    rw [SinkCall.bind_ok hrecord, goesOn_eq, hlast rfl]
    simp
  | endIteration =>
    dsimp only
    rw [SinkCall.bind_ok hrecord, SinkCall.bind_ok (goesOn_eq _), hlast rfl]
    simp [pure, SinkCall.result]
  | beginMethod | beginLoop | beginIteration | change | ret =>
    dsimp only
    rw [SinkCall.bind_ok (goesOn_eq m), hroom]
    simp only [Bool.not_false, if_pos, SinkCall.bind_ok hrecord]
    simp [pure, SinkCall.result]

/-- Without room, or when an end takes the last of it, what is taken is what a canceled sink
takes, and the run does not go on. -/
theorem offer_refused (h : m.isFull = true ∨ e.isEnd = true ∧ (m.take e).isFull = true) :
    (e.offer false m).sink = e.whenCanceled.foldl take m ∧
      (e.offer false m).result = .ok false := by
  have hfull : m.isFull = true → (m.take e).isFull = true := by
    unfold isFull take note
    cases m.cancelAfter with
    | none => exact id
    | some n => simpa using Nat.le_succ_of_le
  have hrecord := record_eq hcalm
  unfold Event.offer
  cases e with
  | endMethod | endLoop =>
    have hafter := h.elim hfull And.right
    dsimp only
    rw [SinkCall.bind_ok (hrecord _), goesOn_eq, hafter]
    exact ⟨rfl, rfl⟩
  | endIteration id =>
    have hafter := h.elim hfull And.right
    have hclose := record_eq (m := m.take (.endIteration id)) hcalm (.endLoop id)
    dsimp only
    rw [SinkCall.bind_ok (hrecord _), SinkCall.bind_ok (goesOn_eq _), hafter]
    simp only [Bool.not_true, Bool.false_eq_true, if_false, SinkCall.bind_ok hclose]
    exact ⟨rfl, rfl⟩
  | beginIteration id =>
    have hbefore := h.resolve_right fun hend => Bool.false_ne_true hend.1
    dsimp only
    rw [SinkCall.bind_ok (goesOn_eq m), hbefore]
    simp only [Bool.not_true, Bool.false_eq_true, if_false, SinkCall.bind_ok (hrecord _)]
    exact ⟨rfl, rfl⟩
  | beginMethod | beginLoop | change | ret =>
    have hbefore := h.resolve_right fun hend => Bool.false_ne_true hend.1
    dsimp only
    rw [SinkCall.bind_ok (goesOn_eq m), hbefore]
    exact ⟨rfl, rfl⟩

end

/-! ## Two monitors, one with a limit -/

/-- A monitor without a limit that kept and counted what it took, at most `n` events. -/
structure Counted (n : Nat) (m : Monitor) : Prop where
  unlimited : m.cancelAfter = none
  calm : m.panicAt = none
  keeps : m.keeps = true
  count : m.count = m.events.length
  room : m.events.length ≤ n
  played : m.recorder = ((Recorder.play {} m.events).1)

/-- A monitor that took the events `start` before it was canceled, and since then nothing but
ends, and not more than two. -/
structure CutOff (start : List Event) (m : Monitor) : Prop where
  taken : ∃ extra, m.events = start ++ extra ∧ extra.length ≤ 2 ∧ ∀ e ∈ extra, e.isEnd = true
  finished : m.recorder.finished = (Recorder.play {} start).1.finished

theorem take_events {m : Monitor} (hkeeps : m.keeps = true) (e : Event) :
    (m.take e).events = m.events ++ [e] := if_pos hkeeps

theorem take_played {m : Monitor} (hkeeps : m.keeps = true)
    (hplayed : m.recorder = (Recorder.play {} m.events).1) (e : Event) :
    (m.take e).recorder = (Recorder.play {} (m.take e).events).1 := by
  rw [take_events hkeeps, Recorder.play_append, ← hplayed, Recorder.play_singleton]
  rfl

theorem foldl_take {m : Monitor} (hkeeps : m.keeps = true)
    (hplayed : m.recorder = (Recorder.play {} m.events).1) (es : List Event) :
    (es.foldl take m).events = m.events ++ es ∧
      (es.foldl take m).recorder = (Recorder.play {} (es.foldl take m).events).1 := by
  induction es generalizing m with
  | nil => exact ⟨(List.append_nil _).symm, hplayed⟩
  | cons e es ih =>
    obtain ⟨hevents, hall⟩ := ih (m := m.take e) hkeeps (take_played hkeeps hplayed e)
    rw [take_events hkeeps, List.append_assoc, List.singleton_append] at hevents
    exact ⟨hevents, hall⟩

theorem limited_isFull_iff (n : Nat) (m : Monitor) : (m.limited n).isFull = true ↔ n ≤ m.count :=
  decide_eq_true_iff

/-- A monitor that plays `start` and some ends is cut off behind `start`. -/
theorem CutOff.of_played {m : Monitor} {start : List Event} (extra : List Event)
    (hevents : m.events = start ++ extra) (hlength : extra.length ≤ 2)
    (hends : ∀ e ∈ extra, e.isEnd = true) (hplayed : m.recorder = (Recorder.play {} m.events).1) :
    m.CutOff start := by
  refine ⟨⟨extra, hevents, hlength, hends⟩, ?_⟩
  rw [hplayed, hevents, Recorder.play_append]
  exact Recorder.finished_play_ends _ hends

section

variable {n : Nat} {m : Monitor} (hm : m.Counted n) (e : Event)
include hm

theorem Counted.take (hlt : m.count < n) : (m.take e).Counted n := by
  have hevents := take_events hm.keeps e
  refine ⟨hm.unlimited, hm.calm, hm.keeps, ?_, ?_, take_played hm.keeps hm.played e⟩
  · rw [hevents, List.length_append, ← hm.count]
    rfl
  · rw [hevents, List.length_append, ← hm.count]
    exact hlt

/-- When there is no room for an event, or none behind it, taking what a canceled sink takes
leaves a monitor that is cut off behind the first `n` events. -/
theorem Counted.cutOff (hfull : n ≤ m.count ∨ e.isEnd = true ∧ n ≤ m.count + 1) :
    ∃ start, start.length = n ∧ start <+: m.events ++ [e] ∧
      (e.whenCanceled.foldl Monitor.take (m.limited n)).CutOff start := by
  obtain ⟨htaken, hall⟩ := foldl_take (m := m.limited n) hm.keeps hm.played e.whenCanceled
  have hcount := hm.count
  have hroom := hm.room
  by_cases hbefore : n ≤ m.count
  · refine ⟨m.events, by omega, List.prefix_append _ _, ?_⟩
    exact .of_played _ htaken e.whenCanceled_length (fun _ => Event.isEnd_of_whenCanceled) hall
  · -- The event is an end and the `n`-th event.
    obtain ⟨hend, hlast⟩ := hfull.resolve_left hbefore
    obtain ⟨rest, hrest⟩ := Event.whenCanceled_end hend
    have hlength := e.whenCanceled_length
    rw [hrest, List.length_cons] at hlength
    have hn : (m.events ++ [e]).length = n := by
      rw [List.length_append, List.length_singleton]
      omega
    refine ⟨_, hn, List.prefix_rfl, .of_played rest ?_ (by omega) (fun f hf => ?_) hall⟩
    · rw [htaken, hrest, List.append_assoc, List.singleton_append]
      rfl
    · exact Event.isEnd_of_whenCanceled (hrest ▸ List.mem_cons_of_mem e hf)

/-- An event offered to both: they take it and go on alike, or the one with the limit is cut off
behind the first `n` of the events that the other one has now. -/
theorem Counted.offer :
    e.offer false m = ⟨m.take e, (m.recorder.record e).2.map Note.line, .ok true⟩ ∧
    ((m.take e).Counted n ∧ e.offer false (m.limited n) =
        ⟨(m.take e).limited n, (m.recorder.record e).2.map Note.line, .ok true⟩ ∨
      ∃ start, start.length = n ∧ start <+: m.events ++ [e] ∧
        (e.offer false (m.limited n)).sink.CutOff start ∧
        (e.offer false (m.limited n)).result = .ok false) := by
  have hopen (m : Monitor) (h : m.cancelAfter = none) : m.isFull = false := by
    unfold isFull
    rw [h]
  refine ⟨offer_goesOn hm.calm (hopen m hm.unlimited) fun _ => hopen _ hm.unlimited, ?_⟩
  have hnow := limited_isFull_iff n m
  have hnext := limited_isFull_iff n (m.take e)
  by_cases hfull : n ≤ m.count ∨ e.isEnd = true ∧ n ≤ m.count + 1
  · right
    obtain ⟨start, hlength, hprefix, hoff⟩ := hm.cutOff e hfull
    obtain ⟨hsink, hresult⟩ := offer_refused (m := m.limited n) hm.calm
      (hfull.imp hnow.mpr (And.imp_right hnext.mpr))
    exact ⟨start, hlength, hprefix, hsink ▸ hoff, hresult⟩
  · left
    rw [not_or, not_and] at hfull
    refine ⟨hm.take e (Nat.lt_of_not_le hfull.1), offer_goesOn (m := m.limited n) hm.calm ?_ ?_⟩
    · exact Bool.eq_false_iff.mpr (hfull.1 ∘ hnow.mp)
    · exact fun hend => Bool.eq_false_iff.mpr (hfull.2 hend ∘ hnext.mp)

end

end Monitor

end LiveTrace
