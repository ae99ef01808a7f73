import LiveTrace.Proofs.Trace.Roots
import LiveTrace.Proofs.Trace.Unwinding

/-
  From a tree to its events and back. `play_events`: a recorder with something open that
  collects operations takes the events of an operation as that operation. `play_calls`: with
  nothing open, the events of calls register these calls one after another. Both together are
  `play_events_rebuilds`.
-/
namespace LiveTrace

namespace Recorder

/-- The events of a container: it opens, its contents follow, and it closes. -/
theorem play_container {before opened full after : Recorder} {first last : Event}
    {contents : List Event} (hfirst : before.record first = (opened, []))
    (hcontents : opened.play contents = (full, [])) (hlast : full.record last = (after, [])) :
    before.play (first :: contents ++ [last]) = (after, []) := by
  rw [List.cons_append, play_cons, hfirst, play_append, hcontents, play_singleton, hlast]
  rfl

/-- The end of a container that joins the one below it. -/
theorem record_ending_join {c below joined : Open} (h : c.join below = some joined)
    (roots : Roots) (rest : List Open) :
    record ⟨roots, c :: below :: rest⟩ c.ending = (⟨roots, joined :: rest⟩, []) := by
  rw [record_ending, closeTop_join h]

/-- A container seen as a function of the operations in it. -/
def Collector (c : List Operation → Open) : Prop := ∀ os op, (c os).Adds op (c (os ++ [op]))

theorem collector_method (id : UInt32) (name : String) (arguments : List StateChange) :
    Collector fun os => .method ⟨id, name, arguments, os⟩ :=
  fun os _ => .method id name arguments os

theorem collector_iteration (id : UInt32) : Collector fun os => .iteration ⟨id, os⟩ :=
  fun os _ => .iteration id os

-- One theorem for each sort of the tree. A container may be anywhere on the stack, so all three
-- are about any roots and any containers below.
mutual

theorem play_events (op : Operation) (roots : Roots) {top top' : Open} (below : List Open)
    (h : top.Adds op top') :
    play ⟨roots, top :: below⟩ op.events = (⟨roots, top' :: below⟩, []) := by
  match op with
  | .stateChange c => exact (play_singleton _ _).trans (append_of_adds h roots below)
  | .returnValue r => exact (play_singleton _ _).trans (append_of_adds h roots below)
  | .loop ⟨id, is⟩ =>
    rw [Operation.events]
    have hcontents := play_eventsOfIterations is roots id [] (top :: below)
    rw [List.nil_append] at hcontents
    have hjoin : (Open.loop ⟨id, is⟩).join top = some top' := addTo_of_adds h
    exact play_container rfl hcontents (record_ending_join hjoin roots below)
  | .methodCall ⟨id, name, arguments, os⟩ =>
    rw [Operation.events]
    have hcontents := play_eventsOfOperations os roots (collector_method id name arguments) []
      (top :: below)
    rw [List.nil_append] at hcontents
    have hjoin : (Open.method ⟨id, name, arguments, os⟩).join top = some top' := addTo_of_adds h
    exact play_container rfl hcontents (record_ending_join hjoin roots below)

theorem play_eventsOfOperations (os : List Operation) (roots : Roots)
    {c : List Operation → Open} (hc : Collector c) (earlier : List Operation)
    (below : List Open) :
    play ⟨roots, c earlier :: below⟩ (eventsOfOperations os) =
      (⟨roots, c (earlier ++ os) :: below⟩, []) := by
  match os with
  | [] =>
    rw [eventsOfOperations, List.append_nil]
    rfl
  | op :: os =>
    rw [eventsOfOperations, play_append_quiet (play_events op roots below (hc earlier op)),
      play_eventsOfOperations os roots hc (earlier ++ [op]) below, List.append_assoc,
      List.singleton_append]

theorem play_eventsOfIterations (is : List Iteration) (roots : Roots) (id : UInt32)
    (earlier : List Iteration) (below : List Open) :
    play ⟨roots, .loop ⟨id, earlier⟩ :: below⟩ (eventsOfIterations is) =
      (⟨roots, .loop ⟨id, earlier ++ is⟩ :: below⟩, []) := by
  match is with
  | [] =>
    rw [eventsOfIterations, List.append_nil]
    rfl
  | ⟨i, os⟩ :: is =>
    have hcontents := play_eventsOfOperations os roots (collector_iteration i) []
      (.loop ⟨id, earlier⟩ :: below)
    rw [List.nil_append] at hcontents
    have hjoin : (Open.iteration ⟨i, os⟩).join (.loop ⟨id, earlier⟩) =
        some (.loop ⟨id, earlier ++ [⟨i, os⟩]⟩) := rfl
    have hend : record ⟨roots, .iteration ⟨i, os⟩ :: .loop ⟨id, earlier⟩ :: below⟩
        (.endIteration i) = (⟨roots, .loop ⟨id, earlier ++ [⟨i, os⟩]⟩ :: below⟩, []) :=
      record_ending_join hjoin roots below
    have hbegin : record ⟨roots, .loop ⟨id, earlier⟩ :: below⟩ (.beginIteration i) =
        (⟨roots, .iteration ⟨i, []⟩ :: .loop ⟨id, earlier⟩ :: below⟩, []) := rfl
    have hrest := play_eventsOfIterations is roots id (earlier ++ [⟨i, os⟩]) below
    rw [eventsOfIterations, List.append_cons,
      play_append_quiet (play_container hbegin hcontents hend), hrest, List.append_assoc,
      List.singleton_append]

end

theorem play_call (m : MethodCall) (roots : Roots) :
    play ⟨roots, []⟩ m.events = (⟨roots.insert m.id m, []⟩, []) := by
  obtain ⟨id, name, arguments, os⟩ := m
  have hcontents := play_eventsOfOperations os roots (collector_method id name arguments) [] []
  rw [List.nil_append] at hcontents
  rw [MethodCall.events, Operation.events]
  exact play_container rfl hcontents (record_ending roots (.method ⟨id, name, arguments, os⟩) [])

theorem play_calls (ms : List MethodCall) (roots : Roots) :
    play ⟨roots, []⟩ (ms.flatMap MethodCall.events) = (⟨roots.insertAll ms, []⟩, []) := by
  induction ms generalizing roots with
  | nil => rfl
  | cons m ms ih =>
    rw [List.flatMap_cons, play_append_quiet (play_call m roots), ih]
    rfl

/-- A recorder rebuilds a tree from its events. An operation joins the innermost container, if
that one collects operations, and nothing else changes; calls become the roots of a recorder
that was empty, of two with one id the later one. -/
theorem play_events_rebuilds :
    (∀ (op : Operation) (roots : Roots) (top : Open) (below : List Open), top.Collects →
      ∃ top', top.Adds op top' ∧
        play ⟨roots, top :: below⟩ op.events = (⟨roots, top' :: below⟩, [])) ∧
    ∀ ms : List MethodCall, ∃ roots : Roots,
      play {} (ms.flatMap MethodCall.events) = (⟨roots, []⟩, []) ∧ roots.Ascending ∧
        ∀ id, roots.get? id = (ms.filter fun m => m.id = id).getLast? := by
  refine ⟨fun op roots top below hcollects => ?_, fun ms => ?_⟩
  · obtain ⟨top', h⟩ := adds_of_collects hcollects op
    exact ⟨top', h, play_events op roots below h⟩
  · refine ⟨Roots.insertAll [] ms, play_calls ms [], Roots.ascending_insertAll .nil ms, ?_⟩
    intro id
    rw [Roots.get?_insertAll]
    exact Option.or_none

/-- A call with a loop in it joins the pass that a loop closed last. -/
theorem play_events_rebuilds_after_iteration :
    let op : Operation := .methodCall ⟨4, "g", [⟨5, "n", "0"⟩], [.loop ⟨6, [⟨7, []⟩,
      ⟨7, [.stateChange ⟨8, "x", "1"⟩]⟩]⟩, .returnValue ⟨9, none⟩]⟩
    let top : Open := .loop ⟨2, [⟨3, []⟩]⟩
    let below : List Open := [.method ⟨1, "f", [], []⟩]
    top.Collects ∧ play ⟨[], top :: below⟩ op.events =
      (⟨[], .loop ⟨2, [⟨3, [op]⟩]⟩ :: below⟩, []) := by
  intro op top below
  have hcollects : top.Collects := List.cons_ne_nil _ _
  obtain ⟨top', hadds, hplay⟩ := play_events_rebuilds.1 op [] top below hcollects
  have htop : some top' = some (.loop ⟨2, [⟨3, [op]⟩]⟩) := (addTo_of_adds hadds).symm
  rw [Option.some.inj htop] at hplay
  exact ⟨hcollects, hplay⟩

end Recorder

end LiveTrace
