import LiveTrace.Proofs.Trace.Places
import LiveTrace.Proofs.Trace.Roots
import LiveTrace.Proofs.Trace.Warnings
import Mathlib.Data.List.Induction

/-
  Where the calls of a trace come from. What an operation that joins a container brings there is
  itself and what is in it (`Open.contains_of_adds`), so one event adds at most one call to all that
  a recorder holds, the innermost method when it ends (`contains_record`). Hence every call that a
  recorder holds after some events, at whatever depth and in a root or in something still open, was
  at one time the innermost open method, just as it is now, and ended then (`exists_endsAt`).
  Requests to unwind can be spelled out as ends (`play_asEvents`).
-/
namespace LiveTrace

/-! ## What is in a tree -/

/-- Whether `part` is somewhere in an operation or is that operation. -/
def Operation.Contains (op part : Operation) : Prop := ∃ place, op.at? place = some part

def OperationsContain (os : List Operation) (part : Operation) : Prop :=
  ∃ place, inOperations? os place = some part

def IterationsContain (is : List Iteration) (part : Operation) : Prop :=
  ∃ place, inIterations? is place = some part

section

variable {part : Operation}

theorem contains_iff {op : Operation} :
    op.Contains part ↔ op = part ∨ ∃ k place, op.at? (k :: place) = some part := by
  constructor
  · rintro ⟨place, h⟩
    cases place with
    | nil =>
      rw [Operation.at?] at h
      exact .inl (Option.some.inj h)
    | cons k place => exact .inr ⟨k, place, h⟩
  · rintro (rfl | ⟨k, place, h⟩)
    · exact ⟨[], by rw [Operation.at?]⟩
    · exact ⟨k :: place, h⟩

theorem operationsContain_iff {os : List Operation} :
    OperationsContain os part ↔ ∃ k place, inOperations? os (k :: place) = some part := by
  refine ⟨fun ⟨place, h⟩ => ?_, fun ⟨k, place, h⟩ => ⟨k :: place, h⟩⟩
  cases place with
  | nil => exact nomatch (inOperations?_nil os).symm.trans h
  | cons k place => exact ⟨k, place, h⟩

theorem iterationsContain_iff {is : List Iteration} :
    IterationsContain is part ↔ ∃ k place, inIterations? is (k :: place) = some part := by
  refine ⟨fun ⟨place, h⟩ => ?_, fun ⟨k, place, h⟩ => ⟨k :: place, h⟩⟩
  cases place with
  | nil => exact nomatch (inIterations?_nil is).symm.trans h
  | cons k place => exact ⟨k, place, h⟩

/-- There is nothing in what is recorded all at once. -/
theorem contains_of_logs {e : Event} {op : Operation} (he : e.Logs op) :
    op.Contains part ↔ op = part := by
  rw [contains_iff]
  refine or_iff_left fun ⟨k, place, h⟩ => ?_
  cases he <;> simp [Operation.at?] at h

theorem contains_loop {l : Loop} :
    (Operation.loop l).Contains part ↔ .loop l = part ∨ IterationsContain l.iterations part := by
  obtain ⟨id, is⟩ := l
  rw [contains_iff, iterationsContain_iff]
  rfl

theorem contains_methodCall {m : MethodCall} :
    (Operation.methodCall m).Contains part ↔
      .methodCall m = part ∨ OperationsContain m.operations part := by
  obtain ⟨id, name, arguments, os⟩ := m
  rw [contains_iff, operationsContain_iff]
  rfl

theorem operationsContain_nil : ¬ OperationsContain [] part := fun ⟨_, h⟩ => nomatch h

theorem operationsContain_cons {op : Operation} {os : List Operation} :
    OperationsContain (op :: os) part ↔ op.Contains part ∨ OperationsContain os part :=
  (findsCons_operations op os).exists_iff

theorem operationsContain_append {os os' : List Operation} :
    OperationsContain (os ++ os') part ↔
      OperationsContain os part ∨ OperationsContain os' part := by
  induction os with
  | nil => exact (or_iff_right operationsContain_nil).symm
  | cons op os ih =>
    rw [List.cons_append, operationsContain_cons, operationsContain_cons, ih, or_assoc]

theorem operationsContain_singleton {op : Operation} :
    OperationsContain [op] part ↔ op.Contains part := by
  rw [operationsContain_cons]
  exact or_iff_left operationsContain_nil

theorem iterationsContain_nil : ¬ IterationsContain [] part := fun ⟨_, h⟩ => nomatch h

theorem iterationsContain_cons {i : Iteration} {is : List Iteration} :
    IterationsContain (i :: is) part ↔
      OperationsContain i.operations part ∨ IterationsContain is part := by
  obtain ⟨id, os⟩ := i
  exact (findsCons_iterations id os is).exists_iff

theorem iterationsContain_append {is is' : List Iteration} :
    IterationsContain (is ++ is') part ↔
      IterationsContain is part ∨ IterationsContain is' part := by
  induction is with
  | nil => exact (or_iff_right iterationsContain_nil).symm
  | cons i is ih =>
    rw [List.cons_append, iterationsContain_cons, iterationsContain_cons, ih, or_assoc]

theorem iterationsContain_singleton {i : Iteration} :
    IterationsContain [i] part ↔ OperationsContain i.operations part := by
  rw [iterationsContain_cons]
  exact or_iff_left iterationsContain_nil

end

/-! ## What is in an open container -/

namespace Open

/-- Whether `part` is in an open container, which does not count itself. -/
def Contains : Open → Operation → Prop
  | method m, part => OperationsContain m.operations part
  | iteration i, part => OperationsContain i.operations part
  | loop l, part => IterationsContain l.iterations part

theorem contains_of_adds {op part : Operation} {c d : Open} (h : c.Adds op d) :
    d.Contains part ↔ c.Contains part ∨ op.Contains part := by
  cases h with
  | method | iteration =>
    simp only [Contains, operationsContain_append, operationsContain_singleton]
  | loop =>
    simp only [Contains, iterationsContain_append, iterationsContain_singleton,
      operationsContain_append, operationsContain_singleton, or_assoc]

/-- A container that joins the one below it brings what is in it and, but for iterations, itself. -/
theorem contains_of_join {c below joined : Open} (h : c.join below = some joined) {m : MethodCall}
    (hm : joined.Contains (.methodCall m)) :
    below.Contains (.methodCall m) ∨ c.Contains (.methodCall m) ∨ c = .method m := by
  cases c with
  | method m' =>
    rw [contains_of_adds (Recorder.addTo_eq_some h), contains_methodCall] at hm
    rcases hm with hbelow | heq | hin
    · exact .inl hbelow
    · exact .inr (.inr (congrArg Open.method (Operation.methodCall.inj heq)))
    · exact .inr (.inl hin)
  | loop l =>
    rw [contains_of_adds (Recorder.addTo_eq_some h), contains_loop] at hm
    exact hm.imp_right fun hl => .inl (hl.resolve_left nofun)
  | iteration i =>
    cases below with
    | method | iteration => contradiction
    | loop l =>
      rw [← Option.some.inj h] at hm
      simp only [Contains, iterationsContain_append, iterationsContain_singleton] at hm
      exact hm.imp_right .inl

theorem not_contains_of_opens {e : Event} {c : Open} (h : e.Opens c) (part : Operation) :
    ¬ c.Contains part := by
  cases h with
  | method | iteration => exact operationsContain_nil
  | loop => exact iterationsContain_nil

end Open

namespace Recorder

/-! ## What a recorder holds -/

/-- Whether `part` is in a root or in an open container. -/
def Contains (r : Recorder) (part : Operation) : Prop :=
  (∃ c ∈ r.stack, c.Contains part) ∨ ∃ root ∈ r.roots, (Operation.methodCall root.2).Contains part

/-- An end of another kind than the innermost method leaves all as it is. -/
theorem record_of_ne_endMethod (roots : Roots) (m : MethodCall) (below : List Open) {e : Event}
    (he : e.isEnd = true) (hne : ∀ id, e ≠ .endMethod id) :
    (record ⟨roots, .method m :: below⟩ e).1 = ⟨roots, .method m :: below⟩ := by
  cases e with
  | endMethod id => exact absurd rfl (hne id)
  | endLoop | endIteration => rfl
  | _ => contradiction

theorem contains_closeTop {roots : Roots} {top : Open} {below : List Open} {m : MethodCall}
    (h : (closeTop ⟨roots, top :: below⟩).1.Contains (.methodCall m)) :
    Contains ⟨roots, top :: below⟩ (.methodCall m) ∨ top = .method m := by
  have htop (hin : top.Contains (.methodCall m)) :
      Contains ⟨roots, top :: below⟩ (.methodCall m) := .inl ⟨top, List.mem_cons_self, hin⟩
  cases below with
  | nil =>
    rw [closeTop_last] at h
    obtain ⟨root, hroot, hin⟩ := h.resolve_left fun ⟨_, hc, _⟩ => nomatch hc
    cases top with
    | loop | iteration => exact .inl (.inr ⟨root, hroot, hin⟩)
    | method m' =>
      rcases Roots.mem_insert hroot with rfl | hroot
      · rw [contains_methodCall] at hin
        rcases hin with heq | hin
        · exact .inr (congrArg Open.method (Operation.methodCall.inj heq))
        · exact .inl (htop hin)
      · exact .inl (.inr ⟨root, hroot, hin⟩)
  | cons c rest =>
    have hbelow (hin : c.Contains (.methodCall m)) :
        Contains ⟨roots, top :: c :: rest⟩ (.methodCall m) :=
      .inl ⟨c, List.mem_cons_of_mem top List.mem_cons_self, hin⟩
    rw [closeTop_settle] at h
    rcases h with ⟨d, hd, hin⟩ | hroots
    · rcases List.mem_cons.mp hd with rfl | hd
      · unfold Open.settle at hin
        cases hj : top.join c with
        | none =>
          rw [hj] at hin
          exact .inl (hbelow hin)
        | some joined =>
          rw [hj] at hin
          rcases Open.contains_of_join hj hin with hin | hin | heq
          · exact .inl (hbelow hin)
          · exact .inl (htop hin)
          · exact .inr heq
      · exact .inl (.inl ⟨d, List.mem_cons_of_mem top (List.mem_cons_of_mem c hd), hin⟩)
    · exact .inl (.inr hroots)

/-- A call that a recorder holds after an event was held before, or it is the method that the event
ended. -/
theorem contains_record {r : Recorder} {e : Event} {m : MethodCall}
    (h : (r.record e).1.Contains (.methodCall m)) :
    r.Contains (.methodCall m) ∨
      ∃ id below, e = .endMethod id ∧ r.stack = .method m :: below := by
  obtain ⟨roots, stack⟩ := r
  -- Which kind of end closed something is not part of `Effect`, so the other kinds go first.
  by_cases hother : ∃ m' below, stack = .method m' :: below ∧ e.isEnd = true ∧
      ∀ id, e ≠ .endMethod id
  · obtain ⟨m', below, rfl, he, hne⟩ := hother
    rw [record_of_ne_endMethod roots m' below he hne] at h
    exact .inl h
  have heff := record_effect roots stack e
  generalize record ⟨roots, stack⟩ e = after at heff h
  obtain ⟨s, notes⟩ := after
  cases heff with
  | refuse => exact .inl h
  | @begins _ _ c he _ =>
    left
    rcases h with ⟨d, hd, hin⟩ | hroots
    · rcases List.mem_cons.mp hd with rfl | hd
      · exact absurd hin (Open.not_contains_of_opens he _)
      · exact .inl ⟨d, hd, hin⟩
    · exact .inr hroots
  | @adds _ op top top' he hadds below =>
    left
    rcases h with ⟨d, hd, hin⟩ | hroots
    · rcases List.mem_cons.mp hd with rfl | hd
      · rw [Open.contains_of_adds hadds] at hin
        refine .inl ⟨top, List.mem_cons_self, hin.resolve_right fun hop => ?_⟩
        rw [contains_of_logs he] at hop
        cases he <;> contradiction
      · exact .inl ⟨d, List.mem_cons_of_mem top hd, hin⟩
    · exact .inr hroots
  | closes he top below =>
    refine (contains_closeTop h).imp_right fun htop => ?_
    subst htop
    by_contra hno
    exact hother ⟨m, below, rfl, he, fun id hid => hno ⟨id, below, hid, rfl⟩⟩

/-- In the course of `run`, after the events `before`, the call `m` is the innermost open container
and the next event is its end. -/
structure EndsAt (run before : List Event) (m : MethodCall) : Prop where
  innermost : ∃ below, (play {} before).1.stack = .method m :: below
  next : ∃ id rest, run = before ++ .endMethod id :: rest

/-- Every call that a recorder holds ended, and was then what it is now. -/
theorem exists_endsAt {run : List Event} {m : MethodCall}
    (h : (play {} run).1.Contains (.methodCall m)) : ∃ before, EndsAt run before m := by
  induction run using List.reverseRecOn with
  | nil =>
    rcases h with ⟨c, hc, _⟩ | ⟨root, hroot, _⟩
    · exact nomatch hc
    · exact nomatch hroot
  | append_singleton es e ih =>
    rw [play_append, play_singleton] at h
    rcases contains_record h with hbefore | ⟨id, below, rfl, hstack⟩
    · obtain ⟨before, hinnermost, id, rest, rfl⟩ := ih hbefore
      exact ⟨before, hinnermost, id, rest ++ [e], by rw [List.append_assoc, List.cons_append]⟩
    · exact ⟨es, ⟨below, hstack⟩, id, [], rfl⟩

/-! ## Requests as events -/

/-- What a recorder has to say about some calls to it. -/
def remarks (r : Recorder) : List Request → List Note
  | [] => []
  | call :: calls => (r.answer call).2 ++ remarks (r.answer call).1 calls

/-- Calls spelled out as events: to unwind is to end all that is open, innermost first. -/
def asEvents (r : Recorder) : List Request → List Event
  | [] => []
  | .record e :: calls => e :: asEvents (r.record e).1 calls
  | .unwind :: calls => r.closing ++ asEvents r.unwind.1 calls

theorem play_asEvents (r : Recorder) (calls : List Request) :
    (r.play (r.asEvents calls)).1 = calls.foldl (fun r call => (r.answer call).1) r := by
  induction calls generalizing r with
  | nil => rfl
  | cons call calls ih =>
    cases call with
    | record e =>
      rw [asEvents, play_cons, ih]
      rfl
    | unwind =>
      rw [asEvents, play_append, play_closing, ih]
      rfl

theorem mem_remarks {r : Recorder} {calls : List Request} {n : Note}
    (h : n ∈ (r.play (r.asEvents calls)).2) : n ∈ r.remarks calls := by
  induction calls generalizing r with
  | nil => exact h
  | cons call calls ih =>
    refine List.mem_append.mpr ?_
    cases call with
    | record e =>
      rw [asEvents, play_cons] at h
      exact (List.mem_append.mp h).imp_right ih
    | unwind =>
      rw [asEvents, play_append, play_closing] at h
      refine (List.mem_append.mp h).imp (fun hclosing => ?_) ih
      change n ∈ r.unwind.2
      rw [unwind_notes]
      exact List.mem_append_right _ hclosing

end Recorder

end LiveTrace
