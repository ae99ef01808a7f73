import LiveTrace.Proofs.Trace.Roots
import LiveTrace.Proofs.Trace.Unwinding
import Mathlib.Data.List.Induction

/-
  Nothing is lost, repeated or moved. The preorder of a tree lists what it holds by the events
  that began it, so for a recorder that gives no warning there is a law of conservation
  (`play_preorder`): the preorders of the roots it registers, then those of its open containers
  from the outermost to the innermost, are the events it took, without the ends.
  `registered_preorder` reads this off for each root at the moment it is registered.
-/
namespace LiveTrace

/-! ## The preorder of a tree -/

mutual

/-- An operation and all that is in it, each as the event that begins it, in order. -/
def Operation.preorder : Operation → List Event
  | .stateChange c => [.change c]
  | .returnValue r => [.ret r]
  | .loop ⟨id, is⟩ => .beginLoop id :: preorderOfIterations is
  | .methodCall ⟨id, name, arguments, os⟩ =>
    .beginMethod id name arguments :: preorderOfOperations os

def preorderOfOperations : List Operation → List Event
  | [] => []
  | op :: os => op.preorder ++ preorderOfOperations os

def preorderOfIterations : List Iteration → List Event
  | [] => []
  | ⟨id, os⟩ :: is => .beginIteration id :: preorderOfOperations os ++ preorderOfIterations is

end

def MethodCall.preorder (m : MethodCall) : List Event := (Operation.methodCall m).preorder

theorem preorderOfOperations_append (os os' : List Operation) :
    preorderOfOperations (os ++ os') = preorderOfOperations os ++ preorderOfOperations os' := by
  induction os with
  | nil => rfl
  | cons op os ih =>
    rw [List.cons_append, preorderOfOperations, preorderOfOperations, ih, List.append_assoc]

theorem preorderOfOperations_singleton (op : Operation) :
    preorderOfOperations [op] = op.preorder := by
  rw [preorderOfOperations, preorderOfOperations, List.append_nil]

theorem preorderOfIterations_append (is is' : List Iteration) :
    preorderOfIterations (is ++ is') = preorderOfIterations is ++ preorderOfIterations is' := by
  induction is with
  | nil => rfl
  | cons i is ih =>
    obtain ⟨id, os⟩ := i
    rw [List.cons_append, preorderOfIterations, preorderOfIterations, ih, List.append_assoc]

theorem preorderOfIterations_singleton (id : UInt32) (os : List Operation) :
    preorderOfIterations [⟨id, os⟩] = .beginIteration id :: preorderOfOperations os := by
  rw [preorderOfIterations, preorderOfIterations, List.append_nil]

/-! ## The preorder of a stack -/

namespace Open

/-- What an open container holds so far. -/
def preorder : Open → List Event
  | method m => m.preorder
  | loop l => (Operation.loop l).preorder
  | iteration i => preorderOfIterations [i]

theorem preorder_of_adds {op : Operation} {c d : Open} (h : c.Adds op d) :
    d.preorder = c.preorder ++ op.preorder := by
  cases h with
  | method id name arguments os =>
    simp only [preorder, MethodCall.preorder, Operation.preorder, preorderOfOperations_append,
      preorderOfOperations_singleton, List.cons_append]
  | iteration id os =>
    simp only [preorder, preorderOfIterations_singleton, preorderOfOperations_append,
      preorderOfOperations_singleton, List.cons_append]
  | loop id is last os =>
    simp only [preorder, Operation.preorder, preorderOfIterations_append,
      preorderOfIterations_singleton, preorderOfOperations_append,
      preorderOfOperations_singleton, List.cons_append, List.append_assoc]

/-- A container that joins the one below it comes last there. -/
theorem preorder_of_join {c below joined : Open} (h : c.join below = some joined) :
    joined.preorder = below.preorder ++ c.preorder := by
  cases c with
  | method m => exact preorder_of_adds (Recorder.addTo_eq_some h)
  | loop l => exact preorder_of_adds (Recorder.addTo_eq_some h)
  | iteration i =>
    cases below with
    | method m => contradiction
    | iteration j => contradiction
    | loop l =>
      obtain ⟨id, is⟩ := l
      rw [← Option.some.inj h]
      simp only [preorder, Operation.preorder, preorderOfIterations_append, List.cons_append]

theorem preorder_of_opens {e : Event} {c : Open} (h : e.Opens c) : c.preorder = [e] := by
  cases h <;> rfl

end Open

theorem Operation.preorder_of_logs {e : Event} {op : Operation} (h : e.Logs op) :
    op.preorder = [e] := by
  cases h <;> rfl

/-- What a stack holds, from the outermost container to the innermost. -/
def stackPreorder : List Open → List Event
  | [] => []
  | c :: below => stackPreorder below ++ c.preorder

/-- The events that begin or log something. -/
def withoutEnds (es : List Event) : List Event := es.filter fun e => !e.isEnd

theorem withoutEnds_append (es fs : List Event) :
    withoutEnds (es ++ fs) = withoutEnds es ++ withoutEnds fs := List.filter_append es fs

theorem withoutEnds_eq_nil {es : List Event} (h : ∀ e ∈ es, e.isEnd = true) :
    withoutEnds es = [] := by
  refine List.filter_eq_nil_iff.mpr fun e he => ?_
  rw [h e he]
  exact Bool.false_ne_true

theorem withoutEnds_end {e : Event} (h : e.isEnd = true) : withoutEnds [e] = [] := by
  rw [withoutEnds, List.filter_cons_of_neg (by simp [h]), List.filter_nil]

theorem Event.Opens.withoutEnds {e : Event} {c : Open} (h : e.Opens c) :
    withoutEnds [e] = [e] := by
  cases h <;> rfl

theorem Event.Logs.withoutEnds {e : Event} {op : Operation} (h : e.Logs op) :
    withoutEnds [e] = [e] := by
  cases h <;> rfl

namespace Recorder

/-! ## The roots that are registered -/

/-- The root that an event registers: the method that was all that was open, if nothing is
open any more. -/
def registered? (r : Recorder) (e : Event) : Option MethodCall :=
  match r.stack, (r.record e).1.stack with
  | [.method m], [] => some m
  | _, _ => none

/-- The roots that events register, in order. -/
def registered (r : Recorder) : List Event → List MethodCall
  | [] => []
  | e :: es => (r.registered? e).toList ++ registered (r.record e).1 es

theorem registered?_open {r : Recorder} {e : Event} (h : (r.record e).1.stack ≠ []) :
    r.registered? e = none := by
  unfold registered?
  split
  · contradiction
  · rfl

theorem registered?_eq_some {r : Recorder} {e : Event} {m : MethodCall}
    (h : r.registered? e = some m) : r.stack = [.method m] := by
  unfold registered? at h
  split at h
  · rename_i hstack _
    rw [hstack, Option.some.inj h]
  · contradiction

theorem registered?_close {roots : Roots} {m : MethodCall} {e : Event}
    (h : (record ⟨roots, [.method m]⟩ e).1.stack = []) :
    registered? ⟨roots, [.method m]⟩ e = some m := by
  unfold registered?
  rw [h]

/-- Without a warning, an event that leaves something open adds itself at the end of what is on
the stack, unless it is an end; one that leaves nothing open closes the last method. -/
theorem record_quiet {roots : Roots} {stack : List Open} {e : Event}
    (hq : ∀ n ∈ (record ⟨roots, stack⟩ e).2, n.level ≠ .warn) :
    ((record ⟨roots, stack⟩ e).1.stack ≠ [] ∧
      stackPreorder (record ⟨roots, stack⟩ e).1.stack = stackPreorder stack ++ withoutEnds [e]) ∨
    (e.isEnd = true ∧ ∃ m, stack = [.method m] ∧ (record ⟨roots, stack⟩ e).1.stack = []) := by
  have heff := record_effect roots stack e
  generalize record ⟨roots, stack⟩ e = after at heff hq ⊢
  obtain ⟨s, notes⟩ := after
  cases heff with
  | refuse _ hn => exact absurd hn (hq _ List.mem_cons_self)
  | begins he h =>
    refine Or.inl ⟨List.cons_ne_nil _ _, ?_⟩
    rw [stackPreorder, Open.preorder_of_opens he, he.withoutEnds]
  | adds he h below =>
    refine Or.inl ⟨List.cons_ne_nil _ _, ?_⟩
    rw [stackPreorder, stackPreorder, Open.preorder_of_adds h, Operation.preorder_of_logs he,
      he.withoutEnds, List.append_assoc]
  | closes he top below =>
    cases below with
    | nil =>
      obtain ⟨m, rfl⟩ := closeTop_last_quiet hq
      exact Or.inr ⟨he, m, rfl, congrArg stack (closeTop_last roots (.method m))⟩
    | cons c rest =>
      cases hj : top.join c with
      | none =>
        obtain ⟨n, hn, hlost⟩ := closeTop_lost hj roots rest
        rw [hlost] at hq
        exact absurd hn (hq n List.mem_cons_self)
      | some joined =>
        rw [closeTop_join hj]
        refine Or.inl ⟨List.cons_ne_nil _ _, ?_⟩
        rw [stackPreorder, stackPreorder, stackPreorder, Open.preorder_of_join hj,
          withoutEnds_end he, List.append_nil, List.append_assoc]

theorem record_preorder {r : Recorder} {e : Event}
    (hq : ∀ n ∈ (r.record e).2, n.level ≠ .warn) :
    (r.registered? e).toList.flatMap MethodCall.preorder ++
        stackPreorder (r.record e).1.stack =
      stackPreorder r.stack ++ withoutEnds [e] := by
  rcases record_quiet hq with ⟨hopen, hadded⟩ | ⟨he, m, hstack, hclosed⟩
  · rw [registered?_open hopen, hadded]
    rfl
  · obtain ⟨roots, stack⟩ := r
    obtain rfl : stack = [.method m] := hstack
    rw [registered?_close hclosed, hclosed, withoutEnds_end he]
    simp [stackPreorder, Open.preorder]

/-- Conservation: what is registered and then what is still open is what was open before and
then the events taken, in order. -/
theorem play_preorder {r : Recorder} {es : List Event}
    (hq : ∀ n ∈ (r.play es).2, n.level ≠ .warn) :
    (r.registered es).flatMap MethodCall.preorder ++ stackPreorder (r.play es).1.stack =
      stackPreorder r.stack ++ withoutEnds es := by
  induction es generalizing r with
  | nil => simp [registered, play, withoutEnds]
  | cons e es ih =>
    rw [play_cons] at hq ⊢
    have hfirst := record_preorder fun n hn => hq n (List.mem_append_left _ hn)
    have hrest := ih fun n hn => hq n (List.mem_append_right _ hn)
    rw [registered, List.flatMap_append, List.append_assoc, hrest, ← List.append_assoc, hfirst,
      List.append_assoc, ← withoutEnds_append, List.singleton_append]

theorem roots_record_open {r : Recorder} {e : Event} (h : (r.record e).1.stack ≠ []) :
    (r.record e).1.roots = r.roots := by
  obtain ⟨roots, stack⟩ := r
  have heff := record_effect roots stack e
  generalize record ⟨roots, stack⟩ e = after at heff h
  obtain ⟨s, notes⟩ := after
  cases heff with
  | refuse => rfl
  | begins => rfl
  | adds => rfl
  | closes _ top below =>
    cases below with
    | nil =>
      rw [closeTop_last] at h
      exact absurd rfl h
    | cons c rest => rw [closeTop_settle]

theorem roots_record (r : Recorder) (e : Event) :
    (r.record e).1.roots = r.roots.insertAll (r.registered? e).toList := by
  by_cases hopen : (r.record e).1.stack = []
  · obtain ⟨roots, stack⟩ := r
    have heff := record_effect roots stack e
    unfold registered?
    generalize record ⟨roots, stack⟩ e = after at heff hopen ⊢
    obtain ⟨s, notes⟩ := after
    cases heff with
    | refuse =>
      obtain rfl : stack = [] := hopen
      rfl
    | begins => contradiction
    | adds => contradiction
    | closes _ top below =>
      cases below with
      | nil =>
        rw [closeTop_last]
        cases top <;> rfl
      | cons c rest =>
        rw [closeTop_settle] at hopen
        contradiction
  · rw [registered?_open hopen]
    exact roots_record_open hopen

theorem roots_play (r : Recorder) (es : List Event) :
    (r.play es).1.roots = r.roots.insertAll (r.registered es) := by
  induction es generalizing r with
  | nil => rfl
  | cons e es ih =>
    rw [play_cons, ih, roots_record, registered, Roots.insertAll, Roots.insertAll, Roots.insertAll,
      List.foldl_append]

/-! ## The events of one root -/

/-- `own` are the events since the open root began: they start with its beginning, when nothing
was open, and something was open ever since. -/
structure OfOpenRoot (earlier own : List Event) : Prop where
  idle : (play {} earlier).1.stack = []
  begins : ∃ id name arguments rest, own = .beginMethod id name arguments :: rest
  busy : ∀ part, part <+: own → part ≠ [] → (play {} (earlier ++ part)).1.stack ≠ []

theorem OfOpenRoot.start {earlier : List Event} (hidle : (play {} earlier).1.stack = [])
    (id : UInt32) (name : String) (arguments : List StateChange) :
    OfOpenRoot earlier [.beginMethod id name arguments] := by
  refine ⟨hidle, ⟨id, name, arguments, [], rfl⟩, fun part hpart hne => ?_⟩
  obtain ⟨tail, rfl, htail⟩ := (List.prefix_cons_iff.mp hpart).resolve_left hne
  rw [List.prefix_nil.mp htail, play_append, play_singleton]
  exact List.cons_ne_nil _ _

theorem OfOpenRoot.concat {earlier own : List Event} (h : OfOpenRoot earlier own) {e : Event}
    (hopen : (play {} (earlier ++ own ++ [e])).1.stack ≠ []) :
    OfOpenRoot earlier (own ++ [e]) := by
  obtain ⟨id, name, arguments, rest, rfl⟩ := h.begins
  refine ⟨h.idle, ⟨id, name, arguments, rest ++ [e], rfl⟩, fun part hpart hne => ?_⟩
  rcases List.prefix_concat_iff.mp hpart with rfl | hpart
  · rw [← List.append_assoc]
    exact hopen
  · exact h.busy part hpart hne

/-- With nothing open, only a method may begin without a warning. -/
theorem beginMethod_of_quiet {r : Recorder} (hidle : r.stack = []) {e : Event}
    (hq : ∀ n ∈ (r.record e).2, n.level ≠ .warn) :
    ∃ id name arguments, e = .beginMethod id name arguments := by
  obtain ⟨roots, stack⟩ := r
  obtain rfl : stack = [] := hidle
  have heff := record_effect roots [] e
  generalize record ⟨roots, []⟩ e = after at heff hq
  obtain ⟨s, notes⟩ := after
  cases heff with
  | refuse _ hn => exact absurd hn (hq _ List.mem_cons_self)
  | begins he h =>
    cases h with
    | method m =>
      cases he with
      | method id name arguments => exact ⟨id, name, arguments, rfl⟩

/-- What is open at the end of a run without warnings is what was recorded since its outermost
container began. -/
theorem exists_ofOpenRoot {es : List Event} (hq : ∀ n ∈ (play {} es).2, n.level ≠ .warn)
    (hopen : (play {} es).1.stack ≠ []) :
    ∃ earlier own, es = earlier ++ own ∧ OfOpenRoot earlier own ∧
      stackPreorder (play {} es).1.stack = withoutEnds own := by
  -- On the last event: it begins the root, or it comes after one that began before.
  induction es using List.reverseRecOn with
  | nil => exact absurd rfl hopen
  | append_singleton es e ih =>
    have happend := play_append {} es [e]
    rw [play_singleton] at happend
    rw [happend] at hq
    have hbefore : ∀ n ∈ (play {} es).2, n.level ≠ .warn :=
      fun n hn => hq n (List.mem_append_left _ hn)
    have hlast : ∀ n ∈ ((play {} es).1.record e).2, n.level ≠ .warn :=
      fun n hn => hq n (List.mem_append_right _ hn)
    have hpreorder := record_preorder hlast
    rw [registered?_open (by rw [happend] at hopen; exact hopen)] at hpreorder
    by_cases hidle : (play {} es).1.stack = []
    · obtain ⟨id, name, arguments, rfl⟩ := beginMethod_of_quiet hidle hlast
      refine ⟨es, _, rfl, .start hidle id name arguments, ?_⟩
      rw [hidle] at hpreorder
      rw [happend]
      exact hpreorder
    · obtain ⟨earlier, own, rfl, hown, hopened⟩ := ih hbefore hidle
      refine ⟨earlier, own ++ [e], List.append_assoc .., hown.concat hopen, ?_⟩
      rw [hopened] at hpreorder
      rw [happend, withoutEnds_append]
      exact hpreorder

/-- Without warnings nothing is lost, repeated or moved. Each root holds, at the moment it is
registered, the events from its beginning to its close, without the ends and in order; all
roots in turn hold all that was begun or logged; and the trace holds the last root of each id.
Unwinding counts as the ends of what is open, innermost first. -/
theorem registered_preorder (es : List Event)
    (hq : ∀ n ∈ (play {} es).2 ++ (play {} es).1.unwind.2, n.level ≠ .warn) :
    let run := es ++ (play {} es).1.closing
    (play {} run).1 = (play {} es).1.unwind.1 ∧
    (∀ before e rest m, run = before ++ e :: rest →
      (play {} before).1.registered? e = some m →
      ((play {} before).1.record e).1.roots = (play {} before).1.roots.insert m.id m ∧
      ∃ earlier own, before = earlier ++ own ∧ OfOpenRoot earlier own ∧
        m.preorder = withoutEnds own) ∧
    (registered {} run).flatMap MethodCall.preorder = withoutEnds es ∧
    ∀ id, (play {} es).1.unwind.1.roots.get? id =
      ((registered {} run).filter fun m => m.id = id).getLast? := by
  intro run
  have hlast : (play {} run).1 = (play {} es).1.unwind.1 := play_append_closing {} es
  have hquiet : ∀ n ∈ (play {} run).2, n.level ≠ .warn :=
    fun n hn => hq n (mem_notes_of_append_closing hn)
  refine ⟨hlast, fun before e rest m hsplit hm => ?_, ?_, fun id => ?_⟩
  · have hbefore : ∀ n ∈ (play {} before).2, n.level ≠ .warn := by
      rw [hsplit, play_append] at hquiet
      exact fun n hn => hquiet n (List.mem_append_left _ hn)
    have hstack := registered?_eq_some hm
    obtain ⟨earlier, own, hown, hroot, hpreorder⟩ :=
      exists_ofOpenRoot hbefore (by rw [hstack]; exact List.cons_ne_nil _ _)
    rw [hstack] at hpreorder
    refine ⟨?_, earlier, own, hown, hroot, hpreorder⟩
    rw [roots_record, hm]
    rfl
  · have hall := play_preorder hquiet
    rw [hlast, unwind_eq] at hall
    dsimp only [stackPreorder] at hall
    rw [List.append_nil, List.nil_append, withoutEnds_append,
      withoutEnds_eq_nil (isEnd_of_mem_closing _), List.append_nil] at hall
    exact hall
  · rw [← hlast, roots_play, Roots.get?_insertAll]
    exact Option.or_none

/-- A loop inside a method, with a change between two passes and the second pass cut short, and
a method of the same id before it. -/
theorem registered_preorder_between_iterations :
    let es : List Event := [.beginMethod 1 "f" [], .endMethod 1, .beginMethod 1 "g" [⟨2, "n", "0"⟩],
      .beginLoop 3, .beginIteration 4, .endIteration 4, .change ⟨5, "x", "1"⟩, .beginIteration 4,
      .ret ⟨6, none⟩]
    (∀ n ∈ (play {} es).2 ++ (play {} es).1.unwind.2, n.level ≠ .warn) ∧
      (registered {} (es ++ (play {} es).1.closing)).flatMap MethodCall.preorder =
        withoutEnds es ∧
      (play {} es).1.unwind.1.roots.get? 1 = some ⟨1, "g", [⟨2, "n", "0"⟩],
        [.loop ⟨3, [⟨4, [.stateChange ⟨5, "x", "1"⟩]⟩, ⟨4, [.returnValue ⟨6, none⟩]⟩]⟩]⟩ := by
  intro es
  have hq : ∀ n ∈ (play {} es).2 ++ (play {} es).1.unwind.2, n.level ≠ .warn := by decide
  obtain ⟨-, -, hall, hroots⟩ := registered_preorder es hq
  exact ⟨hq, hall, (hroots 1).trans rfl⟩

end Recorder

end LiveTrace
