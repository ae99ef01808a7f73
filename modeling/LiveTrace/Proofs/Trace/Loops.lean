import LiveTrace.Proofs.Trace.Bracketing
import LiveTrace.Proofs.Trace.Calls

/-
  The loops of a call in the order in which they ran. A loop joins what it is in only when it ends,
  so loops are attached from the inside out, but they keep the place where they began.
  `Open.Becomes.outlines`: the loops in a container, each with the ids of its passes, are those of
  the runs that the events since tell of, in the order of their beginnings. `loops_in_order` says
  this of every call that is recorded without a warning.
-/
namespace LiveTrace

/-- The id of a loop and those of its passes. -/
def Loop.outline (l : Loop) : UInt32 × List UInt32 := (l.id, l.iterations.map Iteration.id)

/-! ## Runs of loops among events -/

/-- The pass that an event begins right in a certain container, when `depth` others are open in
there. -/
def Event.passAt (depth : Nat) : Event → List UInt32
  | .beginIteration id => if depth = 0 then [id] else []
  | _ => []

/-- The passes that begin right in a certain container, up to its end, when `depth` others are open
in there before the events. -/
def passesFrom (depth : Nat) : List Event → List UInt32
  | [] => []
  | e :: es =>
    e.passAt depth ++
      match e.depthAfter? depth with
      | some d => passesFrom d es
      | none => []

/-- The runs of loops that begin among events, in order: the id of the loop and those of the passes
that begin right in it. -/
def loopRuns : List Event → List (UInt32 × List UInt32)
  | [] => []
  | .beginLoop id :: es => (id, passesFrom 0 es) :: loopRuns es
  | _ :: es => loopRuns es

theorem Event.passAt_succ (e : Event) (depth : Nat) : e.passAt (depth + 1) = [] := by
  cases e <;> rfl

theorem passesFrom_cons {e : Event} {depth after : Nat} (h : e.depthAfter? depth = some after)
    (es : List Event) : passesFrom depth (e :: es) = e.passAt depth ++ passesFrom after es := by
  rw [passesFrom, h]

theorem passesFrom_append {depth after : Nat} {es : List Event}
    (h : depthAfter? depth es = some after) (fs : List Event) :
    passesFrom depth (es ++ fs) = passesFrom depth es ++ passesFrom after fs := by
  induction es generalizing depth with
  | nil => exact Option.some.inj h ▸ rfl
  | cons e es ih =>
    rw [depthAfter?_cons] at h
    obtain ⟨d, hd, hes⟩ := Option.bind_eq_some_iff.mp h
    rw [List.cons_append, passesFrom_cons hd, passesFrom_cons hd, ih hes, List.append_assoc]

/-- Behind the end of the container nothing counts. -/
theorem passesFrom_append_of_none {depth : Nat} {es : List Event}
    (h : depthAfter? depth es = none) (fs : List Event) :
    passesFrom depth (es ++ fs) = passesFrom depth es := by
  induction es generalizing depth with
  | nil => contradiction
  | cons e es ih =>
    rw [depthAfter?_cons] at h
    rw [List.cons_append, passesFrom, passesFrom]
    cases hd : e.depthAfter? depth with
    | none => rfl
    | some d =>
      rw [hd] at h
      exact congrArg _ (ih h)

/-- What begins further in does not count either. -/
theorem passesFrom_succ {depth after : Nat} {es : List Event}
    (h : depthAfter? depth es = some after) : passesFrom (depth + 1) es = [] := by
  induction es generalizing depth with
  | nil => rfl
  | cons e es ih =>
    rw [depthAfter?_cons] at h
    obtain ⟨d, hd, hes⟩ := Option.bind_eq_some_iff.mp h
    rw [passesFrom_cons (Event.depthAfter?_succ hd), Event.passAt_succ, ih hes, List.append_nil]

/-- Events that leave nothing open do not go on in what comes after them. -/
theorem loopRuns_append {depth : Nat} {es : List Event} (h : depthAfter? depth es = some 0)
    (fs : List Event) : loopRuns (es ++ fs) = loopRuns es ++ loopRuns fs := by
  induction es generalizing depth with
  | nil => rfl
  | cons e es ih =>
    rw [depthAfter?_cons] at h
    obtain ⟨d, hd, hes⟩ := Option.bind_eq_some_iff.mp h
    cases e with
    | beginLoop id =>
      -- The loop ends among `es`, for otherwise it would be open behind them.
      have hends : depthAfter? 0 es = none := by
        cases hfrom : depthAfter? 0 es with
        | none => rfl
        | some after =>
          have hadd := depthAfter?_add hfrom d
          rw [Nat.zero_add, hes] at hadd
          have hzero := Option.some.inj hadd
          obtain rfl : depth + 1 = d := Option.some.inj hd
          omega
      rw [List.cons_append, loopRuns, loopRuns, passesFrom_append_of_none hends, ih hes,
        List.cons_append]
    | _ => exact ih hes

theorem passesFrom_end {e : Event} (he : e.isEnd = true) (depth : Nat) :
    passesFrom depth [e] = [] := by
  cases e with
  | endMethod | endLoop | endIteration => cases depth <;> rfl
  | _ => contradiction

theorem loopRuns_end {e : Event} (he : e.isEnd = true) : loopRuns [e] = [] := by
  cases e with
  | endMethod | endLoop | endIteration => rfl
  | _ => contradiction

section

variable {e : Event} {c : Open} (he : e.Opens c) {inner : List Event} (h : Balanced inner)
  {e' : Event} (he' : e'.isEnd = true)
include he h he'

/-- A container that begins and ends tells of the same runs without its end. -/
theorem loopRuns_bracket : loopRuns (e :: inner ++ [e']) = loopRuns (e :: inner) := by
  have hruns : loopRuns (inner ++ [e']) = loopRuns inner := by
    rw [loopRuns_append h, loopRuns_end he', List.append_nil]
  rw [List.cons_append]
  cases he with
  | method | iteration => exact hruns
  | loop id =>
    rw [loopRuns, loopRuns, hruns, passesFrom_append h, passesFrom_end he', List.append_nil]

/-- Of a container that begins and ends only its beginning can be a pass. -/
theorem passesFrom_bracket : passesFrom 0 (e :: inner ++ [e']) = e.passAt 0 := by
  rw [List.cons_append, passesFrom_cons (he.depthAfter? 0), passesFrom_append (h.depthAfter? 1),
    passesFrom_succ h, passesFrom_end he', List.append_nil, List.append_nil]

end

/-! ## The loops in a container -/

theorem loopsOfOperations_append (os os' : List Operation) :
    loopsOfOperations (os ++ os') = loopsOfOperations os ++ loopsOfOperations os' := by
  induction os with
  | nil => rfl
  | cons op os ih =>
    rw [List.cons_append, loopsOfOperations, loopsOfOperations, ih, List.append_assoc]

theorem loopsOfOperations_singleton (op : Operation) : loopsOfOperations [op] = op.loops := by
  rw [loopsOfOperations, loopsOfOperations, List.append_nil]

theorem loopsOfIterations_append (is is' : List Iteration) :
    loopsOfIterations (is ++ is') = loopsOfIterations is ++ loopsOfIterations is' := by
  induction is with
  | nil => rfl
  | cons i is ih =>
    obtain ⟨id, os⟩ := i
    rw [List.cons_append, loopsOfIterations, loopsOfIterations, ih, List.append_assoc]

theorem loopsOfIterations_singleton (i : Iteration) :
    loopsOfIterations [i] = loopsOfOperations i.operations := by
  obtain ⟨id, os⟩ := i
  rw [loopsOfIterations, loopsOfIterations, List.append_nil]

namespace Open

/-- The loops in an open container, which does not count itself. -/
def loops : Open → List Loop
  | method m => m.loops
  | iteration i => loopsOfOperations i.operations
  | loop l => loopsOfIterations l.iterations

/-- The ids of the passes of an open loop so far. -/
def passes : Open → List UInt32
  | loop l => l.iterations.map Iteration.id
  | _ => []

variable {c d : Open}

theorem loops_of_adds {op : Operation} (h : c.Adds op d) : d.loops = c.loops ++ op.loops := by
  cases h with
  | method | iteration =>
    simp only [loops, MethodCall.loops, loopsOfOperations_append, loopsOfOperations_singleton]
  | loop =>
    simp only [loops, loopsOfIterations_append, loopsOfIterations_singleton,
      loopsOfOperations_append, loopsOfOperations_singleton, List.append_assoc]

theorem passes_of_adds {op : Operation} (h : c.Adds op d) : d.passes = c.passes := by
  cases h with
  | method | iteration => rfl
  | loop => simp [passes]

theorem loops_of_logs {e : Event} {op : Operation} (h : e.Logs op) : op.loops = [] := by
  cases h <;> simp only [Operation.loops]

theorem empty_of_opens {e : Event} (h : e.Opens c) : c.loops = [] ∧ c.passes = [] := by
  cases h <;> exact ⟨rfl, rfl⟩

/-- A container that joins the one below it brings the loops of the events from its beginning to
its end, and a pass if it is one. -/
theorem outlines_of_join {below joined : Open} (h : c.join below = some joined)
    {inner : List Event} (hloops : c.loops.map Loop.outline = loopRuns inner)
    (hpasses : c.passes = passesFrom 0 inner) :
    joined.loops.map Loop.outline = below.loops.map Loop.outline ++
        loopRuns (c.beginning :: inner) ∧
      joined.passes = below.passes ++ c.beginning.passAt 0 := by
  cases c with
  | method m =>
    have hadds := Recorder.addTo_eq_some h
    have hm : (Operation.methodCall m).loops = m.loops := by
      obtain ⟨id, name, arguments, os⟩ := m
      rw [Operation.loops, MethodCall.loops]
    rw [loops_of_adds hadds, passes_of_adds hadds, List.map_append, hm]
    exact ⟨congrArg _ hloops, (List.append_nil _).symm⟩
  | loop l =>
    have hadds := Recorder.addTo_eq_some h
    have hl : (Operation.loop l).loops = l :: loopsOfIterations l.iterations := by
      obtain ⟨id, is⟩ := l
      rw [Operation.loops]
    have houtline : l.outline = (l.id, passesFrom 0 inner) := congrArg (Prod.mk l.id) hpasses
    rw [loops_of_adds hadds, passes_of_adds hadds, List.map_append, hl, List.map_cons, houtline]
    exact ⟨congrArg (_ ++ _ :: ·) hloops, (List.append_nil _).symm⟩
  | iteration i =>
    cases below with
    | method | iteration => contradiction
    | loop l =>
      obtain rfl := Option.some.inj h
      simp only [loops, passes, loopsOfIterations_append, loopsOfIterations_singleton,
        List.map_append]
      exact ⟨congrArg _ hloops, rfl⟩

/-- What a container becomes has, after the loops that were in it, those of the events, in the order
of their beginnings. -/
theorem Becomes.outlines {es : List Event} (h : c.Becomes es d) :
    d.loops.map Loop.outline = c.loops.map Loop.outline ++ loopRuns es ∧
      d.passes = c.passes ++ passesFrom 0 es := by
  induction h with
  | nothing => exact ⟨(List.append_nil _).symm, (List.append_nil _).symm⟩
  | logs h he hd ih =>
    obtain ⟨hloops, hpasses⟩ := ih
    rw [loops_of_adds hd, loops_of_logs he, List.append_nil, hloops, passes_of_adds hd, hpasses,
      loopRuns_append h.balanced, passesFrom_append h.balanced]
    cases he <;> exact ⟨congrArg _ (List.append_nil _).symm, congrArg _ (List.append_nil _).symm⟩
  | @joins c d d' es e b b' inner e' h he hb he' hd ih ihb =>
    obtain ⟨hloops, hpasses⟩ := ih
    obtain ⟨hbloops, hbpasses⟩ := ihb
    -- `b` has just begun, so all that is in `b'` comes from `inner`.
    obtain ⟨hnoloops, hnopasses⟩ := empty_of_opens he
    rw [hnoloops] at hbloops
    rw [hnopasses] at hbpasses
    obtain ⟨hloops', hpasses'⟩ := outlines_of_join hd hbloops hbpasses
    rw [← beginning_of_becomes he hb] at hloops' hpasses'
    rw [hloops', hpasses', hloops, hpasses, loopRuns_append h.balanced,
      passesFrom_append h.balanced, loopRuns_bracket he hb.balanced he',
      passesFrom_bracket he hb.balanced he', List.append_assoc, List.append_assoc]
    exact ⟨rfl, rfl⟩

end Open

namespace Recorder

/-- Without warnings the loops of every call are in the order in which they began. A call in the
trace, at whatever depth and in a root or in something still open, ended at some point of the run
and is what it was then. When a call ends, what came since its beginning are events that end just
what they begin. `loops` gives the loops at all places of its tree, each place once; they are the
loops that those events begin, in order, each with one iteration for each that begins right in it,
in order. Unwinding counts as the ends of what is open, innermost first. -/
theorem loops_in_order (calls : List Request)
    (hq : ∀ n ∈ remarks {} calls, n.level ≠ .warn) :
    let run := asEvents {} calls
    (play {} run).1 = reached calls ∧
    (∀ m, (reached calls).Contains (.methodCall m) → ∃ before, EndsAt run before m) ∧
    ∀ before m, EndsAt run before m →
      ∃ earlier own, before = earlier ++ .beginMethod m.id m.name m.arguments :: own ∧
        Balanced own ∧ m.loops.map Loop.outline = loopRuns own ∧
        ∃ places, LoopPlaces (Operation.methodCall m).at? m.loops places := by
  intro run
  have hlast : (play {} run).1 = reached calls := play_asEvents {} calls
  refine ⟨hlast, fun m hm => exists_endsAt (hlast ▸ hm), fun before m hm => ?_⟩
  obtain ⟨⟨below, hstack⟩, id, rest, hsplit⟩ := hm
  have hquiet : ∀ n ∈ (play {} before).2, n.level ≠ .warn := by
    intro n hn
    have hrun : n ∈ (play {} run).2 := by
      rw [hsplit, play_append]
      exact List.mem_append_left _ hn
    exact hq n (mem_remarks hrun)
  have hgrown : GrownBy (play {} before).1.stack ([] ++ before) := grownBy_play (.nil []) hquiet
  rw [hstack, List.nil_append] at hgrown
  obtain ⟨earlier, own, b, hown, hopens, hbecomes⟩ := exists_own_of_grownBy hgrown
  obtain ⟨hloops, -⟩ := hbecomes.outlines
  rw [(Open.empty_of_opens hopens).1] at hloops
  exact ⟨earlier, own, hown, hbecomes.balanced, hloops, loopPlaces_call m⟩

/-- A loop in the first pass of another; behind that pass a nested call with a loop in it, and one
more loop. The second pass is open when all is unwound, and no end has the id of what it ends. -/
theorem loops_in_order_across_passes :
    let events : List Event := [.beginMethod 1 "f" [], .beginLoop 2, .beginIteration 3,
      .beginLoop 4, .beginIteration 5, .endIteration 0, .endLoop 0, .endIteration 0,
      .beginMethod 6 "g" [], .beginLoop 7, .endLoop 0, .endMethod 0, .beginLoop 8, .endLoop 0,
      .beginIteration 9]
    let calls := events.map .record ++ [.unwind]
    let g : MethodCall := ⟨6, "g", [], [.loop ⟨7, []⟩]⟩
    let f : MethodCall := ⟨1, "f", [], [.loop ⟨2, [⟨3, [.loop ⟨4, [⟨5, []⟩]⟩, .methodCall g,
      .loop ⟨8, []⟩]⟩, ⟨9, []⟩]⟩]⟩
    (∀ n ∈ remarks {} calls, n.level ≠ .warn) ∧ (reached calls).roots = [(1, f)] ∧
    (∃ before, EndsAt (asEvents {} calls) before g) ∧
    ∃ earlier own, events ++ [.endIteration 9, .endLoop 2] =
        earlier ++ .beginMethod 1 "f" [] :: own ∧
      Balanced own ∧ loopRuns own = [(2, [3, 9]), (4, [5]), (7, []), (8, [])] := by
  intro events calls g f
  have hq : ∀ n ∈ remarks {} calls, n.level ≠ .warn := by decide
  have hroots : (reached calls).roots = [(1, f)] := rfl
  have hg : (reached calls).Contains (.methodCall g) :=
    .inr ⟨(1, f), hroots ▸ List.mem_singleton_self _, [0, 0, 1], rfl⟩
  obtain ⟨-, hheld, hloops⟩ := loops_in_order calls hq
  have hf : EndsAt (asEvents {} calls) (events ++ [.endIteration 9, .endLoop 2]) f :=
    ⟨⟨[], rfl⟩, 1, [], rfl⟩
  obtain ⟨earlier, own, hsplit, hbalanced, houtlines, -⟩ := hloops _ f hf
  exact ⟨hq, hroots, hheld g hg, earlier, own, hsplit, hbalanced, houtlines.symm.trans rfl⟩

end Recorder

end LiveTrace
