import LiveTrace.Trace.Recorder

/-
  The stack of a recorder, one step at a time. `Adds` says what it is for a container to take
  an operation, `join` how a container that closes joins the one below it, and `closeTop` is
  put in these terms. `record_effect`: an event is refused with a warning, opens a container,
  adds an operation to the innermost one or closes it; there is nothing else that it can do.
-/
namespace LiveTrace

/-! ## Containers that take an operation -/

namespace Open

/-- `Adds op c d`: `d` is `c` with `op` at the end of the operations it collects, which are
those of its latest iteration for a loop. -/
inductive Adds (op : Operation) : Open → Open → Prop where
  | method (id : UInt32) (name : String) (arguments : List StateChange) (os : List Operation) :
    Adds op (.method ⟨id, name, arguments, os⟩) (.method ⟨id, name, arguments, os ++ [op]⟩)
  | iteration (id : UInt32) (os : List Operation) :
    Adds op (.iteration ⟨id, os⟩) (.iteration ⟨id, os ++ [op]⟩)
  | loop (id : UInt32) (is : List Iteration) (last : UInt32) (os : List Operation) :
    Adds op (.loop ⟨id, is ++ [⟨last, os⟩]⟩) (.loop ⟨id, is ++ [⟨last, os ++ [op]⟩]⟩)

/-- Whether a container collects operations. A loop without an iteration does not. -/
def Collects : Open → Prop
  | method _ => True
  | iteration _ => True
  | loop l => l.iterations ≠ []

end Open

namespace Recorder

theorem addToLast_concat (op : Operation) (is : List Iteration) (last : UInt32)
    (os : List Operation) :
    addToLast op (is ++ [⟨last, os⟩]) = some (is ++ [⟨last, os ++ [op]⟩]) := by
  induction is with
  | nil => rfl
  | cons i is ih =>
    cases is with
    | nil => rfl
    | cons j js =>
      rw [List.cons_append] at ih
      rw [List.cons_append, List.cons_append, addToLast, ih]
      rfl

theorem addTo_of_adds {op : Operation} {c d : Open} (h : c.Adds op d) : addTo op c = some d := by
  cases h with
  | method => rfl
  | iteration => rfl
  | loop id is last os =>
    dsimp only [addTo]
    rw [addToLast_concat]
    rfl

/-- A container takes any operation, or it is a loop without an iteration. -/
theorem adds_or_empty_loop (op : Operation) (c : Open) :
    (∃ d, c.Adds op d) ∨ ∃ id, c = .loop ⟨id, []⟩ := by
  cases c with
  | method m =>
    obtain ⟨id, name, arguments, os⟩ := m
    exact Or.inl ⟨_, .method id name arguments os⟩
  | iteration i =>
    obtain ⟨id, os⟩ := i
    exact Or.inl ⟨_, .iteration id os⟩
  | loop l =>
    obtain ⟨id, is⟩ := l
    rcases List.eq_nil_or_concat is with rfl | ⟨is, ⟨last, os⟩, h⟩
    · exact Or.inr ⟨id, rfl⟩
    · rw [h, List.concat_eq_append]
      exact Or.inl ⟨_, .loop id is last os⟩

theorem adds_of_collects {c : Open} (h : c.Collects) (op : Operation) : ∃ d, c.Adds op d := by
  rcases adds_or_empty_loop op c with hadds | ⟨id, rfl⟩
  · exact hadds
  · exact absurd rfl h

theorem addTo_eq_some {op : Operation} {c d : Open} (h : addTo op c = some d) : c.Adds op d := by
  rcases adds_or_empty_loop op c with ⟨e, he⟩ | ⟨id, rfl⟩
  · rw [addTo_of_adds he] at h
    exact Option.some.inj h ▸ he
  · contradiction

theorem append_of_adds {op : Operation} {top top' : Open} (h : top.Adds op top') (roots : Roots)
    (below : List Open) :
    append ⟨roots, top :: below⟩ op = (⟨roots, top' :: below⟩, []) := by
  simp only [append, addTo_of_adds h]

end Recorder

/-! ## Containers that close -/

namespace Open

/-- The container below once one has joined it: an iteration joins a loop, a loop or a call is
added like any operation. `none` is for a container that is lost. -/
def join : Open → Open → Option Open
  | iteration i, loop l => some (.loop { l with iterations := l.iterations ++ [i] })
  | iteration _, _ => none
  | loop l, below => Recorder.addTo (.loop l) below
  | method m, below => Recorder.addTo (.methodCall m) below

/-- The container below once one has closed onto it, joining it or not. -/
def settle (c below : Open) : Open := (c.join below).getD below

/-- What is left of the roots when the last open container closes. -/
def finish (roots : Roots) : Open → Roots
  | method m => roots.insert m.id m
  | _ => roots

/-- The event that closes a container. -/
def ending : Open → Event
  | method m => .endMethod m.id
  | loop l => .endLoop l.id
  | iteration i => .endIteration i.id

theorem ending_of_adds {op : Operation} {c d : Open} (h : c.Adds op d) : d.ending = c.ending := by
  cases h <;> rfl

theorem ending_settle (c below : Open) : (c.settle below).ending = below.ending := by
  unfold settle
  cases hj : c.join below with
  | none => rfl
  | some d =>
    rw [Option.getD_some]
    unfold join at hj
    split at hj
    · injection hj with hj
      rw [← hj]
      rfl
    · contradiction
    · exact ending_of_adds (Recorder.addTo_eq_some hj)
    · exact ending_of_adds (Recorder.addTo_eq_some hj)

end Open

namespace Recorder

theorem closeTop_join {c below joined : Open} (h : c.join below = some joined) (roots : Roots)
    (rest : List Open) :
    closeTop ⟨roots, c :: below :: rest⟩ = (⟨roots, joined :: rest⟩, []) := by
  cases c with
  | iteration i =>
    cases below with
    | loop l => exact Option.some.inj h ▸ rfl
    | method m => contradiction
    | iteration j => contradiction
  | loop l => exact append_of_adds (addTo_eq_some h) roots rest
  | method m => exact append_of_adds (addTo_eq_some h) roots rest

theorem closeTop_lost {c below : Open} (h : c.join below = none) (roots : Roots)
    (rest : List Open) :
    ∃ n : Note, n.level = .warn ∧
      closeTop ⟨roots, c :: below :: rest⟩ = (⟨roots, below :: rest⟩, [n]) := by
  cases c with
  | iteration i =>
    cases below with
    | loop l => contradiction
    | method m => exact ⟨.iterationLost i.id, rfl, rfl⟩
    | iteration j => exact ⟨.iterationLost i.id, rfl, rfl⟩
  | loop l =>
    refine ⟨.dropped l.id, rfl, ?_⟩
    change append ⟨roots, below :: rest⟩ (.loop l) = _
    unfold Open.join at h
    simp only [append, h]
    rfl
  | method m =>
    refine ⟨.dropped m.id, rfl, ?_⟩
    change append ⟨roots, below :: rest⟩ (.methodCall m) = _
    unfold Open.join at h
    simp only [append, h]
    rfl

theorem closeTop_settle (roots : Roots) (c below : Open) (rest : List Open) :
    (closeTop ⟨roots, c :: below :: rest⟩).1 = ⟨roots, c.settle below :: rest⟩ := by
  unfold Open.settle
  cases h : c.join below with
  | none =>
    obtain ⟨n, -, hn⟩ := closeTop_lost h roots rest
    rw [hn]
    rfl
  | some joined =>
    rw [closeTop_join h]
    rfl

theorem closeTop_last (roots : Roots) (c : Open) :
    (closeTop ⟨roots, [c]⟩).1 = ⟨c.finish roots, []⟩ := by
  cases c <;> rfl

/-- Nothing but a method may be the last to close without a warning. -/
theorem closeTop_last_quiet {roots : Roots} {c : Open}
    (h : ∀ n ∈ (closeTop ⟨roots, [c]⟩).2, n.level ≠ .warn) : ∃ m, c = .method m := by
  cases c with
  | method m => exact ⟨m, rfl⟩
  | loop l => exact absurd rfl (h (.dropped l.id) List.mem_cons_self)
  | iteration i => exact absurd rfl (h (.iterationLost i.id) List.mem_cons_self)

theorem record_ending (roots : Roots) (c : Open) (below : List Open) :
    record ⟨roots, c :: below⟩ c.ending = closeTop ⟨roots, c :: below⟩ := by
  cases c <;> simp [record, close, Open.ending, Open.kind]

end Recorder

/-! ## What one event can do -/

/-- The container that an event opens. -/
inductive Event.Opens : Event → Open → Prop where
  | method (id : UInt32) (name : String) (arguments : List StateChange) :
    Opens (.beginMethod id name arguments) (.method ⟨id, name, arguments, []⟩)
  | loop (id : UInt32) : Opens (.beginLoop id) (.loop ⟨id, []⟩)
  | iteration (id : UInt32) : Opens (.beginIteration id) (.iteration ⟨id, []⟩)

/-- The operation that an event records all at once. -/
inductive Event.Logs : Event → Operation → Prop where
  | change (c : StateChange) : Logs (.change c) (.stateChange c)
  | ret (r : ReturnValue) : Logs (.ret r) (.returnValue r)

/-- Where a container may open: a method anywhere, a loop inside of something, an iteration
right on a loop. -/
inductive Open.OpensOn : Open → List Open → Prop where
  | method (m : MethodCall) (stack : List Open) : OpensOn (.method m) stack
  | loop (l : Loop) (c : Open) (below : List Open) : OpensOn (.loop l) (c :: below)
  | iteration (i : Iteration) (l : Loop) (below : List Open) :
    OpensOn (.iteration i) (.loop l :: below)

/-- Where an event has no place. -/
inductive Event.Refused : List Open → Event → Prop where
  | ending {stack : List Open} {e : Event} (he : e.isEnd = true) : Refused stack e
  | opening {stack : List Open} {e : Event} {c : Open} (he : e.Opens c) (h : ¬ c.OpensOn stack) :
    Refused stack e
  | outside {e : Event} {op : Operation} (he : e.Logs op) : Refused [] e
  | early {e : Event} {op : Operation} (he : e.Logs op) (id : UInt32) (below : List Open) :
    Refused (.loop ⟨id, []⟩ :: below) e

namespace Recorder

/-- All that an event can do to a recorder, and the notes that come with it. -/
inductive Effect (roots : Roots) : List Open → Event → Recorder → List Note → Prop where
  | refuse {stack : List Open} {e : Event} {n : Note} (h : e.Refused stack)
    (hn : n.level = .warn) : Effect roots stack e ⟨roots, stack⟩ [n]
  | begins {stack : List Open} {e : Event} {c : Open} (he : e.Opens c) (h : c.OpensOn stack) :
    Effect roots stack e ⟨roots, c :: stack⟩ []
  | adds {e : Event} {op : Operation} {top top' : Open} (he : e.Logs op) (h : top.Adds op top')
    (below : List Open) : Effect roots (top :: below) e ⟨roots, top' :: below⟩ []
  | closes {e : Event} (he : e.isEnd = true) (top : Open) (below : List Open) :
    Effect roots (top :: below) e (closeTop ⟨roots, top :: below⟩).1
      (closeTop ⟨roots, top :: below⟩).2

theorem close_effect (roots : Roots) (stack : List Open) {e : Event} (he : e.isEnd = true)
    (kind : ContainerKind) (id : UInt32) :
    Effect roots stack e (close ⟨roots, stack⟩ kind id).1 (close ⟨roots, stack⟩ kind id).2 := by
  cases stack with
  | nil => exact .refuse (.ending he) rfl
  | cons top below =>
    by_cases h : top.kind = kind
    · have hc : close ⟨roots, top :: below⟩ kind id = closeTop ⟨roots, top :: below⟩ := if_pos h
      rw [hc]
      exact .closes he top below
    · have hc : close ⟨roots, top :: below⟩ kind id =
          (⟨roots, top :: below⟩, [.endIgnored kind id (some top.kind)]) := if_neg h
      rw [hc]
      exact .refuse (.ending he) rfl

theorem append_effect (roots : Roots) (stack : List Open) {e : Event} {op : Operation}
    (he : e.Logs op) :
    Effect roots stack e (append ⟨roots, stack⟩ op).1 (append ⟨roots, stack⟩ op).2 := by
  cases stack with
  | nil => exact .refuse (.outside he) rfl
  | cons top below =>
    rcases adds_or_empty_loop op top with ⟨top', h⟩ | ⟨id, rfl⟩
    · rw [append_of_adds h]
      exact .adds he h below
    · exact .refuse (.early he id below) rfl

theorem record_effect (roots : Roots) (stack : List Open) (e : Event) :
    Effect roots stack e (record ⟨roots, stack⟩ e).1 (record ⟨roots, stack⟩ e).2 := by
  cases e with
  | beginMethod id name arguments => exact .begins (.method id name arguments) (.method _ stack)
  | endMethod id => exact close_effect roots stack rfl .method id
  | beginLoop id =>
    cases stack with
    | nil => exact .refuse (.opening (.loop id) nofun) rfl
    | cons c below => exact .begins (.loop id) (.loop _ c below)
  | endLoop id => exact close_effect roots stack rfl .loop id
  | beginIteration id =>
    cases stack with
    | nil => exact .refuse (.opening (.iteration id) nofun) rfl
    | cons c below =>
      cases c with
      | method m => exact .refuse (.opening (.iteration id) nofun) rfl
      | loop l => exact .begins (.iteration id) (.iteration _ l below)
      | iteration i => exact .refuse (.opening (.iteration id) nofun) rfl
  | endIteration id => exact close_effect roots stack rfl .iteration id
  | change c => exact append_effect roots stack (.change c)
  | ret r => exact append_effect roots stack (.ret r)

end Recorder

end LiveTrace
