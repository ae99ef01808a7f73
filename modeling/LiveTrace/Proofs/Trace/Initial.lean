import LiveTrace.Proofs.Trace.Roots
import LiveTrace.Proofs.Trace.Unwinding

/-
  A trace cut short. A tree is an initial part of another if they are the same but for what is
  missing at the end: in each list of children all but the last are equal, and the last is
  again an initial part. Every event extends the trace that unwinding would give
  (`initial_finished_record`), so whatever a prefix of a run unwinds to is an initial part of
  what the whole run unwinds to (`initial_of_prefix`).
-/
namespace LiveTrace

/-! ## Initial parts -/

/-- All elements but the last are the corresponding ones, and the last is related to the
corresponding one. -/
inductive InitialList {α : Type} (R : α → α → Prop) : List α → List α → Prop where
  | empty (bs : List α) : InitialList R [] bs
  | upTo (front : List α) {a b : α} (h : R a b) (rest : List α) :
    InitialList R (front ++ [a]) (front ++ b :: rest)

mutual

/-- An operation is an initial part of another. -/
inductive Operation.Initial : Operation → Operation → Prop where
  | same (op : Operation) : Operation.Initial op op
  | loop (id : UInt32) {is is' : List Iteration} (h : InitialList Iteration.Initial is is') :
    Operation.Initial (.loop ⟨id, is⟩) (.loop ⟨id, is'⟩)
  | methodCall (id : UInt32) (name : String) (arguments : List StateChange)
    {os os' : List Operation} (h : InitialList Operation.Initial os os') :
    Operation.Initial (.methodCall ⟨id, name, arguments, os⟩)
      (.methodCall ⟨id, name, arguments, os'⟩)

/-- A pass through a loop is an initial part of another. -/
inductive Iteration.Initial : Iteration → Iteration → Prop where
  | mk (id : UInt32) {os os' : List Operation} (h : InitialList Operation.Initial os os') :
    Iteration.Initial ⟨id, os⟩ ⟨id, os'⟩

end

namespace InitialList

variable {α : Type} {R : α → α → Prop}

theorem append (hrefl : ∀ a, R a a) (as rest : List α) : InitialList R as (as ++ rest) := by
  rcases List.eq_nil_or_concat as with rfl | ⟨front, a, rfl⟩
  · exact .empty _
  · rw [List.concat_eq_append, List.append_assoc]
    exact .upTo front (hrefl a) rest

theorem refl (hrefl : ∀ a, R a a) (as : List α) : InitialList R as as := by
  have h := append hrefl as []
  rw [List.append_nil] at h
  exact h

/-- If the relation is transitive at the elements of the first list, so are initial parts. -/
theorem trans {as bs cs : List α} (hR : ∀ a ∈ as, ∀ b c, R a b → R b c → R a c)
    (hab : InitialList R as bs) (hbc : InitialList R bs cs) : InitialList R as cs := by
  cases hab with
  | empty => exact .empty cs
  | @upTo front a b h rest =>
    generalize hbs : front ++ b :: rest = bs at hbc
    cases hbc with
    | empty => exact absurd hbs (List.append_ne_nil_of_right_ne_nil front (List.cons_ne_nil b rest))
    | @upTo front' b' c h' rest' =>
      rcases List.eq_nil_or_concat rest with rfl | ⟨middle, x, rfl⟩
      · obtain ⟨rfl, hlast⟩ := List.append_inj' hbs rfl
        obtain rfl := List.head_eq_of_cons_eq hlast
        exact .upTo front (hR a (List.mem_append_right front List.mem_cons_self) _ _ h h') rest'
      · rw [List.concat_eq_append, ← List.cons_append, ← List.append_assoc] at hbs
        obtain ⟨rfl, -⟩ := List.append_inj' hbs rfl
        rw [List.append_assoc]
        exact .upTo front h _

end InitialList

-- By recursion on the first tree; the lists of its children carry the property of each child.
mutual

theorem Operation.Initial.trans (a : Operation) {b c : Operation} (hab : a.Initial b)
    (hbc : b.Initial c) : a.Initial c := by
  match a with
  | .stateChange _ =>
    cases hab
    exact hbc
  | .returnValue _ =>
    cases hab
    exact hbc
  | .loop ⟨id, is⟩ =>
    cases hab with
    | same => exact hbc
    | loop _ h =>
      cases hbc with
      | same => exact .loop id h
      | loop _ h' => exact .loop id (h.trans (trans_of_mem_iterations is) h')
  | .methodCall ⟨id, name, arguments, os⟩ =>
    cases hab with
    | same => exact hbc
    | methodCall _ _ _ h =>
      cases hbc with
      | same => exact .methodCall id name arguments h
      | methodCall _ _ _ h' =>
        exact .methodCall id name arguments (h.trans (trans_of_mem_operations os) h')

theorem trans_of_mem_operations (os : List Operation) :
    ∀ a ∈ os, ∀ b c : Operation, a.Initial b → b.Initial c → a.Initial c := by
  intro a ha b c hab hbc
  match os with
  | [] => exact absurd ha List.not_mem_nil
  | op :: os =>
    rcases List.mem_cons.mp ha with heq | ha
    · rw [heq] at hab ⊢
      exact Operation.Initial.trans op hab hbc
    · exact trans_of_mem_operations os a ha b c hab hbc

theorem trans_of_mem_iterations (is : List Iteration) :
    ∀ a ∈ is, ∀ b c : Iteration, a.Initial b → b.Initial c → a.Initial c := by
  intro a ha b c hab hbc
  match is with
  | [] => exact absurd ha List.not_mem_nil
  | ⟨id, os⟩ :: is =>
    rcases List.mem_cons.mp ha with heq | ha
    · rw [heq] at hab ⊢
      cases hab with
      | mk _ h =>
        cases hbc with
        | mk _ h' => exact .mk id (h.trans (trans_of_mem_operations os) h')
    · exact trans_of_mem_iterations is a ha b c hab hbc

end

theorem Iteration.Initial.refl (i : Iteration) : i.Initial i := by
  obtain ⟨id, os⟩ := i
  exact .mk id (.refl .same os)

/-- Of two calls of which one is an initial part of the other, only the operations differ. -/
theorem Operation.Initial.call {m m' : MethodCall}
    (h : (Operation.methodCall m).Initial (.methodCall m')) :
    m'.id = m.id ∧ m'.name = m.name ∧ m'.arguments = m.arguments ∧
      InitialList Operation.Initial m.operations m'.operations := by
  cases h with
  | same => exact ⟨rfl, rfl, rfl, .refl .same m.operations⟩
  | methodCall id name arguments h => exact ⟨rfl, rfl, rfl, h⟩

/-! ## Initial parts of open containers -/

namespace Open

/-- What an open container holds is an initial part of what another one holds. -/
inductive Initial : Open → Open → Prop where
  | method {m m' : MethodCall} (h : (Operation.methodCall m).Initial (.methodCall m')) :
    Initial (.method m) (.method m')
  | loop {l l' : Loop} (h : (Operation.loop l).Initial (.loop l')) :
    Initial (.loop l) (.loop l')
  | iteration {i i' : Iteration} (h : i.Initial i') : Initial (.iteration i) (.iteration i')

theorem Initial.refl (c : Open) : c.Initial c := by
  cases c with
  | method m => exact .method (.same _)
  | loop l => exact .loop (.same _)
  | iteration i => exact .iteration (.refl i)

theorem Adds.initial {op : Operation} {c d : Open} (h : c.Adds op d) : c.Initial d := by
  cases h with
  | method id name arguments os =>
    exact .method (.methodCall id name arguments (.append .same os _))
  | iteration id os => exact .iteration (.mk id (.append .same os _))
  | loop id is last os => exact .loop (.loop id (.upTo is (.mk last (.append .same os _)) []))

theorem Adds.mono {op op' : Operation} {c d : Open} (h : c.Adds op d) (hop : op.Initial op') :
    ∃ d', c.Adds op' d' ∧ d.Initial d' := by
  cases h with
  | method id name arguments os =>
    exact ⟨_, .method id name arguments os,
      .method (.methodCall id name arguments (.upTo os hop []))⟩
  | iteration id os => exact ⟨_, .iteration id os, .iteration (.mk id (.upTo os hop []))⟩
  | loop id is last os =>
    exact ⟨_, .loop id is last os, .loop (.loop id (.upTo is (.mk last (.upTo os hop [])) []))⟩

theorem getD_addTo_mono {op op' : Operation} (h : op.Initial op') (below : Open) :
    ((Recorder.addTo op below).getD below).Initial ((Recorder.addTo op' below).getD below) := by
  rcases Recorder.adds_or_empty_loop op below with ⟨d, hd⟩ | ⟨id, rfl⟩
  · obtain ⟨d', hd', hinitial⟩ := hd.mono h
    rw [Recorder.addTo_of_adds hd, Recorder.addTo_of_adds hd']
    exact hinitial
  · exact .refl _

theorem settle_mono {c c' : Open} (h : c.Initial c') (below : Open) :
    (c.settle below).Initial (c'.settle below) := by
  cases h with
  | method h => exact getD_addTo_mono h below
  | loop h => exact getD_addTo_mono h below
  | iteration h =>
    cases below with
    | method m => exact .refl _
    | iteration i => exact .refl _
    | loop l => exact .loop (.loop l.id (.upTo l.iterations h []))

theorem initial_settle (c below : Open) : below.Initial (c.settle below) := by
  unfold settle
  cases hj : c.join below with
  | none => exact .refl below
  | some joined =>
    cases c with
    | method m => exact (Recorder.addTo_eq_some hj).initial
    | loop l => exact (Recorder.addTo_eq_some hj).initial
    | iteration i =>
      cases below with
      | method m => contradiction
      | iteration j => contradiction
      | loop l =>
        obtain ⟨id, is⟩ := l
        rw [Option.getD_some, ← Option.some.inj hj]
        exact .loop (.loop id (.append .refl is [i]))

theorem foldl_settle_mono {c c' : Open} (h : c.Initial c') (below : List Open) :
    (below.foldl settle c).Initial (below.foldl settle c') := by
  induction below generalizing c c' with
  | nil => exact h
  | cons b below ih => exact ih (settle_mono h b)

end Open

/-! ## Initial parts of traces -/

/-- Every root of a trace is an initial part of the one under the same id in another. -/
def Roots.Initial (a b : Roots) : Prop :=
  ∀ id m, a.get? id = some m →
    ∃ m', b.get? id = some m' ∧ (Operation.methodCall m).Initial (.methodCall m')

theorem Roots.Initial.refl (a : Roots) : a.Initial a := fun _ m hm => ⟨m, hm, .same _⟩

theorem Roots.Initial.trans {a b c : Roots} (hab : a.Initial b) (hbc : b.Initial c) :
    a.Initial c := by
  intro id m hm
  obtain ⟨m', hm', h⟩ := hab id m hm
  obtain ⟨m'', hm'', h'⟩ := hbc id m' hm'
  exact ⟨m'', hm'', h.trans _ h'⟩

theorem Roots.initial_insert {roots : Roots} {id : UInt32} (h : roots.get? id = none)
    (call : MethodCall) : roots.Initial (roots.insert id call) := by
  intro k m hm
  have hk : id ≠ k := fun heq => by
    rw [heq, hm] at h
    contradiction
  exact ⟨m, by rw [Roots.get?_insert, if_neg hk, hm], .same _⟩

theorem Open.finish_mono {c c' : Open} (h : c.Initial c') (roots : Roots) :
    (c.finish roots).Initial (c'.finish roots) := by
  cases h with
  | loop h => exact .refl roots
  | iteration h => exact .refl roots
  | @method m m' h =>
    intro id k hk
    obtain ⟨hid, -⟩ := h.call
    unfold finish at hk ⊢
    rw [Roots.get?_insert] at hk ⊢
    rw [hid]
    split at hk
    · rw [if_pos ‹_›]
      exact ⟨m', rfl, Option.some.inj hk ▸ h⟩
    · rw [if_neg ‹_›]
      exact ⟨k, hk, .same _⟩

/-- The ids that are in use once a container has closed do not hang on how much it holds. -/
theorem Open.get?_finish_eq_none {c c' : Open} (h : c.Initial c') {roots : Roots} {id : UInt32}
    (hnone : (c.finish roots).get? id = none) : (c'.finish roots).get? id = none := by
  cases h with
  | loop h => exact hnone
  | iteration h => exact hnone
  | @method m m' h =>
    obtain ⟨hid, -⟩ := h.call
    unfold finish at hnone ⊢
    rw [Roots.get?_insert] at hnone ⊢
    rw [hid]
    split at hnone
    · contradiction
    · rw [if_neg ‹_›]
      exact hnone

namespace Recorder

/-- The id of the root that an event begins: a method when nothing is open. -/
def rootId? (r : Recorder) (e : Event) : Option UInt32 :=
  match r.stack, e with
  | [], .beginMethod id _ _ => some id
  | _, _ => none

/-- The ids of the roots that events begin, in order. -/
def rootIds (r : Recorder) : List Event → List UInt32
  | [] => []
  | e :: es => (r.rootId? e).toList ++ rootIds (r.record e).1 es

theorem rootIds_append (r : Recorder) (es fs : List Event) :
    r.rootIds (es ++ fs) = r.rootIds es ++ (r.play es).1.rootIds fs := by
  induction es generalizing r with
  | nil => rfl
  | cons e es ih => rw [List.cons_append, rootIds, rootIds, ih, List.append_assoc, play_cons]

/-- What a container closes to is an initial part of what it closes to with another one on top
of it. -/
theorem initial_foldl_settle (top c : Open) (below : List Open) :
    (below.foldl Open.settle c).Initial ((c :: below).foldl Open.settle top) :=
  Open.foldl_settle_mono (Open.initial_settle top c) below

/-- What one event does to the trace that unwinding would give: nothing, or there is more in the
container that closes last, or there is one more root. -/
theorem finished_record_cases (r : Recorder) (e : Event) :
    (r.record e).1.finished = r.finished ∨
    (∃ c c' : Open, c.Initial c' ∧ r.finished = c.finish r.roots ∧
      (r.record e).1.finished = c'.finish r.roots) ∨
    ∃ m : MethodCall, r.rootId? e = some m.id ∧
      (r.record e).1.finished = r.finished.insert m.id m := by
  obtain ⟨roots, stack⟩ := r
  have heff := record_effect roots stack e
  generalize record ⟨roots, stack⟩ e = after at heff ⊢
  obtain ⟨s, notes⟩ := after
  cases heff with
  | refuse => exact Or.inl rfl
  | @begins stack _ c he h =>
    cases stack with
    | nil =>
      cases h with
      | method m =>
        cases he with
        | method id name arguments => exact Or.inr (Or.inr ⟨⟨id, name, arguments, []⟩, rfl, rfl⟩)
    | cons top below =>
      exact Or.inr (Or.inl ⟨_, _, initial_foldl_settle c top below, rfl, rfl⟩)
  | adds he h below =>
    exact Or.inr (Or.inl ⟨_, _, Open.foldl_settle_mono h.initial below, rfl, rfl⟩)
  | closes he top below => exact Or.inl (finished_closeTop ⟨roots, top :: below⟩)

/-- One event extends the trace that unwinding would give, unless it begins a root under an id
that is in use. -/
theorem initial_finished_record (r : Recorder) (e : Event)
    (hfresh : ∀ id ∈ r.rootId? e, r.finished.get? id = none) :
    r.finished.Initial (r.record e).1.finished := by
  rcases finished_record_cases r e with hsame | ⟨c, c', h, hbefore, hafter⟩ | ⟨m, hroot, hafter⟩
  · rw [hsame]
    exact .refl _
  · rw [hbefore, hafter]
    exact Open.finish_mono h r.roots
  · rw [hafter]
    exact Roots.initial_insert (hfresh m.id hroot) m

/-- One event brings no id into use but that of the root that it begins. -/
theorem get?_finished_record_eq_none {r : Recorder} {e : Event} {id : UInt32}
    (hnone : r.finished.get? id = none) (hid : id ∉ r.rootId? e) :
    (r.record e).1.finished.get? id = none := by
  rcases finished_record_cases r e with hsame | ⟨c, c', h, hbefore, hafter⟩ | ⟨m, hroot, hafter⟩
  · rw [hsame, hnone]
  · rw [hbefore] at hnone
    rw [hafter]
    exact Open.get?_finish_eq_none h hnone
  · have hne : m.id ≠ id := fun heq => hid (hroot.trans (congrArg some heq))
    rw [hafter, Roots.get?_insert, if_neg hne, hnone]

theorem get?_finished_play_eq_none {r : Recorder} {es : List Event} {id : UInt32}
    (hnone : r.finished.get? id = none) (hid : id ∉ r.rootIds es) :
    (r.play es).1.finished.get? id = none := by
  induction es generalizing r with
  | nil => exact hnone
  | cons e es ih =>
    rw [rootIds, List.mem_append, not_or, Option.mem_toList] at hid
    rw [play_cons]
    exact ih (get?_finished_record_eq_none hnone hid.1) hid.2

/-- Events extend the trace that unwinding would give, if the roots they begin have ids of
their own. -/
theorem initial_finished_play {r : Recorder} {es : List Event} (hnodup : (r.rootIds es).Nodup)
    (hfresh : ∀ id ∈ r.rootIds es, r.finished.get? id = none) :
    r.finished.Initial (r.play es).1.finished := by
  induction es generalizing r with
  | nil => exact .refl _
  | cons e es ih =>
    rw [rootIds] at hnodup hfresh
    obtain ⟨-, hrest, hapart⟩ := List.nodup_append.mp hnodup
    have hfirst : r.finished.Initial (r.record e).1.finished :=
      initial_finished_record r e fun id hid =>
        hfresh id (List.mem_append_left _ (Option.mem_toList.mpr hid))
    refine hfirst.trans (ih hrest fun id hid => ?_)
    refine get?_finished_record_eq_none (hfresh id (List.mem_append_right _ hid)) fun hroot => ?_
    exact hapart id (Option.mem_toList.mpr hroot) id hid rfl

/-- A trace cut short is an initial part of the full trace. If no two roots of a run begin under
one id, each root that a prefix of the run unwinds to is there when the whole run has unwound,
under the same id and with the same name and arguments, and its operations are an initial part
of the operations there. -/
theorem initial_of_prefix {es whole : List Event} (hcut : es <+: whole)
    (hids : (rootIds {} whole).Nodup) {id : UInt32} {m : MethodCall}
    (hm : (play {} es).1.unwind.1.roots.get? id = some m) :
    ∃ m', (play {} whole).1.unwind.1.roots.get? id = some m' ∧ m'.id = m.id ∧
      m'.name = m.name ∧ m'.arguments = m.arguments ∧
      InitialList Operation.Initial m.operations m'.operations := by
  obtain ⟨rest, rfl⟩ := hcut
  rw [rootIds_append] at hids
  obtain ⟨-, hrest, hapart⟩ := List.nodup_append.mp hids
  have hinitial : (play {} es).1.finished.Initial ((play {} es).1.play rest).1.finished := by
    refine initial_finished_play hrest fun k hk => get?_finished_play_eq_none rfl fun hbefore => ?_
    exact hapart k hbefore k hk rfl
  rw [unwind_eq] at hm
  obtain ⟨m', hm', h⟩ := hinitial id m hm
  refine ⟨m', ?_, h.call⟩
  rw [unwind_eq, play_append]
  exact hm'

/-- A run cut in a pass through a loop, and what it would have gone on to: an end that is not of
the innermost container, more of the pass, another pass and another root. -/
theorem initial_of_prefix_in_iteration :
    let es : List Event := [.beginMethod 1 "f" [], .beginLoop 2, .beginIteration 3,
      .change ⟨4, "x", "0"⟩]
    let whole : List Event := es ++ [.endMethod 1, .change ⟨4, "x", "1"⟩, .endIteration 3,
      .beginIteration 3, .endIteration 3, .endLoop 2, .endMethod 1, .beginMethod 5 "g" []]
    let m : MethodCall := ⟨1, "f", [], [.loop ⟨2, [⟨3, [.stateChange ⟨4, "x", "0"⟩]⟩]⟩]⟩
    (rootIds {} whole).Nodup ∧ (play {} es).1.unwind.1.roots.get? 1 = some m ∧
      ∃ m', (play {} whole).1.unwind.1.roots.get? 1 = some m' ∧ m'.id = m.id ∧
        m'.name = m.name ∧ m'.arguments = m.arguments ∧
        InitialList Operation.Initial m.operations m'.operations := by
  intro es whole m
  have hids : (rootIds {} whole).Nodup := by decide
  have hm : (play {} es).1.unwind.1.roots.get? 1 = some m := rfl
  exact ⟨hids, hm, initial_of_prefix (List.prefix_append es _) hids hm⟩

end Recorder

end LiveTrace
