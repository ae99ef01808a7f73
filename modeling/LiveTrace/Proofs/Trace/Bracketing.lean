import LiveTrace.Proofs.Trace.Preorder

/-
  Beginnings and ends as brackets. Events are `Balanced` if they end just what they begin. Without
  warnings an end closes what began last, so a stack tells how it came about (`GrownBy`): for each
  open container, from the outside in, the event that began it and then balanced events that made
  it what it is (`Becomes`). One event keeps this (`grownBy_record`), so it holds after all
  (`grownBy_play`), and a method that is about to close has a beginning and balanced events since
  (`exists_own_of_grownBy`).
-/
namespace LiveTrace

/-! ## Balanced events -/

/-- How many of the containers that began since some moment are open after an event, when `depth`
of them were before it. `none` is for the end of one that began earlier. -/
def Event.depthAfter? : Nat → Event → Option Nat
  | depth, .beginMethod _ _ _ | depth, .beginLoop _ | depth, .beginIteration _ => some (depth + 1)
  | 0, .endMethod _ | 0, .endLoop _ | 0, .endIteration _ => none
  | depth + 1, .endMethod _ | depth + 1, .endLoop _ | depth + 1, .endIteration _ => some depth
  | depth, .change _ | depth, .ret _ => some depth

/-- The same for events one after another. -/
def depthAfter? (depth : Nat) (es : List Event) : Option Nat := es.foldlM Event.depthAfter? depth

/-- Every container that begins in the events ends in them, and none that began before does. -/
def Balanced (es : List Event) : Prop := depthAfter? 0 es = some 0

theorem Event.Opens.depthAfter? {e : Event} {c : Open} (h : e.Opens c) (depth : Nat) :
    e.depthAfter? depth = some (depth + 1) := by
  cases h <;> rfl

theorem Event.Logs.depthAfter? {e : Event} {op : Operation} (h : e.Logs op) (depth : Nat) :
    e.depthAfter? depth = some depth := by
  cases h <;> rfl

theorem Event.depthAfter?_end {e : Event} (he : e.isEnd = true) (depth : Nat) :
    e.depthAfter? (depth + 1) = some depth := by
  cases e with
  | endMethod | endLoop | endIteration => rfl
  | _ => contradiction

theorem Event.depthAfter?_succ {e : Event} {depth after : Nat}
    (h : e.depthAfter? depth = some after) : e.depthAfter? (depth + 1) = some (after + 1) := by
  cases e with
  | endMethod | endLoop | endIteration =>
    cases depth with
    | zero => contradiction
    | succ depth => exact Option.some.inj h ▸ rfl
  | _ => exact Option.some.inj h ▸ rfl

theorem Event.depthAfter?_add {e : Event} {depth after : Nat}
    (h : e.depthAfter? depth = some after) (k : Nat) :
    e.depthAfter? (depth + k) = some (after + k) := by
  induction k with
  | zero => exact h
  | succ k ih => exact Event.depthAfter?_succ ih

theorem depthAfter?_cons (depth : Nat) (e : Event) (es : List Event) :
    depthAfter? depth (e :: es) = (e.depthAfter? depth).bind fun d => depthAfter? d es := rfl

theorem depthAfter?_append (depth : Nat) (es fs : List Event) :
    depthAfter? depth (es ++ fs) = (depthAfter? depth es).bind fun d => depthAfter? d fs :=
  List.foldlM_append

theorem depthAfter?_singleton (depth : Nat) (e : Event) :
    depthAfter? depth [e] = e.depthAfter? depth := by
  rw [depthAfter?_cons]
  cases e.depthAfter? depth <;> rfl

/-- What happens at some depth happens also further in. -/
theorem depthAfter?_add {depth after : Nat} {es : List Event}
    (h : depthAfter? depth es = some after) (k : Nat) :
    depthAfter? (depth + k) es = some (after + k) := by
  induction es generalizing depth with
  | nil => exact Option.some.inj h ▸ rfl
  | cons e es ih =>
    rw [depthAfter?_cons] at h ⊢
    obtain ⟨d, hd, hes⟩ := Option.bind_eq_some_iff.mp h
    rw [Event.depthAfter?_add hd k]
    exact ih hes

theorem Balanced.depthAfter? {es : List Event} (h : Balanced es) (depth : Nat) :
    depthAfter? depth es = some depth := by
  have hadd := depthAfter?_add h depth
  rw [Nat.zero_add] at hadd
  exact hadd

theorem Balanced.append {es fs : List Event} (h : Balanced es) (h' : Balanced fs) :
    Balanced (es ++ fs) := by
  unfold Balanced
  rw [depthAfter?_append, h.depthAfter?]
  exact h'

theorem Event.Logs.balanced {e : Event} {op : Operation} (h : e.Logs op) : Balanced [e] := by
  unfold Balanced
  rw [depthAfter?_singleton]
  exact h.depthAfter? 0

/-- A container from its beginning to its end. -/
theorem Balanced.bracket {e : Event} {c : Open} (he : e.Opens c) {inner : List Event}
    (h : Balanced inner) {e' : Event} (he' : e'.isEnd = true) :
    Balanced (e :: inner ++ [e']) := by
  unfold Balanced
  rw [List.cons_append, depthAfter?_cons, he.depthAfter?, Option.bind_some, depthAfter?_append,
    h.depthAfter?, Option.bind_some, depthAfter?_singleton]
  exact Event.depthAfter?_end he' 0

theorem withoutEnds_bracket {e : Event} {c : Open} (he : e.Opens c) (inner : List Event)
    {e' : Event} (he' : e'.isEnd = true) :
    withoutEnds (e :: inner ++ [e']) = e :: withoutEnds inner := by
  rw [List.cons_append, ← List.singleton_append, withoutEnds_append, withoutEnds_append,
    he.withoutEnds, withoutEnds_end he', List.append_nil, List.singleton_append]

/-! ## What became of a container -/

namespace Open

/-- The event that began a container. -/
def beginning : Open → Event
  | method m => .beginMethod m.id m.name m.arguments
  | loop l => .beginLoop l.id
  | iteration i => .beginIteration i.id

/-- `Becomes c es d`: without a warning the events `es`, which end what they begin, make `d` of the
open container `c`. -/
inductive Becomes : Open → List Event → Open → Prop where
  | nothing (c : Open) : Becomes c [] c
  | logs {c d d' : Open} {es : List Event} {e : Event} {op : Operation} (h : Becomes c es d)
    (he : e.Logs op) (hd : d.Adds op d') : Becomes c (es ++ [e]) d'
  | joins {c d d' : Open} {es : List Event} {e : Event} {b b' : Open} {inner : List Event}
    {e' : Event} (h : Becomes c es d) (he : e.Opens b) (hb : Becomes b inner b')
    (he' : e'.isEnd = true) (hd : b'.join d = some d') :
    Becomes c (es ++ (e :: inner ++ [e'])) d'

variable {c d : Open} {es : List Event}

theorem Becomes.balanced (h : Becomes c es d) : Balanced es := by
  induction h with
  | nothing => rfl
  | logs _ he _ ih => exact ih.append he.balanced
  | joins _ he _ he' _ ih ihb => exact ih.append (.bracket he ihb he')

theorem Becomes.preorder (h : Becomes c es d) : d.preorder = c.preorder ++ withoutEnds es := by
  induction h with
  | nothing c => exact (List.append_nil _).symm
  | logs _ he hd ih =>
    rw [preorder_of_adds hd, Operation.preorder_of_logs he, ih, withoutEnds_append, he.withoutEnds,
      List.append_assoc]
  | joins _ he _ he' hd ih ihb =>
    rw [preorder_of_join hd, ih, ihb, preorder_of_opens he, withoutEnds_append,
      withoutEnds_bracket he _ he', List.append_assoc, List.singleton_append]

theorem head?_preorder (c : Open) : c.preorder.head? = some c.beginning := by
  obtain ⟨⟨id, name, arguments, os⟩⟩ | ⟨⟨id, is⟩⟩ | ⟨⟨id, os⟩⟩ := c <;> rfl

/-- What a container became since it began tells by which event that was. -/
theorem beginning_of_becomes {e : Event} (he : e.Opens c) (h : c.Becomes es d) :
    e = d.beginning := by
  have hhead := head?_preorder d
  rw [h.preorder, preorder_of_opens he] at hhead
  exact Option.some.inj hhead

end Open

/-! ## How a stack came about -/

/-- How a stack came about by some events: for each container, from the outermost to the innermost,
the event that began it and then what made it what it is. -/
inductive GrownBy : List Open → List Event → Prop where
  | nil (es : List Event) : GrownBy [] es
  | cons {below : List Open} {earlier own : List Event} {e : Event} {b c : Open}
    (hbelow : GrownBy below earlier) (he : e.Opens b) (h : b.Becomes own c) :
    GrownBy (c :: below) (earlier ++ e :: own)

namespace Recorder

theorem grownBy_record {r : Recorder} {es : List Event} (h : GrownBy r.stack es) {e : Event}
    (hq : ∀ n ∈ (r.record e).2, n.level ≠ .warn) : GrownBy (r.record e).1.stack (es ++ [e]) := by
  obtain ⟨roots, stack⟩ := r
  have heff := record_effect roots stack e
  generalize record ⟨roots, stack⟩ e = after at heff hq ⊢
  obtain ⟨s, notes⟩ := after
  cases heff with
  | refuse _ hn => exact absurd hn (hq _ List.mem_cons_self)
  | begins he _ => exact .cons h he (.nothing _)
  | adds he hadds below =>
    cases h with
    | cons hbelow hb hown =>
      rw [List.append_assoc, List.cons_append]
      exact .cons hbelow hb (.logs hown he hadds)
  | closes he top below =>
    cases below with
    | nil =>
      rw [closeTop_last]
      exact .nil _
    | cons c rest =>
      -- What came since the beginning of `top` joins what came since that of `c`.
      cases h with
      | @cons _ earlier inner e₀ b _ hbelow hb hinner =>
        cases hbelow with
        | @cons _ earlier' own e₁ b' _ hrest hb' hown =>
          cases hj : top.join c with
          | none =>
            obtain ⟨n, hn, hlost⟩ := closeTop_lost hj roots rest
            rw [hlost] at hq
            exact absurd hn (hq n List.mem_cons_self)
          | some joined =>
            rw [closeTop_join hj]
            have hsplit : earlier' ++ e₁ :: own ++ e₀ :: inner ++ [e] =
                earlier' ++ e₁ :: (own ++ (e₀ :: inner ++ [e])) := by simp
            rw [hsplit]
            exact .cons hrest hb' (.joins hown hb hinner he hj)

theorem grownBy_play {r : Recorder} {before : List Event} (h : GrownBy r.stack before)
    {es : List Event} (hq : ∀ n ∈ (r.play es).2, n.level ≠ .warn) :
    GrownBy (r.play es).1.stack (before ++ es) := by
  induction es generalizing r before with
  | nil => exact (List.append_nil before).symm ▸ h
  | cons e es ih =>
    rw [play_cons] at hq ⊢
    have hfirst := grownBy_record h fun n hn => hq n (List.mem_append_left _ hn)
    have hrest := ih hfirst fun n hn => hq n (List.mem_append_right _ hn)
    rw [List.append_assoc] at hrest
    exact hrest

/-- A method that is innermost began, and balanced events have made it what it is. -/
theorem exists_own_of_grownBy {m : MethodCall} {below : List Open} {es : List Event}
    (h : GrownBy (.method m :: below) es) :
    ∃ earlier own b, es = earlier ++ .beginMethod m.id m.name m.arguments :: own ∧
      (Event.beginMethod m.id m.name m.arguments).Opens b ∧ b.Becomes own (.method m) := by
  cases h with
  | @cons _ earlier own e b _ _ he hown =>
    obtain rfl := Open.beginning_of_becomes he hown
    exact ⟨earlier, own, b, rfl, he, hown⟩

end Recorder

end LiveTrace
