import LiveTrace.Proofs.Trace.Preorder
import LiveTrace.Proofs.Trace.Shape

/-
  What is kept of a run, warnings or not. Only one thing takes an operation away while something
  is open: a loop without an iteration, if it is the innermost container or if something other
  than an iteration is open right on it (`isBlocked`). All other events are kept (`keeps`), by the
  same law of conservation as without warnings (`play_heldPreorder`): each root holds, when it is
  registered, the events kept since its beginning, in order (`preorder_of_registered`).
  `change_before_iteration_lost` is a change that is not kept.
-/
namespace LiveTrace.Recorder

/-! ## What stands in the way -/

/-- Whether a loop without an iteration is the innermost container, or has something other than an
iteration open right on it. -/
def isBlocked : List Open → Bool
  | [] => false
  | .method _ :: below => isBlocked below
  | .loop l :: below => l.iterations.isEmpty || isBlocked below
  | [.iteration _] => false
  | .iteration _ :: _ :: below => isBlocked below

/-- Whether what an event records ends up in the root that is open, or that the event begins. -/
def keeps (stack : List Open) : Event → Bool
  | .beginMethod _ _ _ => !isBlocked stack
  | .beginLoop _ | .change _ | .ret _ => !stack.isEmpty && !isBlocked stack
  | .beginIteration _ =>
    match stack with
    | .loop _ :: below => !isBlocked below
    | _ => false
  | .endMethod _ | .endLoop _ | .endIteration _ => false

/-- The events that are kept, in order. -/
def kept (r : Recorder) : List Event → List Event
  | [] => []
  | e :: es => (if keeps r.stack e then [e] else []) ++ kept (r.record e).1 es

/-- Whether the innermost container ends up in the root it is open in. -/
def isHeld : List Open → Bool
  | [] => false
  | .iteration _ :: below => !isBlocked below.tail
  | .method _ :: below | .loop _ :: below => !isBlocked below

theorem isHeld_of_kind {c d : Open} (h : c.kind = d.kind) (below : List Open) :
    isHeld (c :: below) = isHeld (d :: below) := by
  cases c <;> cases d <;> first | rfl | contradiction

theorem collects_of_adds {op : Operation} {c d : Open} (h : c.Adds op d) : c.Collects := by
  cases h with
  | method | iteration => trivial
  | loop => simp [Open.Collects]

/-- What collects operations is in nobody's way. -/
theorem isBlocked_of_collects {c : Open} {below : List Open} (h : c.Collects)
    (hnested : WellNested (c :: below)) : isBlocked (c :: below) = !isHeld (c :: below) := by
  cases c with
  | method m => simp [isBlocked, isHeld]
  | loop l =>
    have hiterations : l.iterations.isEmpty = false := by simpa [Open.Collects] using h
    simp [isBlocked, isHeld, hiterations]
  | iteration i =>
    cases hnested with
    | cons hopens =>
      cases hopens with
      | iteration _ l rest => simp [isBlocked, isHeld]

theorem isBlocked_of_not_collects {c : Open} (h : ¬ c.Collects) (below : List Open) :
    isBlocked (c :: below) = true := by
  cases c with
  | method | iteration => exact absurd trivial h
  | loop l =>
    have hiterations : l.iterations = [] := by simpa [Open.Collects] using h
    simp [isBlocked, hiterations]

/-- A container that closes onto another one is held if it joins a container that is held. -/
theorem isHeld_of_join {top c joined : Open} {rest : List Open} (h : top.join c = some joined)
    (hnested : WellNested (c :: rest)) : isHeld (top :: c :: rest) = isHeld (c :: rest) := by
  have hadds {op : Operation} (hop : addTo op c = some joined) :
      (!isBlocked (c :: rest)) = isHeld (c :: rest) := by
    rw [isBlocked_of_collects (collects_of_adds (addTo_eq_some hop)) hnested, Bool.not_not]
  cases top with
  | method m => exact hadds h
  | loop l => exact hadds h
  | iteration i =>
    cases c with
    | loop l => rfl
    | method | iteration => contradiction

/-- A container that does not join the one it closes onto was not held. -/
theorem isHeld_of_lost {top c : Open} {rest : List Open} (h : top.join c = none)
    (hnested : WellNested (top :: c :: rest)) : isHeld (top :: c :: rest) = false := by
  have hblocked {op : Operation} (hop : addTo op c = none) : (!isBlocked (c :: rest)) = false := by
    rw [isBlocked_of_not_collects fun hcollects => ?_]
    · rfl
    obtain ⟨d, hd⟩ := adds_of_collects hcollects op
    exact nomatch (addTo_of_adds hd).symm.trans hop
  cases top with
  | method m => exact hblocked h
  | loop l => exact hblocked h
  | iteration i =>
    cases hnested with
    | cons hopens =>
      cases hopens with
      | iteration => contradiction

/-! ## Conservation -/

/-- What the open containers hold so far that will end up in a root, from the outermost to the
innermost. -/
def heldPreorder : List Open → List Event
  | [] => []
  | c :: below => heldPreorder below ++ if isHeld (c :: below) then c.preorder else []

theorem keeps_of_opens {e : Event} {c : Open} {stack : List Open} (he : e.Opens c)
    (h : c.OpensOn stack) : keeps stack e = isHeld (c :: stack) := by
  cases he with
  | method => rfl
  | loop id =>
    cases h with
    | loop _ b below => rfl
  | iteration id =>
    cases h with
    | iteration _ l below => rfl

theorem keeps_of_logs {e : Event} {op : Operation} (he : e.Logs op) (stack : List Open) :
    keeps stack e = (!stack.isEmpty && !isBlocked stack) := by
  cases he <;> rfl

theorem keeps_of_isEnd {e : Event} (he : e.isEnd = true) (stack : List Open) :
    keeps stack e = false := by
  cases e with
  | endMethod | endLoop | endIteration => rfl
  | _ => contradiction

theorem keeps_of_refused {e : Event} {stack : List Open} (h : e.Refused stack) :
    keeps stack e = false := by
  cases h with
  | ending he => exact keeps_of_isEnd he stack
  | outside he => exact keeps_of_logs he []
  | early he id below => exact keeps_of_logs he (.loop ⟨id, []⟩ :: below)
  | opening he hopens =>
    cases he with
    | method id name arguments => exact absurd (.method _ stack) hopens
    | loop id =>
      cases stack with
      | nil => rfl
      | cons c below => exact absurd (.loop _ c below) hopens
    | iteration id =>
      cases stack with
      | nil => rfl
      | cons c below =>
        cases c with
        | loop l => exact absurd (.iteration _ l below) hopens
        | method | iteration => rfl

/-- A container that closes onto another one leaves there what it held, if it was held at all. -/
theorem heldPreorder_settle {top c : Open} {rest : List Open}
    (hnested : WellNested (top :: c :: rest)) :
    heldPreorder (top.settle c :: rest) = heldPreorder (top :: c :: rest) := by
  have hsettle : isHeld (top.settle c :: rest) = isHeld (c :: rest) :=
    isHeld_of_kind (Open.kind_settle top c) rest
  have hbelow : WellNested (c :: rest) := by
    cases hnested with
    | cons _ hbelow => exact hbelow
  simp only [heldPreorder]
  rw [hsettle]
  unfold Open.settle
  cases hj : top.join c with
  | none =>
    rw [isHeld_of_lost hj hnested]
    simp
  | some joined =>
    rw [isHeld_of_join hj hbelow, Option.getD_some, Open.preorder_of_join hj]
    cases isHeld (c :: rest) <;> simp

/-- What one event adds to what is held, as long as something is open behind it. -/
theorem heldPreorder_record {r : Recorder} (hnested : WellNested r.stack) {e : Event}
    (hopen : (r.record e).1.stack ≠ []) :
    heldPreorder (r.record e).1.stack =
      heldPreorder r.stack ++ if keeps r.stack e then [e] else [] := by
  obtain ⟨roots, stack⟩ := r
  have heff := record_effect roots stack e
  generalize record ⟨roots, stack⟩ e = after at heff hopen ⊢
  obtain ⟨s, notes⟩ := after
  cases heff with
  | refuse h => simp [keeps_of_refused h]
  | begins he h => simp [heldPreorder, keeps_of_opens he h, Open.preorder_of_opens he]
  | @adds _ op top top' he h below =>
    have hkeeps : keeps (top :: below) e = isHeld (top :: below) := by
      rw [keeps_of_logs he, isBlocked_of_collects (collects_of_adds h) hnested]
      simp
    simp only [heldPreorder]
    rw [isHeld_of_kind (Open.kind_of_adds h) below, hkeeps, Open.preorder_of_adds h,
      Operation.preorder_of_logs he]
    cases isHeld (top :: below) <;> simp
  | closes he top below =>
    rw [keeps_of_isEnd he]
    cases below with
    | nil =>
      rw [closeTop_last] at hopen
      contradiction
    | cons c rest =>
      rw [closeTop_settle]
      simpa using heldPreorder_settle hnested

/-- An event that leaves nothing open is not kept. Nothing was open before it, or a method alone. -/
theorem record_to_empty {r : Recorder} (hnested : WellNested r.stack) {e : Event}
    (hclosed : (r.record e).1.stack = []) :
    keeps r.stack e = false ∧ (r.stack = [] ∨ ∃ m, r.stack = [.method m]) := by
  obtain ⟨roots, stack⟩ := r
  have heff := record_effect roots stack e
  generalize record ⟨roots, stack⟩ e = after at heff hclosed
  obtain ⟨s, notes⟩ := after
  cases heff with
  | refuse h => exact ⟨keeps_of_refused h, .inl hclosed⟩
  | begins | adds => contradiction
  | closes he top below =>
    refine ⟨keeps_of_isEnd he _, .inr ?_⟩
    cases below with
    | nil =>
      obtain ⟨m, rfl⟩ := hnested.eq_method
      exact ⟨m, rfl⟩
    | cons c rest =>
      rw [closeTop_settle] at hclosed
      contradiction

theorem record_heldPreorder {r : Recorder} (hnested : WellNested r.stack) (e : Event) :
    (r.registered? e).toList.flatMap MethodCall.preorder ++ heldPreorder (r.record e).1.stack =
      heldPreorder r.stack ++ if keeps r.stack e then [e] else [] := by
  by_cases hopen : (r.record e).1.stack = []
  · obtain ⟨hkeeps, hbefore⟩ := record_to_empty hnested hopen
    rw [hkeeps, hopen]
    obtain ⟨roots, stack⟩ := r
    rcases hbefore with rfl | ⟨m, rfl⟩
    · rfl
    · rw [registered?_close hopen]
      simp [heldPreorder, isHeld, isBlocked, Open.preorder]
  · rw [registered?_open hopen, heldPreorder_record hnested hopen]
    rfl

/-- Conservation: what is registered and then what is still open and held is what was held before
and then the events that are kept, in order. -/
theorem play_heldPreorder {r : Recorder} (hnested : WellNested r.stack) (es : List Event) :
    (r.registered es).flatMap MethodCall.preorder ++ heldPreorder (r.play es).1.stack =
      heldPreorder r.stack ++ r.kept es := by
  induction es generalizing r with
  | nil => simp [registered, play, kept]
  | cons e es ih =>
    have hfirst := record_heldPreorder hnested e
    have hrest := ih (wellNested_record hnested e)
    rw [play_cons, registered, kept, List.flatMap_append, List.append_assoc, hrest,
      ← List.append_assoc, hfirst, List.append_assoc]

theorem kept_append (r : Recorder) (es fs : List Event) :
    r.kept (es ++ fs) = r.kept es ++ (r.play es).1.kept fs := by
  induction es generalizing r with
  | nil => rfl
  | cons e es ih => rw [List.cons_append, kept, kept, ih, play_cons, List.append_assoc]

theorem kept_singleton (r : Recorder) (e : Event) :
    r.kept [e] = if keeps r.stack e then [e] else [] := by
  simp [kept]

theorem kept_ends (r : Recorder) {es : List Event} (h : ∀ e ∈ es, e.isEnd = true) :
    r.kept es = [] := by
  induction es generalizing r with
  | nil => rfl
  | cons e es ih =>
    obtain ⟨he, hes⟩ := List.forall_mem_cons.mp h
    rw [kept, keeps_of_isEnd he, ih _ hes]
    rfl

/-! ## The events of one root -/

/-- With nothing open, only the beginning of a method leaves something open. -/
theorem beginMethod_of_open {r : Recorder} (hidle : r.stack = []) {e : Event}
    (hopen : (r.record e).1.stack ≠ []) :
    ∃ id name arguments, e = .beginMethod id name arguments := by
  obtain ⟨roots, stack⟩ := r
  obtain rfl : stack = [] := hidle
  have heff := record_effect roots [] e
  generalize record ⟨roots, []⟩ e = after at heff hopen
  obtain ⟨s, notes⟩ := after
  cases heff with
  | refuse => contradiction
  | begins he h =>
    cases h with
    | method m =>
      cases he with
      | method id name arguments => exact ⟨id, name, arguments, rfl⟩

/-- What is open and held at the end of a run is what was kept since its outermost container
began. -/
theorem exists_kept_ofOpenRoot {es : List Event} (hopen : (play {} es).1.stack ≠ []) :
    ∃ earlier own, es = earlier ++ own ∧ OfOpenRoot earlier own ∧
      heldPreorder (play {} es).1.stack = (play {} earlier).1.kept own := by
  -- On the last event: it begins the root, or it comes after one that began before.
  induction es using List.reverseRecOn with
  | nil => exact absurd rfl hopen
  | append_singleton es e ih =>
    have happend := play_append {} es [e]
    rw [play_singleton] at happend
    have hstep : heldPreorder (play {} (es ++ [e])).1.stack =
        heldPreorder (play {} es).1.stack ++ (play {} es).1.kept [e] := by
      rw [happend] at hopen ⊢
      rw [kept_singleton]
      exact heldPreorder_record (wellNested_play .nil es) hopen
    rw [hstep]
    by_cases hidle : (play {} es).1.stack = []
    · have hafter : ((play {} es).1.record e).1.stack ≠ [] := by
        rw [happend] at hopen
        exact hopen
      obtain ⟨id, name, arguments, rfl⟩ := beginMethod_of_open hidle hafter
      refine ⟨es, _, rfl, .start hidle id name arguments, ?_⟩
      rw [hidle]
      rfl
    · obtain ⟨earlier, own, rfl, hown, hheld⟩ := ih hidle
      refine ⟨earlier, own ++ [e], List.append_assoc .., hown.concat hopen, ?_⟩
      rw [hheld, kept_append, play_append]

/-- Whatever is recorded, each root holds, at the moment it is registered, the events kept since it
began, in order, and all roots in turn hold all the events that are kept. Unwinding counts as the
ends of what is open, innermost first. -/
theorem preorder_of_registered (es : List Event) :
    let run := es ++ (play {} es).1.closing
    (play {} run).1 = (play {} es).1.unwind.1 ∧
    (∀ before e rest m, run = before ++ e :: rest →
      (play {} before).1.registered? e = some m →
      ((play {} before).1.record e).1.roots = (play {} before).1.roots.insert m.id m ∧
      ∃ earlier own, before = earlier ++ own ∧ OfOpenRoot earlier own ∧
        m.preorder = (play {} earlier).1.kept own) ∧
    (registered {} run).flatMap MethodCall.preorder = kept {} es := by
  intro run
  have hlast : (play {} run).1 = (play {} es).1.unwind.1 := play_append_closing {} es
  refine ⟨hlast, fun before e rest m _ hm => ?_, ?_⟩
  · have hstack := registered?_eq_some hm
    obtain ⟨earlier, own, hown, hroot, hheld⟩ :=
      exists_kept_ofOpenRoot (by rw [hstack]; exact List.cons_ne_nil _ _)
    rw [hstack] at hheld
    refine ⟨?_, earlier, own, hown, hroot, hheld⟩
    rw [roots_record, hm]
    rfl
  · have hall := play_heldPreorder (r := {}) .nil run
    rw [hlast, unwind_eq, kept_append, kept_ends _ (isEnd_of_mem_closing _)] at hall
    simpa [heldPreorder] using hall

/-- A loop with a change and another loop before its first iteration. Neither is kept, and of the
inner loop nothing is; the iteration that is open at the end is. -/
theorem preorder_of_registered_around_blocked :
    let es : List Event := [.beginMethod 1 "f" [], .beginLoop 2, .change ⟨3, "x", "1"⟩,
      .beginLoop 4, .beginIteration 5, .change ⟨6, "y", "2"⟩, .endIteration 5, .endLoop 4,
      .beginIteration 7, .ret ⟨8, none⟩]
    (registered {} (es ++ (play {} es).1.closing)).flatMap MethodCall.preorder =
      [.beginMethod 1 "f" [], .beginLoop 2, .beginIteration 7, .ret ⟨8, none⟩] := by
  intro es
  obtain ⟨-, -, hall⟩ := preorder_of_registered es
  exact hall

/-- A change of a loop that has not begun its first iteration is lost, though the loop and its
method are open. -/
theorem change_before_iteration_lost :
    let before : List Event := [.beginMethod 1 "f" [], .beginLoop 2]
    let after : List Event := [.beginIteration 2, .endIteration 2, .endLoop 2, .endMethod 1]
    (play {} before).1.stack ≠ [] ∧
      (play {} (before ++ .change ⟨3, "x", "1"⟩ :: after)).1.unwind.1.roots =
        [(1, ⟨1, "f", [], [.loop ⟨2, [⟨2, []⟩]⟩]⟩)] := by
  intro before after
  exact ⟨nofun, rfl⟩

end LiveTrace.Recorder
