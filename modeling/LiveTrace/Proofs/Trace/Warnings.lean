import LiveTrace.Proofs.Trace.Shape

/-
  What a recorder warns of, whatever it is asked to do: to take events in any order, and to unwind
  at any time. Its stack keeps its shape (`wellNested_reached`), so a container that closes always
  finds below it what its kind needs, and the only thing that can go wrong then is that a loop or a
  call closes onto a loop without iterations (`closeTop_notes`). Every other warning is about a
  call that changes nothing (`record_warned`).
-/
namespace LiveTrace

/-- The kind of container that an event closes, if it closes any. Its id does not matter. -/
def Event.closes? : Event → Option ContainerKind
  | endMethod _ => some .method
  | endLoop _ => some .loop
  | endIteration _ => some .iteration
  | _ => none

namespace Recorder

/-! ## Calls and what they lead to -/

/-- One call to a recorder. -/
inductive Request where
  | record (e : Event)
  | unwind
  deriving DecidableEq, Repr

/-- What one call does. -/
def answer (r : Recorder) : Request → Recorder × List Note
  | .record e => r.record e
  | .unwind => r.unwind

/-- The recorder after some calls to a new one. -/
def reached (calls : List Request) : Recorder := calls.foldl (fun r call => (r.answer call).1) {}

/-- The states in which a call closes the innermost container: one at most for an event, and one
after the other while all that is open unwinds. -/
inductive ClosesIn (r : Recorder) : Request → Recorder → Prop where
  | ending {e : Event} {c : Open} {below : List Open} (hstack : r.stack = c :: below)
    (he : e.closes? = some c.kind) : ClosesIn r (.record e) r
  | unwinding {k : Nat} (hk : k < r.depth) : ClosesIn r .unwind (closeTops k r).1

/-- A loop or a method is open right on a loop that has no iteration. -/
def IsOnEmptyLoop (r : Recorder) : Prop :=
  ∃ c id below, r.stack = c :: .loop ⟨id, []⟩ :: below ∧ c.kind ≠ .iteration

/-! ## The shape of the stack -/

theorem wellNested_closeTop {r : Recorder} (h : WellNested r.stack) :
    WellNested r.closeTop.1.stack := by
  obtain ⟨roots, stack⟩ := r
  cases stack with
  | nil => exact h
  | cons c below =>
    rw [← record_ending]
    exact wellNested_record h c.ending

theorem wellNested_closeTops {r : Recorder} (h : WellNested r.stack) (count : Nat) :
    WellNested (closeTops count r).1.stack := by
  induction count generalizing r with
  | zero => exact h
  | succ count ih =>
    rw [closeTops_succ]
    exact ih (wellNested_closeTop h)

theorem wellNested_answer {r : Recorder} (h : WellNested r.stack) (call : Request) :
    WellNested (r.answer call).1.stack := by
  cases call with
  | record e => exact wellNested_record h e
  | unwind =>
    change WellNested r.unwind.1.stack
    rw [unwind_eq]
    exact .nil

theorem wellNested_reached (calls : List Request) : WellNested (reached calls).stack := by
  suffices h : ∀ r : Recorder, WellNested r.stack →
      WellNested (calls.foldl (fun r call => (r.answer call).1) r).stack from h {} .nil
  induction calls with
  | nil => exact fun _ h => h
  | cons call calls ih => exact fun r h => ih (r.answer call).1 (wellNested_answer h call)

theorem WellNested.opensOn (inner : List Open) {c : Open} {below : List Open}
    (h : WellNested (inner ++ c :: below)) : c.OpensOn below := by
  induction inner with
  | nil =>
    cases h with
    | cons hopens => exact hopens
  | cons b inner ih =>
    cases h with
    | cons _ hbelow => exact ih hbelow

/-- The outermost container is a method. -/
theorem WellNested.eq_method_of_getLast? {stack : List Open} (h : WellNested stack) {c : Open}
    (hlast : stack.getLast? = some c) : ∃ m, c = .method m := by
  obtain ⟨inner, rfl⟩ := List.getLast?_eq_some_iff.mp hlast
  cases h.opensOn inner with
  | method m => exact ⟨m, rfl⟩

/-- An open iteration is right on an open loop. -/
theorem WellNested.loop_below (inner : List Open) {i : Iteration} {below : List Open}
    (h : WellNested (inner ++ .iteration i :: below)) : ∃ l rest, below = .loop l :: rest := by
  cases h.opensOn inner with
  | iteration i l rest => exact ⟨l, rest, rfl⟩

/-- An open loop is inside of something. -/
theorem WellNested.ne_nil_below (inner : List Open) {l : Loop} {below : List Open}
    (h : WellNested (inner ++ .loop l :: below)) : below ≠ [] := by
  cases h.opensOn inner with
  | loop l c rest => exact List.cons_ne_nil c rest

theorem ClosesIn.wellNested {r s : Recorder} {call : Request} (h : r.ClosesIn call s)
    (hr : WellNested r.stack) : WellNested s.stack := by
  cases h with
  | ending => exact hr
  | unwinding => exact wellNested_closeTops hr _

/-! ## Warnings -/

/-- What is said when the innermost container closes is that it is dropped, and then it is right on
a loop without iterations. -/
theorem closeTop_notes {r : Recorder} (hr : WellNested r.stack) {n : Note}
    (hn : n ∈ r.closeTop.2) : (∃ id, n = .dropped id) ∧ r.IsOnEmptyLoop := by
  obtain ⟨roots, stack⟩ := r
  have hdropped {c : Open} {op : Operation} {below : List Open}
      (h : n ∈ (append ⟨roots, below⟩ op).2) (hbelow : below ≠ []) (hc : c.kind ≠ .iteration) :
      (∃ id, n = .dropped id) ∧ IsOnEmptyLoop ⟨roots, c :: below⟩ := by
    obtain ⟨b, rest, rfl⟩ := List.exists_cons_of_ne_nil hbelow
    rcases adds_or_empty_loop op b with ⟨b', hadds⟩ | ⟨id, rfl⟩
    · rw [append_of_adds hadds] at h
      contradiction
    · exact ⟨⟨op.id, List.mem_singleton.mp h⟩, c, id, rest, rfl, hc⟩
  cases stack with
  | nil => contradiction
  | cons c below =>
    cases c with
    | iteration i =>
      obtain ⟨l, rest, rfl⟩ := hr.loop_below []
      contradiction
    | loop l => exact hdropped hn (hr.ne_nil_below []) nofun
    | method m =>
      cases below with
      | nil => contradiction
      | cons b rest => exact hdropped hn (List.cons_ne_nil b rest) nofun

theorem exists_closeTop_of_mem_closeTops {r : Recorder} {count : Nat} {n : Note}
    (hn : n ∈ (closeTops count r).2) : ∃ k < count, n ∈ (closeTops k r).1.closeTop.2 := by
  induction count generalizing r with
  | zero => contradiction
  | succ count ih =>
    rw [closeTops_succ] at hn
    rcases List.mem_append.mp hn with hn | hn
    · exact ⟨0, Nat.zero_lt_succ count, hn⟩
    · obtain ⟨k, hk, hn⟩ := ih hn
      exact ⟨k + 1, Nat.succ_lt_succ hk, hn⟩

/-- What is said about an end is that it is ignored, or it is said when a container closes. -/
theorem close_notes {r : Recorder} {kind : ContainerKind} {id : UInt32} {n : Note}
    (hn : n ∈ (r.close kind id).2) :
    (r.close kind id).1 = r ∧ (∀ i, n ≠ .iterationLost i) ∨
      n ∈ r.closeTop.2 ∧ ∃ c below, r.stack = c :: below ∧ c.kind = kind := by
  unfold close at hn ⊢
  split at hn
  · left
    rw [List.mem_singleton.mp hn]
    exact ⟨rfl, nofun⟩
  · rename_i c below hstack
    split at hn
    · rename_i hkind
      exact .inr ⟨hn, c, below, hstack, hkind⟩
    · rename_i hkind
      left
      rw [List.mem_singleton.mp hn, if_neg hkind]
      exact ⟨rfl, nofun⟩

theorem append_notes {r : Recorder} {op : Operation} {n : Note} (hn : n ∈ (r.append op).2) :
    (r.append op).1 = r ∧ ∀ i, n ≠ .iterationLost i := by
  unfold append at hn ⊢
  split at hn
  · rw [List.mem_singleton.mp hn]
    exact ⟨rfl, nofun⟩
  · split at hn
    · contradiction
    · rw [List.mem_singleton.mp hn]
      exact ⟨rfl, nofun⟩

/-- What is said about an event is about one that changes nothing, or it is said when a container
closes. -/
theorem record_notes {r : Recorder} {e : Event} {n : Note} (hn : n ∈ (r.record e).2) :
    (r.record e).1 = r ∧ (∀ i, n ≠ .iterationLost i) ∨
      n ∈ r.closeTop.2 ∧ r.ClosesIn (.record e) r := by
  have hends {kind : ContainerKind} {id : UInt32} (h : n ∈ (r.close kind id).2)
      (he : e.closes? = some kind) :
      (r.close kind id).1 = r ∧ (∀ i, n ≠ .iterationLost i) ∨
        n ∈ r.closeTop.2 ∧ r.ClosesIn (.record e) r := by
    rcases close_notes h with hsame | ⟨hclose, c, below, hstack, rfl⟩
    · exact .inl hsame
    · exact .inr ⟨hclose, .ending hstack he⟩
  obtain ⟨roots, stack⟩ := r
  cases e with
  | beginMethod id name arguments => contradiction
  | endMethod id => exact hends hn rfl
  | endLoop id => exact hends hn rfl
  | endIteration id => exact hends hn rfl
  | beginLoop id =>
    cases stack with
    | nil => exact .inl ⟨rfl, by rw [List.mem_singleton.mp hn]; exact nofun⟩
    | cons c below => contradiction
  | beginIteration id =>
    have hrefused (h : n ∈ [Note.iterationOutside id]) : ∀ i, n ≠ .iterationLost i := by
      rw [List.mem_singleton.mp h]
      exact nofun
    cases stack with
    | nil => exact .inl ⟨rfl, hrefused hn⟩
    | cons c below =>
      cases c with
      | loop l => contradiction
      | method m => exact .inl ⟨rfl, hrefused hn⟩
      | iteration i => exact .inl ⟨rfl, hrefused hn⟩
  | change c => exact .inl (append_notes hn)
  | ret v => exact .inl (append_notes hn)

/-- What is said about a call is about one that changes nothing, or that so much was open, or it is
said when a container closes. -/
theorem answer_notes {r : Recorder} {call : Request} {n : Note} (hn : n ∈ (r.answer call).2) :
    (r.answer call).1 = r ∧ (∀ i, n ≠ .iterationLost i) ∨ n = .unwinding r.depth ∨
      ∃ s, r.ClosesIn call s ∧ n ∈ s.closeTop.2 := by
  cases call with
  | record e =>
    rcases record_notes hn with hsame | ⟨hclose, hin⟩
    · exact .inl hsame
    · exact .inr (.inr ⟨r, hin, hclose⟩)
  | unwind =>
    right
    change n ∈ r.unwind.2 at hn
    unfold unwind at hn
    split at hn
    · contradiction
    · rcases List.mem_cons.mp hn with rfl | hn
      · exact .inl rfl
      · obtain ⟨k, hk, hn⟩ := exists_closeTop_of_mem_closeTops hn
        exact .inr ⟨_, .unwinding hk, hn⟩

/-- Whatever a new recorder was asked to do, the outermost open container is a method and every open
iteration is right on an open loop. So, when the next call closes a container, be it one of many, an
iteration finds its loop and a loop finds something that it is in; no iteration is ever reported as
lost. A call that leads to a warning changes nothing, or it closes a loop or a call onto a loop
without iterations. -/
theorem shape_of_reached (calls : List Request) (call : Request) :
    let r := reached calls
    (∀ c, r.stack.getLast? = some c → ∃ m, c = .method m) ∧
    (∀ inner i below, r.stack = inner ++ .iteration i :: below →
      ∃ l rest, below = .loop l :: rest) ∧
    (∀ s, r.ClosesIn call s →
      (∀ i below, s.stack = .iteration i :: below → ∃ l rest, below = .loop l :: rest) ∧
      ∀ l below, s.stack = .loop l :: below → below ≠ []) ∧
    (∀ id, .iterationLost id ∉ (r.answer call).2) ∧
    ((∃ n ∈ (r.answer call).2, n.level = .warn) →
      (r.answer call).1 = r ∨ ∃ s, r.ClosesIn call s ∧ s.IsOnEmptyLoop) := by
  intro r
  have hr : WellNested r.stack := wellNested_reached calls
  refine ⟨fun c hc => hr.eq_method_of_getLast? hc, fun inner i below hstack => ?_,
    fun s hs => ?_, fun id hlost => ?_, ?_⟩
  · rw [hstack] at hr
    exact hr.loop_below inner
  · have hnested := hs.wellNested hr
    refine ⟨fun i below hstack => ?_, fun l below hstack => ?_⟩
    · rw [hstack] at hnested
      exact hnested.loop_below []
    · rw [hstack] at hnested
      exact hnested.ne_nil_below []
  · rcases answer_notes hlost with ⟨-, hne⟩ | hunwinding | ⟨s, hs, hclose⟩
    · exact hne id rfl
    · contradiction
    · obtain ⟨⟨_, hdropped⟩, -⟩ := closeTop_notes (hs.wellNested hr) hclose
      contradiction
  · rintro ⟨n, hn, hwarn⟩
    rcases answer_notes hn with ⟨hsame, -⟩ | rfl | ⟨s, hs, hclose⟩
    · exact .inl hsame
    · contradiction
    · exact .inr ⟨s, hs, (closeTop_notes (hs.wellNested hr) hclose).2⟩

/-- Ends that fit nothing, and then a method that is open on a loop without iterations, in a pass
through another loop. Unwinding loses the method. -/
theorem shape_of_reached_before_unwinding :
    let calls : List Request := [.record (.endLoop 9), .record (.beginMethod 1 "f" []),
      .record (.beginLoop 2), .record (.beginIteration 3), .record (.endMethod 1),
      .record (.beginLoop 4), .record (.beginMethod 5 "g" [])]
    let r := reached calls
    r.stack = [.method ⟨5, "g", [], []⟩, .loop ⟨4, []⟩, .iteration ⟨3, []⟩, .loop ⟨2, []⟩,
      .method ⟨1, "f", [], []⟩] ∧
    (∃ l rest, r.stack.drop 3 = .loop l :: rest) ∧
    (r.answer .unwind).2 = [.unwinding 5, .dropped 5] ∧
    ∃ s, r.ClosesIn .unwind s ∧ s.IsOnEmptyLoop := by
  intro calls r
  have hnotes : (r.answer .unwind).2 = [.unwinding 5, .dropped 5] := rfl
  have hchanged : (r.answer .unwind).1 ≠ r := fun h => nomatch congrArg depth h
  obtain ⟨-, hiterations, -, -, hwarned⟩ := shape_of_reached calls .unwind
  refine ⟨rfl, hiterations [.method ⟨5, "g", [], []⟩, .loop ⟨4, []⟩] ⟨3, []⟩ _ rfl, hnotes, ?_⟩
  exact (hwarned ⟨.dropped 5, by rw [hnotes]; simp, rfl⟩).resolve_left hchanged

end Recorder

end LiveTrace
