import LiveTrace.Proofs.Trace.Unwinding

/-
  The shape of the stack. Nothing compares an event with what is open further out, and yet each
  container stays where one of its kind may open (`WellNested`): a method anywhere, a loop inside
  of something, an iteration right on a loop. So the outermost container is a method. One event
  keeps this (`wellNested_record`), hence all events do (`wellNested_play`).
-/
namespace LiveTrace

namespace Open

/-- Where a container may stand depends on its kind alone. -/
theorem OpensOn.of_kind {c d : Open} {below : List Open} (h : c.OpensOn below)
    (hkind : d.kind = c.kind) : d.OpensOn below := by
  cases h with
  | method m =>
    cases d with
    | method n => exact .method n below
    | loop | iteration => contradiction
  | loop l b rest =>
    cases d with
    | loop k => exact .loop k b rest
    | method | iteration => contradiction
  | iteration i l rest =>
    cases d with
    | iteration j => exact .iteration j l rest
    | method | loop => contradiction

theorem kind_of_adds {op : Operation} {c d : Open} (h : c.Adds op d) : d.kind = c.kind := by
  cases h <;> rfl

theorem kind_of_join {c below joined : Open} (h : c.join below = some joined) :
    joined.kind = below.kind := by
  cases c with
  | method m => exact kind_of_adds (Recorder.addTo_eq_some h)
  | loop l => exact kind_of_adds (Recorder.addTo_eq_some h)
  | iteration i =>
    cases below with
    | loop l => exact Option.some.inj h ▸ rfl
    | method | iteration => contradiction

theorem kind_settle (c below : Open) : (c.settle below).kind = below.kind := by
  unfold settle
  cases h : c.join below with
  | none => rfl
  | some joined => exact kind_of_join h

end Open

namespace Recorder

/-- Every open container stands where one of its kind may open. -/
inductive WellNested : List Open → Prop where
  | nil : WellNested []
  | cons {c : Open} {below : List Open} (h : c.OpensOn below) (hbelow : WellNested below) :
    WellNested (c :: below)

theorem WellNested.of_kind {c d : Open} {below : List Open} (h : WellNested (c :: below))
    (hkind : d.kind = c.kind) : WellNested (d :: below) := by
  cases h with
  | cons hopens hbelow => exact .cons (hopens.of_kind hkind) hbelow

/-- What is open with nothing around it is a method. -/
theorem WellNested.eq_method {c : Open} (h : WellNested [c]) : ∃ m, c = .method m := by
  cases h with
  | cons hopens =>
    cases hopens with
    | method m => exact ⟨m, rfl⟩

theorem wellNested_record {r : Recorder} (h : WellNested r.stack) (e : Event) :
    WellNested (r.record e).1.stack := by
  obtain ⟨roots, stack⟩ := r
  have heff := record_effect roots stack e
  generalize record ⟨roots, stack⟩ e = after at heff ⊢
  obtain ⟨s, notes⟩ := after
  cases heff with
  | refuse => exact h
  | begins _ hopens => exact .cons hopens h
  | adds _ hadds => exact h.of_kind (Open.kind_of_adds hadds)
  | closes _ top below =>
    cases below with
    | nil =>
      rw [closeTop_last]
      exact .nil
    | cons c rest =>
      rw [closeTop_settle]
      cases h with
      | cons _ hbelow => exact hbelow.of_kind (Open.kind_settle top c)

theorem wellNested_play {r : Recorder} (h : WellNested r.stack) (es : List Event) :
    WellNested (r.play es).1.stack := by
  induction es generalizing r with
  | nil => exact h
  | cons e es ih =>
    rw [play_cons]
    exact ih (wellNested_record h e)

end Recorder

end LiveTrace
