import LiveTrace.Proofs.Trace.Stack

/-
  Unwinding. `unwind_eq`: it folds the open containers into one another from the inside, and
  the last one into the roots. So it does not matter whether some of them were closed before
  (`finished_closeTop`, `finished_record_end`), and unwinding is the same as recording the ends
  of all that is open, innermost first (`play_closing`).
-/
namespace LiveTrace.Recorder

/-! ## Playing events -/

theorem play_cons (r : Recorder) (e : Event) (es : List Event) :
    r.play (e :: es) =
      (((r.record e).1.play es).1, (r.record e).2 ++ ((r.record e).1.play es).2) := rfl

theorem play_append (r : Recorder) (es fs : List Event) :
    r.play (es ++ fs) =
      (((r.play es).1.play fs).1, (r.play es).2 ++ ((r.play es).1.play fs).2) := by
  induction es generalizing r with
  | nil => rfl
  | cons e es ih => rw [List.cons_append, play_cons, play_cons, ih, List.append_assoc]

theorem play_append_quiet {r s : Recorder} {es : List Event} (h : r.play es = (s, []))
    (fs : List Event) : r.play (es ++ fs) = s.play fs := by
  rw [play_append, h]
  rfl

theorem play_singleton (r : Recorder) (e : Event) : r.play [e] = r.record e := by
  rw [play_cons]
  simp [play]

/-! ## Closing all that is open -/

theorem closeTops_succ (count : Nat) (r : Recorder) :
    closeTops (count + 1) r = ((closeTops count r.closeTop.1).1,
      r.closeTop.2 ++ (closeTops count r.closeTop.1).2) := rfl

/-- The roots once all that is open has closed. -/
def finished (r : Recorder) : Roots :=
  match r.stack with
  | [] => r.roots
  | top :: below => (below.foldl Open.settle top).finish r.roots

theorem finished_closeTop (r : Recorder) : r.closeTop.1.finished = r.finished := by
  obtain ⟨roots, stack⟩ := r
  cases stack with
  | nil => rfl
  | cons top below =>
    cases below with
    | nil =>
      rw [closeTop_last]
      rfl
    | cons c rest =>
      rw [closeTop_settle]
      rfl

theorem closeTops_eq (roots : Roots) (top : Open) (below : List Open) :
    (closeTops (below.length + 1) ⟨roots, top :: below⟩).1 =
      ⟨finished ⟨roots, top :: below⟩, []⟩ := by
  induction below generalizing top with
  | nil =>
    rw [closeTops_succ, closeTop_last]
    rfl
  | cons c rest ih =>
    rw [closeTops_succ, closeTop_settle, List.length_cons, ih]
    rfl

theorem unwind_eq (r : Recorder) : r.unwind.1 = ⟨r.finished, []⟩ := by
  obtain ⟨roots, stack⟩ := r
  cases stack with
  | nil => rfl
  | cons top below => exact closeTops_eq roots top below

/-- An event that closes something, or is refused, leaves the finished roots as they are. -/
theorem finished_record_end (r : Recorder) {e : Event} (he : e.isEnd = true) :
    (r.record e).1.finished = r.finished := by
  obtain ⟨roots, stack⟩ := r
  have heff := record_effect roots stack e
  generalize record ⟨roots, stack⟩ e = after at heff ⊢
  obtain ⟨s, notes⟩ := after
  cases heff with
  | refuse => rfl
  | begins hopens => cases hopens <;> contradiction
  | adds hlogs => cases hlogs <;> contradiction
  | closes _ top below => exact finished_closeTop ⟨roots, top :: below⟩

/-! ## Unwinding as events -/

/-- The events that close all that is open. -/
def closing (r : Recorder) : List Event := r.stack.map Open.ending

theorem isEnd_of_mem_closing (r : Recorder) : ∀ e ∈ r.closing, e.isEnd = true := by
  intro e he
  obtain ⟨c, -, rfl⟩ := List.mem_map.mp he
  cases c <;> rfl

theorem play_closing_cons (roots : Roots) (top : Open) (below : List Open) :
    play ⟨roots, top :: below⟩ (closing ⟨roots, top :: below⟩) =
      closeTops (below.length + 1) ⟨roots, top :: below⟩ := by
  induction below generalizing top with
  | nil =>
    change play ⟨roots, [top]⟩ [top.ending] = _
    rw [play_singleton, record_ending, closeTops_succ]
    simp [closeTops]
  | cons c rest ih =>
    have hclosing : closing ⟨roots, top :: c :: rest⟩ =
        top.ending :: closing ⟨roots, top.settle c :: rest⟩ := by
      simp only [closing, List.map_cons, Open.ending_settle]
    rw [hclosing, play_cons, record_ending, closeTop_settle, ih, List.length_cons,
      closeTops_succ (rest.length + 1), closeTop_settle]

theorem play_closing (r : Recorder) : (r.play r.closing).1 = r.unwind.1 := by
  obtain ⟨roots, stack⟩ := r
  cases stack with
  | nil => rfl
  | cons top below =>
    rw [play_closing_cons]
    rfl

/-- The notes of unwinding are those of the ends, but for the one that says how much was open. -/
theorem unwind_notes (r : Recorder) :
    r.unwind.2 =
      (if r.depth = 0 then [] else [.unwinding r.depth]) ++ (r.play r.closing).2 := by
  obtain ⟨roots, stack⟩ := r
  cases stack with
  | nil => rfl
  | cons top below =>
    have hopen : depth ⟨roots, top :: below⟩ ≠ 0 := Nat.succ_ne_zero below.length
    rw [play_closing_cons, if_neg hopen]
    rfl

theorem play_append_closing (r : Recorder) (es : List Event) :
    (r.play (es ++ (r.play es).1.closing)).1 = (r.play es).1.unwind.1 := by
  rw [play_append]
  exact play_closing _

theorem mem_notes_of_append_closing {r : Recorder} {es : List Event} {n : Note}
    (h : n ∈ (r.play (es ++ (r.play es).1.closing)).2) :
    n ∈ (r.play es).2 ++ (r.play es).1.unwind.2 := by
  rw [play_append] at h
  rw [unwind_notes]
  rcases List.mem_append.mp h with h | h
  · exact List.mem_append_left _ h
  · exact List.mem_append_right _ (List.mem_append_right _ h)

end LiveTrace.Recorder
