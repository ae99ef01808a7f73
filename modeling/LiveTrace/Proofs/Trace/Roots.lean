import LiveTrace.Trace.Operation

/-
  The roots of a trace as a map from ids to calls. `get?_insert`: an insertion changes what is
  under its own id and nothing else. `ascending_insert`: ids stay ascending, so that the list
  holds no more than `get?` shows. `get?_insertAll`: of calls inserted one after another, the
  last with an id is the one that stays under it.
-/
namespace LiveTrace.Roots

theorem get?_cons (k : UInt32) (call : MethodCall) (rest : Roots) (id : UInt32) :
    get? ((k, call) :: rest) id = if k = id then some call else get? rest id := by
  unfold get?
  by_cases h : k = id
  · rw [if_pos h, List.find?_cons_of_pos (by simp [h])]
    rfl
  · rw [if_neg h, List.find?_cons_of_neg (by simp [h])]

theorem get?_insert (roots : Roots) (id : UInt32) (call : MethodCall) (k : UInt32) :
    get? (roots.insert id call) k = if id = k then some call else get? roots k := by
  induction roots with
  | nil => rw [insert, get?_cons]
  | cons head rest ih =>
    obtain ⟨j, c⟩ := head
    unfold insert
    by_cases hlt : id < j
    · rw [if_pos hlt, get?_cons]
    · rw [if_neg hlt]
      by_cases heq : id = j
      · rw [if_pos heq, get?_cons, get?_cons, ← heq]
        split <;> rfl
      · rw [if_neg heq, get?_cons, ih, get?_cons]
        by_cases hk : j = k
        · rw [if_pos hk, if_pos hk, if_neg (fun h => heq (h.trans hk.symm))]
        · rw [if_neg hk, if_neg hk]

/-- Ids ascend, so no id is there twice. -/
def Ascending (roots : Roots) : Prop := roots.Pairwise fun a b => a.1 < b.1

theorem mem_insert {roots : Roots} {id : UInt32} {call : MethodCall} {x : UInt32 × MethodCall}
    (h : x ∈ roots.insert id call) : x = (id, call) ∨ x ∈ roots := by
  induction roots with
  | nil => exact Or.inl (List.mem_singleton.mp h)
  | cons head rest ih =>
    obtain ⟨j, c⟩ := head
    unfold insert at h
    split at h
    · exact List.mem_cons.mp h
    · split at h
      · rcases List.mem_cons.mp h with h | h
        · exact Or.inl h
        · exact Or.inr (List.mem_cons_of_mem _ h)
      · rcases List.mem_cons.mp h with h | h
        · exact Or.inr (h ▸ List.mem_cons_self)
        · exact (ih h).imp_right (List.mem_cons_of_mem _)

theorem ascending_insert {roots : Roots} (h : Ascending roots) (id : UInt32) (call : MethodCall) :
    Ascending (roots.insert id call) := by
  induction roots with
  | nil => exact List.pairwise_singleton _ _
  | cons head rest ih =>
    obtain ⟨j, c⟩ := head
    obtain ⟨hj, hrest⟩ := List.pairwise_cons.mp h
    unfold insert
    by_cases hlt : id < j
    · rw [if_pos hlt]
      refine List.pairwise_cons.mpr ⟨fun x hx => ?_, h⟩
      rcases List.mem_cons.mp hx with rfl | hx
      · exact hlt
      · exact UInt32.lt_trans hlt (hj x hx)
    · rw [if_neg hlt]
      by_cases heq : id = j
      · rw [if_pos heq]
        exact List.pairwise_cons.mpr ⟨fun x hx => heq ▸ hj x hx, hrest⟩
      · rw [if_neg heq]
        refine List.pairwise_cons.mpr ⟨fun x hx => ?_, ih hrest⟩
        rcases mem_insert hx with rfl | hx
        · exact UInt32.lt_of_le_of_ne (UInt32.not_lt.mp hlt) (Ne.symm heq)
        · exact hj x hx

/-- Inserts calls one after another, each under its own id. -/
def insertAll (roots : Roots) (calls : List MethodCall) : Roots :=
  calls.foldl (fun roots call => roots.insert call.id call) roots

theorem ascending_insertAll {roots : Roots} (h : Ascending roots) (calls : List MethodCall) :
    Ascending (roots.insertAll calls) := by
  induction calls generalizing roots with
  | nil => exact h
  | cons call calls ih => exact ih (ascending_insert h call.id call)

theorem get?_insertAll (roots : Roots) (calls : List MethodCall) (id : UInt32) :
    get? (roots.insertAll calls) id =
      ((calls.filter fun call => call.id = id).getLast?).or (get? roots id) := by
  induction calls generalizing roots with
  | nil => rfl
  | cons call calls ih =>
    have hcons : roots.insertAll (call :: calls) =
        (roots.insert call.id call).insertAll calls := rfl
    rw [hcons, ih, get?_insert]
    by_cases h : call.id = id
    · rw [if_pos h, List.filter_cons_of_pos (by simpa using h), List.getLast?_cons]
      cases (calls.filter fun call => call.id = id).getLast? <;> rfl
    · rw [if_neg h, List.filter_cons_of_neg (by simpa using h)]

end LiveTrace.Roots
