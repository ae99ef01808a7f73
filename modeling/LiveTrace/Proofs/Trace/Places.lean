import LiveTrace.Trace.Operation

/-
  Places in a tree. A place is the way down to an operation: which operation of a method or which
  pass of a loop, and within a pass which of its operations. `loopPlaces_call`: the loops that
  `MethodCall.loops` gives are those at the places where a loop is, each place once, an outer loop
  before those in it and an earlier one before a later one.
-/
namespace LiveTrace

mutual

/-- What is at a place of an operation, the operation itself at the empty one. -/
def Operation.at? : Operation → List Nat → Option Operation
  | op, [] => some op
  | .loop ⟨_, is⟩, place => inIterations? is place
  | .methodCall ⟨_, _, _, os⟩, place => inOperations? os place
  | _, _ => none

def inOperations? : List Operation → List Nat → Option Operation
  | op :: _, 0 :: place => op.at? place
  | _ :: os, (k + 1) :: place => inOperations? os (k :: place)
  | _, _ => none

def inIterations? : List Iteration → List Nat → Option Operation
  | ⟨_, os⟩ :: _, 0 :: place => inOperations? os place
  | _ :: is, (k + 1) :: place => inIterations? is (k :: place)
  | _, _ => none

end

theorem inOperations?_nil (os : List Operation) : inOperations? os [] = none := by
  cases os <;> rfl

theorem inIterations?_nil (is : List Iteration) : inIterations? is [] = none := by
  match is with
  | [] => rfl
  | ⟨_, _⟩ :: _ => rfl

/-- The place one further along in a list. -/
def nextPlace : List Nat → List Nat
  | [] => []
  | k :: place => (k + 1) :: place

/-- What `first` finds in the head of a list and `rest` in its tail, `whole` finds in the list. -/
structure FindsCons (first rest whole : List Nat → Option Operation) : Prop where
  nil : rest [] = none
  zero : ∀ place, whole (0 :: place) = first place
  next : ∀ place, whole (nextPlace place) = rest place

theorem findsCons_operations (op : Operation) (os : List Operation) :
    FindsCons op.at? (inOperations? os) (inOperations? (op :: os)) := by
  refine ⟨inOperations?_nil os, fun _ => rfl, fun place => ?_⟩
  cases place with
  | nil => rw [nextPlace, inOperations?_nil, inOperations?_nil]
  | cons k place => rfl

theorem findsCons_iterations (id : UInt32) (os : List Operation) (is : List Iteration) :
    FindsCons (inOperations? os) (inIterations? is) (inIterations? (⟨id, os⟩ :: is)) := by
  refine ⟨inIterations?_nil is, fun _ => rfl, fun place => ?_⟩
  cases place with
  | nil => rw [nextPlace, inIterations?_nil, inIterations?_nil]
  | cons k place => rfl

/-- Nothing is found in a list but in its head or in its tail. -/
theorem FindsCons.exists_iff {first rest whole : List Nat → Option Operation}
    (h : FindsCons first rest whole) {op : Operation} :
    (∃ place, whole place = some op) ↔
      (∃ place, first place = some op) ∨ ∃ place, rest place = some op := by
  constructor
  · rintro ⟨place, hop⟩
    match place with
    | [] => exact .inr ⟨[], (h.next []).symm.trans hop⟩
    | 0 :: place => exact .inl ⟨place, (h.zero place).symm.trans hop⟩
    | (k + 1) :: place => exact .inr ⟨k :: place, (h.next (k :: place)).symm.trans hop⟩
  · rintro (⟨place, hop⟩ | ⟨place, hop⟩)
    · exact ⟨0 :: place, (h.zero place).trans hop⟩
    · exact ⟨nextPlace place, (h.next place).trans hop⟩

/-! ## The places of loops -/

/-- `places` are the places at which `find` finds a loop, each once and in lexicographic order, and
`loops` are the loops there. -/
structure LoopPlaces (find : List Nat → Option Operation) (loops : List Loop)
    (places : List (List Nat)) : Prop where
  sorted : places.Pairwise (· < ·)
  found : places.map find = loops.map fun l => some (.loop l)
  all : ∀ place l, find place = some (.loop l) → place ∈ places

namespace LoopPlaces

variable {find : List Nat → Option Operation} {loops : List Loop} {places : List (List Nat)}

theorem of_no_loop (h : ∀ place l, find place ≠ some (.loop l)) : LoopPlaces find [] [] :=
  ⟨.nil, rfl, fun place l hl => absurd hl (h place l)⟩

theorem exists_loop (h : LoopPlaces find loops places) {place : List Nat} (hmem : place ∈ places) :
    ∃ l, find place = some (.loop l) := by
  have hfound : find place ∈ places.map find := List.mem_map_of_mem hmem
  rw [h.found] at hfound
  obtain ⟨l, -, hl⟩ := List.mem_map.mp hfound
  exact ⟨l, hl.symm⟩

/-- Only the loops that are found matter. -/
theorem of_iff (h : LoopPlaces find loops places) {find' : List Nat → Option Operation}
    (hfind : ∀ place l, find' place = some (.loop l) ↔ find place = some (.loop l)) :
    LoopPlaces find' loops places := by
  refine ⟨h.sorted, ?_, fun place l hl => h.all place l ((hfind place l).mp hl)⟩
  rw [← h.found]
  refine List.map_congr_left fun place hmem => ?_
  obtain ⟨l, hl⟩ := h.exists_loop hmem
  rw [hl]
  exact (hfind place l).mpr hl

/-- A loop comes before what is in it. -/
theorem self (h : LoopPlaces find loops places) (hnil : find [] = none) (l : Loop) :
    LoopPlaces (fun place => if place = [] then some (.loop l) else find place) (l :: loops)
      ([] :: places) := by
  have hne : ∀ place ∈ places, place ≠ [] := by
    rintro place hmem rfl
    obtain ⟨k, hk⟩ := h.exists_loop hmem
    exact nomatch hnil.symm.trans hk
  refine ⟨List.pairwise_cons.mpr ⟨fun place hmem => ?_, h.sorted⟩, ?_, fun place k hk => ?_⟩
  · obtain ⟨j, rest, rfl⟩ := List.exists_cons_of_ne_nil (hne place hmem)
    exact List.nil_lt_cons j rest
  · rw [List.map_cons, List.map_cons, ← h.found, if_pos rfl]
    exact congrArg _ (List.map_congr_left fun place hmem => if_neg (hne place hmem))
  · by_cases hplace : place = []
    · exact hplace ▸ List.mem_cons_self
    · rw [if_neg hplace] at hk
      exact List.mem_cons_of_mem _ (h.all place k hk)

/-- What is found in the first element and then in the rest of a list. -/
theorem cons {first rest whole : List Nat → Option Operation} {loops' : List Loop}
    {places' : List (List Nat)} (h : LoopPlaces first loops places)
    (h' : LoopPlaces rest loops' places') (hcons : FindsCons first rest whole) :
    LoopPlaces whole (loops ++ loops') (places.map (0 :: ·) ++ places'.map nextPlace) := by
  have hne : ∀ place ∈ places', ∃ k tail, place = k :: tail := by
    intro place hmem
    obtain ⟨l, hl⟩ := h'.exists_loop hmem
    cases place with
    | nil => exact nomatch hcons.nil.symm.trans hl
    | cons k tail => exact ⟨k, tail, rfl⟩
  refine ⟨List.pairwise_append.mpr ⟨?_, ?_, ?_⟩, ?_, fun place l hl => ?_⟩
  · exact h.sorted.map _ fun _ _ hlt => List.cons_lt_cons_iff.mpr (.inr ⟨rfl, hlt⟩)
  · refine List.pairwise_map.mpr (h'.sorted.imp_of_mem fun ha hb hlt => ?_)
    obtain ⟨j, as, rfl⟩ := hne _ ha
    obtain ⟨k, bs, rfl⟩ := hne _ hb
    refine List.cons_lt_cons_iff.mpr ((List.cons_lt_cons_iff.mp hlt).imp Nat.succ_lt_succ ?_)
    exact fun heq => ⟨congrArg Nat.succ heq.1, heq.2⟩
  · intro a ha b hb
    obtain ⟨as, -, rfl⟩ := List.mem_map.mp ha
    obtain ⟨place, hmem, rfl⟩ := List.mem_map.mp hb
    obtain ⟨k, bs, rfl⟩ := hne _ hmem
    exact List.cons_lt_cons_iff.mpr (.inl (Nat.succ_pos k))
  · have hfirst : (whole ∘ (0 :: ·)) = first := funext hcons.zero
    have hsecond : (whole ∘ nextPlace) = rest := funext hcons.next
    rw [List.map_append, List.map_append, List.map_map, List.map_map, hfirst, hsecond, h.found,
      h'.found]
  · match place with
    | [] => exact nomatch hcons.nil.symm.trans ((hcons.next []).symm.trans hl)
    | 0 :: place =>
      rw [hcons.zero] at hl
      exact List.mem_append_left _ (List.mem_map_of_mem (h.all place l hl))
    | (k + 1) :: place =>
      have hl' : rest (k :: place) = some (.loop l) := (hcons.next (k :: place)).symm.trans hl
      exact List.mem_append_right _ (List.mem_map_of_mem (h'.all _ l hl'))

end LoopPlaces

mutual

theorem loopPlaces_operation (op : Operation) : ∃ places, LoopPlaces op.at? op.loops places := by
  match op with
  | .stateChange c =>
    refine ⟨[], .of_no_loop fun place l hl => ?_⟩
    cases place <;> simp [Operation.at?] at hl
  | .returnValue r =>
    refine ⟨[], .of_no_loop fun place l hl => ?_⟩
    cases place <;> simp [Operation.at?] at hl
  | .loop ⟨id, is⟩ =>
    obtain ⟨places, h⟩ := loopPlaces_iterations is
    have hat : (Operation.loop ⟨id, is⟩).at? = fun place =>
        if place = [] then some (.loop ⟨id, is⟩) else inIterations? is place := by
      funext place
      cases place <;> rfl
    rw [hat, Operation.loops]
    exact ⟨_, h.self (inIterations?_nil is) ⟨id, is⟩⟩
  | .methodCall ⟨id, name, arguments, os⟩ =>
    obtain ⟨places, h⟩ := loopPlaces_operations os
    rw [Operation.loops]
    refine ⟨places, h.of_iff fun place l => ?_⟩
    cases place with
    | nil => simp [Operation.at?, inOperations?_nil]
    | cons k place => rfl

theorem loopPlaces_operations (os : List Operation) :
    ∃ places, LoopPlaces (inOperations? os) (loopsOfOperations os) places := by
  match os with
  | [] => exact ⟨[], .of_no_loop fun place l hl => nomatch hl⟩
  | op :: os =>
    obtain ⟨places, h⟩ := loopPlaces_operation op
    obtain ⟨places', h'⟩ := loopPlaces_operations os
    exact ⟨_, h.cons h' (findsCons_operations op os)⟩

theorem loopPlaces_iterations (is : List Iteration) :
    ∃ places, LoopPlaces (inIterations? is) (loopsOfIterations is) places := by
  match is with
  | [] => exact ⟨[], .of_no_loop fun place l hl => nomatch hl⟩
  | ⟨id, os⟩ :: is =>
    obtain ⟨places, h⟩ := loopPlaces_operations os
    obtain ⟨places', h'⟩ := loopPlaces_iterations is
    exact ⟨_, h.cons h' (findsCons_iterations id os is)⟩

end

theorem loopPlaces_call (m : MethodCall) :
    ∃ places, LoopPlaces (Operation.methodCall m).at? m.loops places := by
  obtain ⟨id, name, arguments, os⟩ := m
  exact loopPlaces_operation (.methodCall ⟨id, name, arguments, os⟩)

end LiveTrace
