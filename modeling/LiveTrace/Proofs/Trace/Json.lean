import LiveTrace.Proofs.Json.Values
import LiveTrace.Proofs.Trace.Roots
import LiveTrace.Trace.Json

/-
  Traces are read back from their JSON. What is written of an operation is read as it if there
  are levels enough (`operation?_toJson`), and so is what is written of a call and of a trace
  (`MethodCall.ofJson?_toJson`, `Roots.ofJson?_toJson`). So each of their texts is read back, or
  nests too deeply (`readText?_toJson`).
-/
namespace LiveTrace

open Json (Proper proper_fields proper_array proper_ofNat proper_ofString)

/-! ## What is written -/

theorem proper_stateChange (c : StateChange) : c.toJson.Proper :=
  proper_fields (by simp [StateChange.fields, proper_ofNat, proper_ofString])

theorem proper_arguments (arguments : List StateChange) :
    Proper (.array (arguments.map StateChange.toJson)) := by
  refine proper_array fun v hv => ?_
  obtain ⟨c, -, rfl⟩ := List.mem_map.mp hv
  exact proper_stateChange c

theorem proper_returned (value : Option String) :
    Proper ((value.map Json.ofString).getD .null) := by
  cases value with
  | none => exact Json.proper_null
  | some s => exact proper_ofString s

mutual

theorem proper_operation (o : Operation) : o.toJson.Proper := by
  match o with
  | .stateChange c =>
    exact proper_fields (by simp [StateChange.fields, proper_ofNat, proper_ofString])
  | .returnValue r =>
    exact proper_fields
      (by simp [ReturnValue.fields, proper_ofNat, proper_ofString, proper_returned])
  | .loop ⟨id, is⟩ =>
    have his := proper_array (proper_iterations is)
    rw [Operation.toJson]
    exact proper_fields (by simp [proper_ofNat, proper_ofString, his])
  | .methodCall ⟨id, name, arguments, os⟩ =>
    have hos := proper_array (proper_operations os)
    rw [Operation.toJson]
    exact proper_fields (by simp [proper_ofNat, proper_ofString, proper_arguments, hos])

theorem proper_operations (os : List Operation) : ∀ v ∈ operationsToJson os, v.Proper := by
  match os with
  | [] => exact nofun
  | o :: os =>
    rw [operationsToJson]
    exact List.forall_mem_cons.mpr ⟨proper_operation o, proper_operations os⟩

theorem proper_iterations (is : List Iteration) : ∀ v ∈ iterationsToJson is, v.Proper := by
  match is with
  | [] => exact nofun
  | ⟨id, os⟩ :: is =>
    have hos := proper_array (proper_operations os)
    rw [iterationsToJson]
    exact List.forall_mem_cons.mpr
      ⟨proper_fields (by simp [proper_ofNat, hos]), proper_iterations is⟩

end

theorem proper_methodCall (m : MethodCall) : m.toJson.Proper := by
  have hos := proper_array (proper_operations m.operations)
  exact proper_fields (by simp [proper_ofNat, proper_ofString, proper_arguments, hos])

theorem proper_roots (roots : Roots) : roots.toJson.Proper := by
  refine Json.proper_object fun m hm => ?_
  obtain ⟨r, -, rfl⟩ := List.mem_map.mp hm
  obtain ⟨hraw, hsome⟩ := Json.digits_key r.1.toNat
  exact ⟨hraw, hsome, proper_methodCall r.2⟩

/-! ## What is read -/

namespace Operation

theorem Kind.ofJson?_name (inside : Bool) (k : Kind) :
    Kind.ofJson? inside (.ofString k.name) = some k := by
  have htext : Kind.ofJson? inside (.ofString k.name) =
      (Json.text? (.ofString k.name)).bind Kind.ofText? := rfl
  rw [htext, Json.text?_ofString]
  cases k <;> decide

/-- The kind and the fields of an operation are read as they were given. -/
theorem kindAndFields?_fields (inside : Bool) (k : Kind) {members : List (String × Json)}
    (hkind : ∀ m ∈ members, (m.1 != "kind") = true)
    (htwice : Json.hasTwice k.fieldNames members = false) (levels : Nat) :
    kindAndFields? inside (levels + 1) (.fields (("kind", .ofString k.name) :: members)) =
      some (k, ⟨true, members⟩) := by
  have hsplit : splitKind (("kind", .ofString k.name) :: members) =
      (members, [("kind", .ofString k.name)]) := by
    have hothers : members.filter (fun m => !(m.1 != "kind")) = [] := by
      refine List.filter_eq_nil_iff.mpr fun m hm => ?_
      rw [hkind m hm]
      exact Bool.false_ne_true
    rw [splitKind, List.partition_eq_filter_filter, List.filter_cons_of_neg (by simp),
      List.filter_eq_self.mpr hkind, List.filter_cons_of_pos (by simp)]
    exact congrArg (fun rest => (members, ("kind", _) :: rest)) hothers
  have hmembers := Json.members?_fields (("kind", .ofString k.name) :: members)
  simp only [kindAndFields?, Json.fields, hmembers, Option.map_some, hsplit, Kind.ofJson?_name,
    htwice, Bool.false_eq_true, if_false]

end Operation

theorem StateChange.ofFields?_fields (c : StateChange) : ofFields? ⟨true, c.fields⟩ = some c := by
  simp [ofFields?, fields, Json.Fields.required, Json.Fields.get?, Json.uint32?_ofNat,
    Json.text?_ofString]

theorem ReturnValue.ofFields?_fields (r : ReturnValue) : ofFields? ⟨true, r.fields⟩ = some r := by
  simp [ofFields?, fields, Json.Fields.required, Json.Fields.optional, Json.Fields.get?,
    Json.uint32?_ofNat, Json.nullable?_text?]

theorem Loop.ofFields?_fields (read : Json → Option (List Iteration)) (id : UInt32)
    (iterations : Json) :
    ofFields? read ⟨true, [("id", .ofNat id.toNat), ("iterations", iterations)]⟩ =
      (read iterations).map fun is => ⟨id, is⟩ := by
  rw [Option.map_eq_bind, Function.comp_def]
  simp [ofFields?, Json.Fields.required, Json.Fields.get?, Json.uint32?_ofNat]

theorem Iteration.ofFields?_fields (read : Json → Option (List Operation)) (id : UInt32)
    (operations : Json) :
    ofFields? read ⟨true, [("id", .ofNat id.toNat), ("operations", operations)]⟩ =
      (read operations).map fun os => ⟨id, os⟩ := by
  rw [Option.map_eq_bind, Function.comp_def]
  simp [ofFields?, Json.Fields.required, Json.Fields.get?, Json.uint32?_ofNat]

theorem StateChange.ofJson?_toJson (levels : Nat) (c : StateChange) :
    ofJson? levels c.toJson = if c.toJson.depth ≤ levels then some c else none := by
  have hdepth : c.toJson.depth = 1 := rfl
  cases levels with
  | zero => rfl
  | succ levels =>
    have hfields := Json.fields?_fields fieldNames c.fields
      (by simp [Json.hasTwice, fieldNames, fields]) levels
    rw [hdepth, if_pos (by omega), ofJson?, toJson, hfields, Option.bind_some]
    exact ofFields?_fields c

theorem MethodCall.ofFields?_fields (read : Json → Option (List Operation)) (levels : Nat)
    (id : UInt32) (name : String) (arguments : List StateChange) (operations : Json) :
    ofFields? read levels ⟨true, [("id", .ofNat id.toNat), ("name", .ofString name),
        ("arguments", .array (arguments.map StateChange.toJson)), ("operations", operations)]⟩ =
      if Json.depth (.array (arguments.map StateChange.toJson)) ≤ levels then
        (read operations).map fun os => ⟨id, name, arguments, os⟩
      else none := by
  have hread := Json.list?_array StateChange.ofJson?_toJson levels arguments
  simp only [ofFields?, Json.Fields.required, Json.Fields.get?]
  simp [Json.uint32?_ofNat, Json.text?_ofString, hread]
  by_cases hdepth : Json.depth (.array (arguments.map StateChange.toJson)) ≤ levels
  · rw [Option.map_eq_bind, Function.comp_def]
    simp [hdepth]
  · simp [hdepth]

/-- An operation of a kind from its fields. -/
def Operation.ofFields? (levels : Nat) (f : Json.Fields) : Kind → Option Operation
  | .stateChange => (StateChange.ofFields? f).map .stateChange
  | .returnValue => (ReturnValue.ofFields? f).map .returnValue
  | .loop => (Loop.ofFields? (iterations? levels) f).map .loop
  | .methodCall => (MethodCall.ofFields? (innerOperations? levels) levels f).map .methodCall

theorem operation?_fields (inside : Bool) (k : Operation.Kind) (members : List (String × Json))
    (hkind : ∀ m ∈ members, (m.1 != "kind") = true)
    (htwice : Json.hasTwice k.fieldNames members = false) (levels : Nat) :
    operation? inside (levels + 1) (.fields (("kind", .ofString k.name) :: members)) =
      Operation.ofFields? levels ⟨true, members⟩ k := by
  rw [operation?, Operation.kindAndFields?_fields inside k hkind htwice levels]
  cases k <;> rfl

/-! ## Levels -/

theorem depth_operation_pos (o : Operation) : 0 < o.toJson.depth := by
  match o with
  | .stateChange _ | .returnValue _ | .loop ⟨_, _⟩ | .methodCall ⟨_, _, _, _⟩ =>
    simp [Operation.toJson, Json.fields, Json.depth]

theorem depth_loop (id : UInt32) (is : List Iteration) :
    (Operation.loop ⟨id, is⟩).toJson.depth = Json.depthOfItems (iterationsToJson is) + 2 := by
  have h : (Operation.loop ⟨id, is⟩).toJson.depth =
      max 0 (max 0 (max (Json.depthOfItems (iterationsToJson is) + 1) 0)) + 1 := rfl
  omega

theorem depth_iteration (id : UInt32) (os : List Operation) (is : List Iteration) :
    Json.depthOfItems (iterationsToJson (⟨id, os⟩ :: is)) =
      max (Json.depthOfItems (operationsToJson os) + 2)
        (Json.depthOfItems (iterationsToJson is)) := by
  have h : Json.depthOfItems (iterationsToJson (⟨id, os⟩ :: is)) =
      max (max 0 (max (Json.depthOfItems (operationsToJson os) + 1) 0) + 1)
        (Json.depthOfItems (iterationsToJson is)) := rfl
  omega

theorem depth_methodCall (id : UInt32) (name : String) (arguments : List StateChange)
    (os : List Operation) :
    (MethodCall.mk id name arguments os).toJson.depth =
      max (Json.depthOfItems (arguments.map StateChange.toJson))
        (Json.depthOfItems (operationsToJson os)) + 2 := by
  have h : (MethodCall.mk id name arguments os).toJson.depth =
      max 0 (max 0 (max (Json.depthOfItems (arguments.map StateChange.toJson) + 1)
        (max (Json.depthOfItems (operationsToJson os) + 1) 0))) + 1 := rfl
  omega

/-- The kind of a call adds no level to it. -/
theorem depth_operation_methodCall (m : MethodCall) :
    (Operation.methodCall m).toJson.depth = m.toJson.depth := by
  obtain ⟨id, name, arguments, os⟩ := m
  have h : (Operation.methodCall ⟨id, name, arguments, os⟩).toJson.depth =
      max 0 (max 0 (max 0 (max (Json.depthOfItems (arguments.map StateChange.toJson) + 1)
        (max (Json.depthOfItems (operationsToJson os) + 1) 0)))) + 1 := rfl
  rw [h, depth_methodCall]
  omega

/-! ## Trees -/

mutual

/-- An operation is read from what is written of it, if there are levels enough. -/
theorem operation?_toJson (o : Operation) (inside : Bool) {levels : Nat}
    (h : o.toJson.depth ≤ levels) : operation? inside levels o.toJson = some o := by
  obtain ⟨levels, rfl⟩ := Nat.exists_eq_add_one.mpr (Nat.lt_of_lt_of_le (depth_operation_pos o) h)
  match o with
  | .stateChange c =>
    have hread := operation?_fields inside .stateChange c.fields
      (by simp [StateChange.fields])
      (by simp [Json.hasTwice, Operation.Kind.fieldNames, StateChange.fieldNames,
        StateChange.fields]) levels
    refine hread.trans ?_
    rw [Operation.ofFields?, StateChange.ofFields?_fields, Option.map_some]
  | .returnValue r =>
    have hread := operation?_fields inside .returnValue r.fields
      (by simp [ReturnValue.fields])
      (by simp [Json.hasTwice, Operation.Kind.fieldNames, ReturnValue.fieldNames,
        ReturnValue.fields]) levels
    refine hread.trans ?_
    rw [Operation.ofFields?, ReturnValue.ofFields?_fields, Option.map_some]
  | .loop ⟨id, is⟩ =>
    rw [depth_loop] at h
    obtain ⟨levels, rfl⟩ := Nat.exists_eq_add_one.mpr (by omega : 0 < levels)
    have hread := operation?_fields inside .loop
      [("id", .ofNat id.toNat), ("iterations", .array (iterationsToJson is))]
      (by simp) (by simp [Json.hasTwice, Operation.Kind.fieldNames]) (levels + 1)
    refine hread.trans ?_
    rw [Operation.ofFields?, Loop.ofFields?_fields, iterations?,
      mapM_iteration? is (by omega)]
    rfl
  | .methodCall ⟨id, name, arguments, os⟩ =>
    rw [depth_operation_methodCall, depth_methodCall] at h
    obtain ⟨levels, rfl⟩ := Nat.exists_eq_add_one.mpr (by omega : 0 < levels)
    have hread := operation?_fields inside .methodCall
      [("id", .ofNat id.toNat), ("name", .ofString name),
        ("arguments", .array (arguments.map StateChange.toJson)),
        ("operations", .array (operationsToJson os))]
      (by simp) (by simp [Json.hasTwice, Operation.Kind.fieldNames]) (levels + 1)
    refine hread.trans ?_
    rw [Operation.ofFields?, MethodCall.ofFields?_fields, innerOperations?,
      mapM_operation? os (by omega), Json.depth, if_pos (by omega)]
    rfl

theorem mapM_operation? (os : List Operation) {levels : Nat}
    (h : Json.depthOfItems (operationsToJson os) ≤ levels) :
    (operationsToJson os).mapM (operation? true levels) = some os := by
  match os with
  | [] => rfl
  | o :: os =>
    rw [operationsToJson, Json.depthOfItems] at h
    have ho := operation?_toJson o true (Nat.le_trans (Nat.le_max_left _ _) h)
    have hos := mapM_operation? os (Nat.le_trans (Nat.le_max_right _ _) h)
    rw [operationsToJson, List.mapM_cons, ho, hos]
    rfl

theorem mapM_iteration? (is : List Iteration) {levels : Nat}
    (h : Json.depthOfItems (iterationsToJson is) ≤ levels) :
    (iterationsToJson is).mapM (iteration? levels) = some is := by
  match is with
  | [] => rfl
  | ⟨id, os⟩ :: is =>
    rw [depth_iteration] at h
    obtain ⟨levels, rfl⟩ := Nat.exists_eq_add_of_le' (by omega : 2 ≤ levels)
    have hfields := Json.fields?_fields ["id", "operations"]
      [("id", .ofNat id.toNat), ("operations", .array (operationsToJson os))]
      (by simp [Json.hasTwice]) (levels + 1)
    have hos := mapM_operation? os (by omega : Json.depthOfItems (operationsToJson os) ≤ levels)
    have hread : iteration? (levels + 2) (.fields [("id", .ofNat id.toNat),
        ("operations", .array (operationsToJson os))]) = some ⟨id, os⟩ := by
      rw [iteration?, hfields]
      dsimp only
      rw [Iteration.ofFields?_fields, innerOperations?, hos, Option.map_some]
    have his := mapM_iteration? is
      (by omega : Json.depthOfItems (iterationsToJson is) ≤ levels + 2)
    rw [iterationsToJson, List.mapM_cons, hread, his]
    rfl

end

theorem Operation.ofJson?_toJson (levels : Nat) (o : Operation) :
    ofJson? levels o.toJson = if o.toJson.depth ≤ levels then some o else none := by
  have hsound : o.toJson.isSound = true := (proper_operation o).2
  unfold ofJson? Json.isTakable
  rw [hsound, Bool.and_true]
  by_cases hdepth : o.toJson.depth ≤ levels
  · rw [if_pos (decide_eq_true hdepth), if_pos hdepth, operation?_toJson o false hdepth]
  · rw [if_neg (by simpa using hdepth), if_neg hdepth]

theorem operationsToJson_eq_map (os : List Operation) :
    operationsToJson os = os.map Operation.toJson := by
  induction os with
  | nil => rfl
  | cons o os ih => rw [operationsToJson, ih, List.map_cons]

theorem MethodCall.ofJson?_toJson (levels : Nat) (m : MethodCall) :
    ofJson? levels m.toJson = if m.toJson.depth ≤ levels then some m else none := by
  obtain ⟨id, name, arguments, os⟩ := m
  rw [depth_methodCall]
  cases levels with
  | zero => exact (if_neg (by omega)).symm
  | succ levels =>
    have hfields := Json.fields?_fields Operation.Kind.methodCall.fieldNames
      [("id", .ofNat id.toNat), ("name", .ofString name),
        ("arguments", .array (arguments.map StateChange.toJson)),
        ("operations", .array (operationsToJson os))]
      (by simp [Json.hasTwice, Operation.Kind.fieldNames]) levels
    have hos := Json.list?_array Operation.ofJson?_toJson levels os
    rw [← operationsToJson_eq_map] at hos
    rw [ofJson?, toJson, hfields]
    dsimp only
    rw [ofFields?_fields, hos, Json.depth, Json.depth]
    by_cases harguments : Json.depthOfItems (arguments.map StateChange.toJson) + 1 ≤ levels
    · by_cases hoperations : Json.depthOfItems (operationsToJson os) + 1 ≤ levels
      · rw [if_pos harguments, if_pos hoperations, if_pos (by omega), Option.map_some]
      · rw [if_pos harguments, if_neg hoperations, if_neg (by omega), Option.map_none]
    · rw [if_neg harguments, if_neg (by omega)]

/-! ## Traces -/

namespace Roots

theorem insert_of_lt {roots : Roots} {id : UInt32} (h : ∀ r ∈ roots, r.1 < id)
    (call : MethodCall) : roots.insert id call = roots ++ [(id, call)] := by
  induction roots with
  | nil => rfl
  | cons r rest ih =>
    obtain ⟨k, c⟩ := r
    have hlt : k < id := h (k, c) List.mem_cons_self
    have hne : id ≠ k := by
      rintro rfl
      exact UInt32.lt_irrefl _ hlt
    rw [insert, if_neg (UInt32.lt_asymm hlt), if_neg hne,
      ih fun r hr => h r (List.mem_cons_of_mem _ hr)]
    rfl

theorem rootId?_digits (id : UInt32) : rootId? (Number.digits id.toNat) = some id := by
  rw [rootId?, Json.isNumber_digits, if_pos rfl]
  exact Json.uint32?_ofNat id

/-- The members of a trace are read one by one, each behind those before it. -/
theorem go_members (levels : Nat) (roots read : Roots) (h : Ascending (read ++ roots)) :
    ofJson?.go levels read (roots.map fun r => (Number.digits r.1.toNat, r.2.toJson)) =
      if Json.depthOfMembers (roots.map fun r => (Number.digits r.1.toNat, r.2.toJson)) ≤ levels
      then some (read ++ roots) else none := by
  induction roots generalizing read with
  | nil => simp [ofJson?.go, Json.depthOfMembers]
  | cons r roots ih =>
    obtain ⟨id, call⟩ := r
    have hinsert : read.insert id call = read ++ [(id, call)] :=
      insert_of_lt (fun r hr => (List.pairwise_append.mp h).2.2 r hr _ List.mem_cons_self) call
    rw [List.append_cons] at h ⊢
    rw [List.map_cons, ofJson?.go, rootId?_digits, MethodCall.ofJson?_toJson, Json.depthOfMembers]
    by_cases hcall : call.toJson.depth ≤ levels
    · rw [if_pos hcall]
      dsimp only
      rw [hinsert, ih _ h]
      simp only [Nat.max_le, hcall, true_and]
    · rw [if_neg hcall, if_neg fun hmax => hcall (Nat.max_le.mp hmax).1]

theorem ofJson?_toJson (levels : Nat) {roots : Roots} (h : roots.Ascending) :
    ofJson? levels roots.toJson = if roots.toJson.depth ≤ levels then some roots else none := by
  rw [toJson, Json.depth]
  cases levels with
  | zero => exact (if_neg (by omega)).symm
  | succ levels =>
    rw [ofJson?, go_members levels roots [] h, List.nil_append]
    simp only [Nat.add_le_add_iff_right]

end Roots

/-- The JSON texts of a trace, of an operation and of a call are read as it, unless they nest too
deeply. -/
theorem readText?_toJson {roots : Roots} (h : roots.Ascending) (o : Operation) (m : MethodCall)
    {layout : Json → String} (hlayout : layout = Json.compactText ∨ layout = Json.prettyText) :
    Json.readText? Roots.ofJson? (layout roots.toJson) =
        (if Json.nesting (layout roots.toJson) ≤ 127 then some roots else none) ∧
      Json.readText? Operation.ofJson? (layout o.toJson) =
        (if Json.nesting (layout o.toJson) ≤ 127 then some o else none) ∧
      Json.readText? MethodCall.ofJson? (layout m.toJson) =
        if Json.nesting (layout m.toJson) ≤ 127 then some m else none := by
  obtain ⟨hroots, hrootsDepth⟩ := Json.readText?_layout Roots.ofJson? (proper_roots roots) hlayout
  obtain ⟨ho, hoDepth⟩ := Json.readText?_layout Operation.ofJson? (proper_operation o) hlayout
  obtain ⟨hm, hmDepth⟩ := Json.readText?_layout MethodCall.ofJson? (proper_methodCall m) hlayout
  rw [hroots, hrootsDepth, ho, hoDepth, hm, hmDepth]
  exact ⟨Roots.ofJson?_toJson _ h, Operation.ofJson?_toJson _ o, MethodCall.ofJson?_toJson _ m⟩

/-- A call with `count` calls inside each other. -/
def nestedCalls : Nat → MethodCall
  | 0 => ⟨0, "f", [], []⟩
  | count + 1 => ⟨0, "f", [], [.methodCall (nestedCalls count)]⟩

theorem depth_nestedCalls (count : Nat) : (nestedCalls count).toJson.depth = 2 * count + 2 := by
  induction count with
  | zero => rfl
  | succ count ih =>
    have hinner : Json.depthOfItems (operationsToJson [.methodCall (nestedCalls count)]) =
        max (Operation.methodCall (nestedCalls count)).toJson.depth 0 := rfl
    have harguments : Json.depthOfItems (List.map StateChange.toJson []) = 0 := rfl
    rw [nestedCalls, depth_methodCall, hinner, harguments, depth_operation_methodCall, ih]
    omega

/-- A trace that nests 127 levels is read back; a call that nests one more is not. -/
theorem readText?_toJson_at_limit :
    let roots : Roots := [(0, nestedCalls 62)]
    roots.Ascending ∧
      Json.readText? Roots.ofJson? (Json.prettyText roots.toJson) = some roots ∧
      Json.readText? MethodCall.ofJson? (Json.compactText (nestedCalls 63).toJson) = none := by
  intro roots
  have hascending : roots.Ascending := List.pairwise_singleton _ _
  refine ⟨hascending, ?_, ?_⟩
  · have hread := (readText?_toJson hascending (.returnValue ⟨0, none⟩) (nestedCalls 0)
      (.inr rfl)).1
    have hnesting := (Json.readText?_layout Roots.ofJson? (proper_roots roots) (.inr rfl)).2
    have hdepth : roots.toJson.depth = max (nestedCalls 62).toJson.depth 0 + 1 := rfl
    rw [hread, hnesting, hdepth, depth_nestedCalls]
    rfl
  · have hread := (readText?_toJson hascending (.returnValue ⟨0, none⟩) (nestedCalls 63)
      (.inl rfl)).2.2
    have hnesting := (Json.readText?_layout MethodCall.ofJson?
      (proper_methodCall (nestedCalls 63)) (.inl rfl)).2
    rw [hread, hnesting, depth_nestedCalls]
    rfl

end LiveTrace
