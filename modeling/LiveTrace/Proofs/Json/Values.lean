import LiveTrace.Proofs.Json.Layouts
import LiveTrace.Proofs.Json.Numbers

/-
  Values that are written to be read. `Proper`: such a value can be written, and be taken before
  its shape is known. Its texts are read as the value is (`readText?_layout`); the fields of an
  object are read as they were given (`fields?_fields`), and a list item by item, if there are
  levels enough for all of it (`list?_array`).
-/
namespace LiveTrace.Json

/-! ## Values that can be written -/

/-- A value that can be written, and taken before its shape is known. -/
def Proper (v : Json) : Prop := (∀ t ∈ v.tokens, t.Writable) ∧ v.isSound = true

theorem proper_null : Proper .null := ⟨by simp [tokens, Token.Writable], rfl⟩

theorem proper_ofString (s : String) : Proper (ofString s) := by
  refine ⟨fun t ht => ?_, ?_⟩
  · rw [List.mem_singleton.mp ht]
    exact isRaw_escape s.toList
  · simp [ofString, isSound, unescape?_escape]

theorem proper_ofNat (n : UInt32) : Proper (ofNat n.toNat) := by
  refine ⟨fun t ht => ?_, isFinite_digits n.toNat_lt⟩
  rw [List.mem_singleton.mp ht]
  exact ⟨isNumber_digits _, fun c hc => isWordChar_of_mem_digits hc⟩

theorem proper_array {items : List Json} (h : ∀ v ∈ items, Proper v) : Proper (.array items) := by
  have hitems : (∀ t ∈ itemTokens items, t.Writable) ∧ allSound items = true := by
    induction items with
    | nil => exact ⟨List.forall_mem_singleton.mpr trivial, rfl⟩
    | cons v rest ih =>
      obtain ⟨hv, hsound⟩ := h v List.mem_cons_self
      obtain ⟨hrest, hall⟩ := ih fun w hw => h w (List.mem_cons_of_mem _ hw)
      refine ⟨?_, by rw [allSound, hsound, hall, Bool.and_self]⟩
      cases rest with
      | nil => exact List.forall_mem_append.mpr ⟨hv, List.forall_mem_singleton.mpr trivial⟩
      | cons w rest =>
        exact List.forall_mem_append.mpr ⟨hv, List.forall_mem_cons.mpr ⟨trivial, hrest⟩⟩
  exact ⟨List.forall_mem_cons.mpr ⟨trivial, hitems.1⟩, hitems.2⟩

theorem proper_object {members : List (List Char × Json)}
    (h : ∀ m ∈ members, IsRaw m.1 ∧ (unescape? m.1).isSome ∧ Proper m.2) :
    Proper (.object members) := by
  have hmembers : (∀ t ∈ memberTokens members, t.Writable) ∧ allMembersSound members = true := by
    induction members with
    | nil => exact ⟨List.forall_mem_singleton.mpr trivial, rfl⟩
    | cons m rest ih =>
      obtain ⟨k, v⟩ := m
      obtain ⟨hk, hsome, hv, hsound⟩ := h (k, v) List.mem_cons_self
      obtain ⟨hrest, hall⟩ := ih fun m hm => h m (List.mem_cons_of_mem _ hm)
      have hkey : ∀ t ∈ Token.string k :: .colon :: v.tokens, t.Writable :=
        List.forall_mem_cons.mpr ⟨hk, List.forall_mem_cons.mpr ⟨trivial, hv⟩⟩
      refine ⟨?_, by rw [allMembersSound, hsome, hsound, hall]; rfl⟩
      cases rest with
      | nil => exact List.forall_mem_append.mpr ⟨hkey, List.forall_mem_singleton.mpr trivial⟩
      | cons m rest =>
        exact List.forall_mem_append.mpr ⟨hkey, List.forall_mem_cons.mpr ⟨trivial, hrest⟩⟩
  exact ⟨List.forall_mem_cons.mpr ⟨trivial, hmembers.1⟩, hmembers.2⟩

theorem proper_fields {members : List (String × Json)} (h : ∀ m ∈ members, Proper m.2) :
    Proper (fields members) := by
  refine proper_object fun m hm => ?_
  obtain ⟨m, hmem, rfl⟩ := List.mem_map.mp hm
  exact ⟨isRaw_escape _, by rw [unescape?_escape]; rfl, h m hmem⟩

/-- Digits stand for themselves inside quotes. -/
theorem escape_digits (n : Nat) : escape (Number.digits n) = Number.digits n := by
  have hdigit : ∀ c ∈ Number.digits n, escapeChar c = [c] := by
    intro c hc
    have hne {d : Char} (hd : isDigit d = false) : c ≠ d := ne_of_mem_digits hc hd
    have hcontrol : ¬c.toNat < 0x20 := by
      have hrange : '0'.toNat ≤ c.toNat := (Number.range_of_mem_digits hc).1
      have hzero : '0'.toNat = 48 := by decide
      omega
    simp [escapeChar, hcontrol, hne (d := '"') (by decide), hne (d := '\\') (by decide),
      hne (d := '\x08') (by decide), hne (d := '\x0c') (by decide), hne (d := '\n') (by decide),
      hne (d := '\r') (by decide), hne (d := '\t') (by decide)]
  rw [escape, List.flatMap_def, List.map_congr_left hdigit, ← List.flatMap_def,
    List.flatMap_singleton']

/-- The digits of a number as the key of a member. -/
theorem digits_key (n : Nat) :
    IsRaw (Number.digits n) ∧ (unescape? (Number.digits n)).isSome := by
  rw [← escape_digits, unescape?_escape]
  exact ⟨isRaw_escape _, rfl⟩

/-! ## Values that are read -/

theorem text?_ofString (s : String) : text? (ofString s) = some s := by
  simp [text?, ofString, unescape?_escape]

theorem nullable?_text? (value : Option String) :
    nullable? text? ((value.map ofString).getD .null) = some value := by
  cases value with
  | none => rfl
  | some s =>
    have htext : nullable? text? (ofString s) = (text? (ofString s)).map some := rfl
    rw [Option.map_some, Option.getD_some, htext, text?_ofString, Option.map_some]

/-- A text of a value is read as the value is. -/
theorem readText?_layout {α : Type} (read : Nat → Json → Option α) {v : Json} (hv : v.Proper)
    {layout : Json → String} (hlayout : layout = compactText ∨ layout = prettyText) :
    readText? read (layout v) = read maxLevels v ∧ nesting (layout v) = v.depth := by
  obtain ⟨cs, htext, hspelled⟩ := spelled_layout hv.1 hlayout
  rw [htext]
  refine ⟨?_, nesting_of_spelled hspelled⟩
  rw [readText?, String.toList_ofList, parse?_of_spelled hspelled, Option.bind_some]

theorem mapM_map {α β : Type} {f : α → β} {g : β → Option α} {as : List α}
    (h : ∀ a ∈ as, g (f a) = some a) : (as.map f).mapM g = some as := by
  induction as with
  | nil => rfl
  | cons a as ih =>
    have hrest := ih fun b hb => h b (List.mem_cons_of_mem _ hb)
    simp [h a List.mem_cons_self, hrest]

theorem members?_fields (members : List (String × Json)) :
    members? (members.map fun m => (escape m.1.toList, m.2)) = some members := by
  refine mapM_map fun m _ => ?_
  simp [unescape?_escape]

/-- The fields of an object are read as they were given, if none is there twice. -/
theorem fields?_fields (names : List String) (members : List (String × Json))
    (h : hasTwice names members = false) (levels : Nat) :
    fields? names (levels + 1) (fields members) = some (levels, ⟨true, members⟩) := by
  simp [fields?, fields, namedFields?, members?_fields, h]

/-- A list is read item by item, if there are levels enough for all of it. -/
theorem list?_array {α : Type} {read : Nat → Json → Option α} {write : α → Json}
    (hread : ∀ levels a, read levels (write a) =
      if (write a).depth ≤ levels then some a else none) (levels : Nat) (as : List α) :
    list? read levels (.array (as.map write)) =
      if depth (.array (as.map write)) ≤ levels then some as else none := by
  have hitems (levels : Nat) : (as.map write).mapM (read levels) =
      if depthOfItems (as.map write) ≤ levels then some as else none := by
    induction as with
    | nil => rfl
    | cons a as ih =>
      rw [List.map_cons, List.mapM_cons, hread, ih, depthOfItems]
      by_cases ha : (write a).depth ≤ levels
      · by_cases has : depthOfItems (as.map write) ≤ levels
        · rw [if_pos ha, if_pos has, if_pos (Nat.max_le.mpr ⟨ha, has⟩)]
          rfl
        · rw [if_pos ha, if_neg has, if_neg fun h => has (Nat.max_le.mp h).2]
          rfl
      · rw [if_neg ha, if_neg fun h => ha (Nat.max_le.mp h).1]
        rfl
  cases levels with
  | zero => exact (if_neg (Nat.not_succ_le_zero _)).symm
  | succ levels =>
    rw [list?, hitems, depth]
    simp only [Nat.add_le_add_iff_right]

end LiveTrace.Json
