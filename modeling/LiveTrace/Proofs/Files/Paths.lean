import LiveTrace.Files.Tree
import LiveTrace.Workspace.RunId

/-
  Paths made of a directory and a name in it. The pieces of such a path are those that lead to
  the directory and then the name (`pieces_join`), and its last part is the name again
  (`fileName?_join`). Names found at the end of paths are of this kind (`isName_of_fileName?`),
  and so are run ids (`isName_ofIndex`), which can stand for each other where they are equally
  long (`interchangeable_ofIndex`).
-/
namespace LiveTrace

namespace Path

/-- A name that is one step of a path, and a step down. -/
structure IsName (name : String) : Prop where
  ne_empty : name.toList ≠ []
  no_slash : '/' ∉ name.toList
  ne_here : name.toList ≠ ['.']
  ne_up : name.toList ≠ ['.', '.']

/-! ## Pieces -/

theorem pieces_ne_nil (cs : List Char) : pieces cs ≠ [] := by
  cases cs with
  | nil => exact nofun
  | cons c cs =>
    unfold pieces
    split
    · exact nofun
    · split <;> exact nofun

theorem pieces_append_slash (xs ys : List Char) :
    pieces (xs ++ '/' :: ys) = pieces xs ++ pieces ys := by
  induction xs with
  | nil => simp [pieces]
  | cons c xs ih =>
    rw [List.cons_append, pieces, pieces, ih]
    split
    · rfl
    · obtain ⟨p, ps, hps⟩ := List.exists_cons_of_ne_nil (pieces_ne_nil xs)
      rw [hps]
      rfl

theorem pieces_of_no_slash {cs : List Char} (h : '/' ∉ cs) : pieces cs = [cs] := by
  induction cs with
  | nil => rfl
  | cons c cs ih =>
    obtain ⟨hc, hcs⟩ := not_or.mp (mt List.mem_cons.mpr h)
    have hne : (c == '/') = false := by simpa using Ne.symm hc
    rw [pieces, hne, ih hcs]
    rfl

theorem no_slash_of_mem_pieces {cs piece : List Char} (h : piece ∈ pieces cs) : '/' ∉ piece := by
  induction cs generalizing piece with
  | nil =>
    obtain rfl := List.mem_singleton.mp h
    exact List.not_mem_nil
  | cons c cs ih =>
    obtain ⟨p, ps, hps⟩ := List.exists_cons_of_ne_nil (pieces_ne_nil cs)
    rw [pieces, hps] at h
    rw [hps] at ih
    split at h
    · rcases List.mem_cons.mp h with rfl | h
      · exact List.not_mem_nil
      · exact ih h
    · rename_i hc
      rcases List.mem_cons.mp h with rfl | h
      · rintro hmem
        rcases List.mem_cons.mp hmem with heq | hmem
        · exact hc (beq_iff_eq.mpr heq.symm)
        · exact ih List.mem_cons_self hmem
      · exact ih (List.mem_cons_of_mem p h)

/-! ## A name in a directory -/

/-- What stands before a name in the path of the name in a directory. -/
def lead (base : String) : String :=
  if base.isEmpty then "" else if base.toList.getLast? == some '/' then base else base ++ "/"

/-- The pieces that lead to a directory. -/
def above (base : String) : List (List Char) := (pieces (lead base).toList).dropLast

theorem IsName.not_isAbsolute {name : String} (h : IsName name) : isAbsolute name = false := by
  unfold isAbsolute
  cases hcs : name.toList with
  | nil => rfl
  | cons c cs =>
    have hc : c ≠ '/' := fun heq => h.no_slash (by simp [hcs, heq])
    simpa using hc

theorem IsName.join_eq {name : String} (h : IsName name) (base : String) :
    join base name = lead base ++ name := by
  unfold join lead
  rw [h.not_isAbsolute, Bool.false_or]
  split
  · simp
  · split <;> rfl

theorem lead_eq (base : String) :
    (lead base).toList = [] ∨ ∃ cs, (lead base).toList = cs ++ ['/'] := by
  unfold lead
  split
  · exact .inl rfl
  · split
    · rename_i hlast
      exact .inr ((List.getLast?_eq_some_iff).mp (by simpa using hlast))
    · exact .inr ⟨base.toList, String.toList_append⟩

theorem pieces_lead_append (base : String) {cs : List Char} (h : '/' ∉ cs) :
    pieces ((lead base).toList ++ cs) = above base ++ [cs] := by
  unfold above
  rcases lead_eq base with hlead | ⟨ds, hlead⟩
  · rw [hlead]
    exact pieces_of_no_slash h
  · rw [hlead, List.append_assoc, List.singleton_append, pieces_append_slash,
      pieces_of_no_slash h, pieces_append_slash]
    exact congrArg (· ++ [cs]) List.dropLast_concat.symm

theorem IsName.pieces_join {name : String} (h : IsName name) (base : String) :
    pieces (join base name).toList = above base ++ [name.toList] := by
  rw [h.join_eq, String.toList_append]
  exact pieces_lead_append base h.no_slash

theorem IsName.lead_join {name : String} (h : IsName name) (base : String) :
    lead (join base name) = join base name ++ "/" := by
  have hlast : (join base name).toList.getLast? = name.toList.getLast? := by
    rw [h.join_eq, String.toList_append, List.getLast?_append,
      List.getLast?_eq_some_getLast h.ne_empty, Option.some_or]
  have hslash : ((join base name).toList.getLast? == some '/') = false := by
    rw [hlast]
    have hmem : name.toList.getLast? ≠ some '/' := fun heq =>
      h.no_slash (List.mem_of_getLast? heq)
    simpa using hmem
  have hempty : (join base name).isEmpty = false := by
    rw [String.isEmpty_eq_false_iff, h.join_eq, ne_eq, ← String.toList_eq_nil_iff,
      String.toList_append, List.append_eq_nil_iff]
    exact fun hnil => h.ne_empty hnil.2
  unfold lead
  rw [hempty, hslash]
  rfl

/-- The pieces of a path lead to the directory it names. -/
theorem pieces_eq_above {base : String} (h : base ≠ "") :
    pieces base.toList = above base ∨ pieces base.toList = above base ++ [[]] := by
  have hempty : base.isEmpty = false := String.isEmpty_eq_false_iff.mpr h
  unfold above lead
  rw [hempty]
  by_cases hslash : base.toList.getLast? = some '/'
  · obtain ⟨cs, hcs⟩ := List.getLast?_eq_some_iff.mp hslash
    right
    simp only [Bool.false_eq_true, if_false, hslash, beq_self_eq_true, if_true]
    rw [hcs, pieces_append_slash]
    exact (List.dropLast_concat ▸ rfl)
  · left
    have hne : (base.toList.getLast? == some '/') = false := by simpa using hslash
    simp only [hne, Bool.false_eq_true, if_false]
    rw [String.toList_append, show "/".toList = ['/'] from rfl, pieces_append_slash]
    exact List.dropLast_concat.symm

theorem IsName.isAbsolute_join {name : String} (h : IsName name) (base : String) :
    isAbsolute (join base name) = isAbsolute base := by
  rw [h.join_eq]
  unfold lead
  by_cases hempty : base = ""
  · subst hempty
    exact (congrArg isAbsolute String.empty_append).trans h.not_isAbsolute
  · have hcons : base.toList ≠ [] := mt String.toList_eq_nil_iff.mp hempty
    rw [String.isEmpty_eq_false_iff.mpr hempty]
    obtain ⟨c, cs, hcs⟩ := List.exists_cons_of_ne_nil hcons
    unfold isAbsolute
    simp only [Bool.false_eq_true, if_false]
    split <;> simp [String.toList_append, hcs]

/-! ## The name at the end of a path -/

theorem IsName.ofPiece? {name : String} (h : IsName name) :
    Part.ofPiece? name.toList = some (.name name) := by
  unfold Part.ofPiece?
  simp [h.ne_empty, h.ne_here, h.ne_up, String.ofList_toList]

theorem parts_eq (path : String) :
    ∃ first, (∀ n, Part.name n ∉ first) ∧
      parts path = first ++ (pieces path.toList).filterMap Part.ofPiece? := by
  unfold parts
  dsimp only
  split
  · exact ⟨[.root], by simp, rfl⟩
  · exact ⟨[.here], by simp, rfl⟩
  · exact ⟨[], by simp, rfl⟩

theorem pieces_eq_singleton_nil {cs : List Char} (h : pieces cs = [[]]) : cs = [] := by
  cases cs with
  | nil => rfl
  | cons c cs =>
    obtain ⟨p, ps, hps⟩ := List.exists_cons_of_ne_nil (pieces_ne_nil cs)
    rw [pieces, hps] at h
    split at h <;> exact nomatch h

theorem parts_ne_nil {path : String} (h : path ≠ "") : parts path ≠ [] := by
  have hcs : path.toList ≠ [] := mt String.toList_eq_nil_iff.mp h
  unfold parts
  dsimp only
  split
  · exact nofun
  · exact nofun
  · -- The first piece is a part.
    rename_i hroot hhere
    obtain ⟨p, ps, hps⟩ := List.exists_cons_of_ne_nil (pieces_ne_nil path.toList)
    have hne : p ≠ [] := by
      rintro rfl
      cases ps with
      | nil => exact hcs (pieces_eq_singleton_nil hps)
      | cons q ps => exact hroot q ps hps
    have hdown : p ≠ ['.'] := fun heq => hhere ps (heq ▸ hps)
    have hpart : Part.ofPiece? p ≠ none := by
      unfold Part.ofPiece?
      simp only [beq_iff_eq, hne, hdown, Bool.or_eq_true, or_self, if_false]
      split <;> exact nofun
    obtain ⟨part, hpart⟩ := Option.ne_none_iff_exists'.mp hpart
    rw [hps, List.filterMap_cons, hpart]
    exact nofun

theorem IsName.fileName?_join {name : String} (h : IsName name) (base : String) :
    fileName? (join base name) = some name := by
  obtain ⟨first, -, hparts⟩ := parts_eq (join base name)
  unfold fileName?
  rw [hparts, h.pieces_join, List.filterMap_append]
  simp [h.ofPiece?]

theorem isName_of_fileName? {path name : String} (h : fileName? path = some name) :
    IsName name := by
  obtain ⟨first, hfirst, hparts⟩ := parts_eq path
  unfold fileName? at h
  have hlast : Part.name name ∈ parts path := by
    split at h
    · rename_i n hn
      exact Option.some.inj h ▸ List.mem_of_getLast? hn
    · contradiction
  rw [hparts] at hlast
  rcases List.mem_append.mp hlast with hmem | hmem
  · exact absurd hmem (hfirst name)
  · obtain ⟨piece, hpiece, hof⟩ := List.mem_filterMap.mp hmem
    unfold Part.ofPiece? at hof
    split at hof
    · contradiction
    · split at hof
      · exact nomatch Option.some.inj hof
      · rename_i hdown hup
        obtain rfl := Part.name.inj (Option.some.inj hof)
        simp only [Bool.or_eq_true, beq_iff_eq, not_or] at hdown hup
        refine ⟨?_, ?_, ?_, ?_⟩ <;> rw [String.toList_ofList]
        · exact hdown.1
        · exact no_slash_of_mem_pieces hpiece
        · exact hdown.2
        · exact hup

/-! ## Names that can stand for each other -/

/-- Names of which a path can have the one in place of the other and be a path as well. -/
structure Interchangeable (a b : String) : Prop where
  left : IsName a
  right : IsName b
  nul : b.toList.contains '\x00' = a.toList.contains '\x00'
  size : b.utf8ByteSize = a.utf8ByteSize

theorem Interchangeable.join {a b : String} (h : Interchangeable a b) (base : String) :
    (join base b).toList.contains '\x00' = (join base a).toList.contains '\x00' ∧
      (join base b).utf8ByteSize = (join base a).utf8ByteSize := by
  rw [h.left.join_eq, h.right.join_eq]
  simp only [String.toList_append, List.contains_append, String.utf8ByteSize_append, h.nul, h.size,
    and_self]

theorem Interchangeable.join_join {a b : String} (h : Interchangeable a b) (base : String)
    {name : String} (hn : IsName name) :
    (Path.join (Path.join base b) name).toList.contains '\x00' =
        (Path.join (Path.join base a) name).toList.contains '\x00' ∧
      (Path.join (Path.join base b) name).utf8ByteSize =
        (Path.join (Path.join base a) name).utf8ByteSize := by
  obtain ⟨hnul, hsize⟩ := h.join base
  rw [hn.join_eq, hn.join_eq, h.left.lead_join, h.right.lead_join]
  simp only [String.toList_append, List.contains_append, String.utf8ByteSize_append, hnul, hsize,
    and_self]

end Path

/-! ## Run ids -/

theorem Number.notMem_hexDigits {c : Char} (hc : ∀ d < 16, Nat.digitChar d ≠ c) (n : Nat) :
    c ∉ hexDigits n := by
  induction n using Nat.strongRecOn with
  | ind n ih =>
    unfold hexDigits at ih ⊢
    by_cases hn : n < 16
    · rw [Nat.toDigits_of_lt_base hn]
      exact fun hmem => hc n hn (List.mem_singleton.mp hmem).symm
    · rw [Nat.toDigits_of_base_le (by decide) (Nat.not_lt.mp hn), List.mem_append, not_or]
      refine ⟨ih (n / 16) (by omega), ?_⟩
      exact fun hmem => hc (n % 16) (Nat.mod_lt n (by decide)) (List.mem_singleton.mp hmem).symm

namespace RunId

theorem toList_ofIndex (n : Nat) : (ofIndex n).toList = stem.toList ++ Number.hexPadded 12 n := by
  unfold ofIndex
  rw [String.toList_append, String.toList_ofList]

/-- A run id has no characters but digits and those of its stem. -/
theorem notMem_ofIndex {c : Char} (hstem : c ∉ stem.toList) (hc : ∀ d < 16, Nat.digitChar d ≠ c)
    (n : Nat) : c ∉ (ofIndex n).toList := by
  rw [toList_ofIndex, List.mem_append, not_or]
  refine ⟨hstem, ?_⟩
  unfold Number.hexPadded
  dsimp only
  rw [List.mem_append, not_or]
  exact ⟨fun hmem => hc 0 (by decide) (List.mem_replicate.mp hmem).2.symm,
    Number.notMem_hexDigits hc n⟩

theorem length_ofIndex (n : Nat) : 24 ≤ (ofIndex n).toList.length := by
  rw [toList_ofIndex, List.length_append, show stem.toList.length = 24 from rfl]
  exact Nat.le_add_right _ _

theorem isName_ofIndex (n : Nat) : Path.IsName (ofIndex n) := by
  have hlength := length_ofIndex n
  refine ⟨fun heq => ?_, notMem_ofIndex (by decide) (by decide) n, fun heq => ?_, fun heq => ?_⟩ <;>
    exact absurd (heq ▸ hlength) (by decide)

theorem interchangeable_ofIndex {m n : Nat}
    (h : (ofIndex n).utf8ByteSize = (ofIndex m).utf8ByteSize) :
    Path.Interchangeable (ofIndex m) (ofIndex n) := by
  have hnul (i : Nat) : (ofIndex i).toList.contains '\x00' = false := by
    simpa using notMem_ofIndex (c := '\x00') (by decide) (by decide) i
  exact ⟨isName_ofIndex m, isName_ofIndex n, (hnul n).trans (hnul m).symm, h⟩

end RunId

end LiveTrace
