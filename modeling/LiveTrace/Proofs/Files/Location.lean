import LiveTrace.Proofs.Files.Tree

/-
  Where paths lead in a tree without links. The parts of a path are followed from a place, `..` up
  to the directory above and a name down (`resolve`), and what a path finds is at the place that it
  leads to (`locate_eq_resolve`). Parts without a root lead some levels up and then down by names
  (`Heading`), wherever they are followed from (`foldl_follow`). A path that begins with the parts
  of a directory is therefore in the directory exactly when it comes back by the names that it went
  up by (`below_iff_of_startsWith`), and surely when it does not go up.
-/
namespace LiveTrace

namespace Path

/-- The place that a part leads to. -/
def Part.follow (p : Place) : Part → Place
  | root => []
  | here => p
  | up => p.dropLast
  | name n => p ++ [n]

/-- The place that a path leads to from the working directory `cwd`, with every `.` and `..`
resolved. -/
def resolve (cwd : Place) (path : String) : Place := (parts path).foldl Part.follow cwd

/-! ## Parts without a root -/

/-- A way up and then down. -/
structure Heading where
  up : Nat := 0
  down : Place := []

/-- The way that a part adds to. -/
def Heading.add (h : Heading) : Part → Heading
  | .root | .here => h
  | .up => if h.down = [] then { h with up := h.up + 1 } else { h with down := h.down.dropLast }
  | .name n => { h with down := h.down ++ [n] }

/-- The way that parts lead. -/
def heading (ps : List Part) : Heading := ps.foldl Heading.add {}

/-- The place that a way leads to. -/
def Heading.place (h : Heading) (p : Place) : Place := p.take (p.length - h.up) ++ h.down

theorem Heading.place_add {part : Part} (hpart : part ≠ .root) (h : Heading) (p : Place) :
    (h.add part).place p = part.follow (h.place p) := by
  cases part with
  | root => contradiction
  | here => rfl
  | up =>
    simp only [Heading.add, Heading.place, Part.follow]
    split
    · rename_i hdown
      have hlen : min (p.length - h.up - 1) (p.length - h.up) = p.length - (h.up + 1) := by omega
      have hmin : min (p.length - h.up) p.length = p.length - h.up := by omega
      rw [hdown, List.append_nil, List.append_nil, List.dropLast_eq_take, List.take_take,
        List.length_take, hmin, hlen]
    · rename_i hdown
      exact (List.dropLast_append_of_ne_nil hdown).symm
  | name n => exact (List.append_assoc _ _ _).symm

/-- Parts without a root lead the same way from everywhere. -/
theorem foldl_follow {ps : List Part} (hps : .root ∉ ps) (p : Place) :
    ps.foldl Part.follow p = (heading ps).place p := by
  have hgo (h : Heading) : ps.foldl Part.follow (h.place p) = (ps.foldl Heading.add h).place p := by
    induction ps generalizing h with
    | nil => rfl
    | cons part ps ih =>
      rw [List.mem_cons, not_or] at hps
      rw [List.foldl_cons, List.foldl_cons, ← ih hps.2, h.place_add (Ne.symm hps.1)]
  have hstart : Heading.place {} p = p := by
    unfold Heading.place
    rw [Nat.sub_zero, List.take_length, List.append_nil]
  rw [← hstart, hgo, hstart]
  rfl

/-- A way from a place goes down by the names that it went up by. -/
def Heading.Returns (h : Heading) (p : Place) : Prop := p.drop (p.length - h.up) <+: h.down

/-- Only ways that return lead below their start. -/
theorem Heading.prefix_place_iff (h : Heading) (p : Place) : p <+: h.place p ↔ h.Returns p := by
  have hsplit := List.take_append_drop (p.length - h.up) p
  calc p <+: h.place p
    _ ↔ p.take (p.length - h.up) ++ p.drop (p.length - h.up) <+:
          p.take (p.length - h.up) ++ h.down := by rw [hsplit, Heading.place]
    _ ↔ p.drop (p.length - h.up) <+: h.down := List.prefix_append_right_inj _

/-! ## Parts of a path -/

theorem isAbsolute_iff (path : String) :
    isAbsolute path = true ↔ ∃ piece ps, pieces path.toList = [] :: piece :: ps := by
  unfold isAbsolute
  cases path.toList with
  | nil => simp [pieces]
  | cons c cs =>
    obtain ⟨piece, ps, hps⟩ := List.exists_cons_of_ne_nil (pieces_ne_nil cs)
    by_cases hc : c = '/' <;> simp [pieces, hps, hc]

/-- The first part of an absolute path is the root. What else stands before the parts that the
pieces are leads nowhere. -/
theorem parts_cases (path : String) :
    let ps := (pieces path.toList).filterMap Part.ofPiece?
    isAbsolute path = true ∧ parts path = .root :: ps ∨
      isAbsolute path = false ∧ (parts path = .here :: ps ∨ parts path = ps) := by
  have habsolute := isAbsolute_iff path
  unfold parts
  dsimp only
  split
  · rename_i piece ps hps
    exact .inl ⟨habsolute.mpr ⟨piece, ps, hps⟩, rfl⟩
  · rename_i ps hps
    exact .inr ⟨by simpa [hps] using habsolute, .inl rfl⟩
  · rename_i hroot _
    refine .inr ⟨?_, .inr rfl⟩
    rw [Bool.eq_false_iff, ne_eq, habsolute]
    exact fun ⟨piece, ps, hps⟩ => hroot piece ps hps

theorem root_notMem_ofPiece? (ps : List (List Char)) : .root ∉ ps.filterMap Part.ofPiece? := by
  intro hmem
  obtain ⟨piece, -, hpiece⟩ := List.mem_filterMap.mp hmem
  unfold Part.ofPiece? at hpiece
  split at hpiece
  · contradiction
  · split at hpiece <;> exact nomatch Option.some.inj hpiece

theorem resolve_eq (cwd : Place) (path : String) :
    resolve cwd path = ((pieces path.toList).filterMap Part.ofPiece?).foldl Part.follow
      (if isAbsolute path then [] else cwd) := by
  unfold resolve
  rcases parts_cases path with ⟨habsolute, hparts⟩ | ⟨habsolute, hparts | hparts⟩ <;>
    rw [habsolute, hparts] <;> rfl

/-- Only the first part of a path can be the root. -/
theorem root_notMem_of_startsWith {dir path : String} (hdir : dir ≠ "") {rest : List Part}
    (h : parts path = parts dir ++ rest) : .root ∉ rest := by
  obtain ⟨first, others, hfirst⟩ := List.exists_cons_of_ne_nil (parts_ne_nil hdir)
  have hroot := root_notMem_ofPiece? (pieces path.toList)
  rw [hfirst, List.cons_append] at h
  intro hmem
  have hothers : .root ∈ others ++ rest := List.mem_append_right _ hmem
  rcases parts_cases path with ⟨-, hparts⟩ | ⟨-, hparts | hparts⟩
  · exact hroot ((List.cons.inj (h.symm.trans hparts)).2 ▸ hothers)
  · exact hroot ((List.cons.inj (h.symm.trans hparts)).2 ▸ hothers)
  · exact hroot (hparts ▸ h ▸ List.mem_cons_of_mem _ hothers)

/-! ## Paths that begin with a directory -/

/-- The way from a directory that a path takes which begins with its parts. -/
def wayFrom (dir path : String) : Heading := heading ((parts path).drop (parts dir).length)

/-- Such a path leads where its way leads from the directory. -/
theorem resolve_of_startsWith {dir path : String} (hdir : dir ≠ "")
    (h : startsWith path dir = true) (cwd : Place) :
    resolve cwd path = (wayFrom dir path).place (resolve cwd dir) := by
  obtain ⟨rest, hrest⟩ := List.isPrefixOf_iff_prefix.mp h
  have hway : wayFrom dir path = heading rest := by
    unfold wayFrom
    rw [← hrest, List.drop_left]
  rw [hway, ← foldl_follow (root_notMem_of_startsWith hdir hrest.symm)]
  unfold resolve
  rw [← hrest, List.foldl_append]

/-- A path that begins with the parts of a directory is in it exactly when it returns to it. -/
theorem below_iff_of_startsWith {dir path : String} (hdir : dir ≠ "")
    (h : startsWith path dir = true) (cwd : Place) :
    resolve cwd dir <+: resolve cwd path ↔ (wayFrom dir path).Returns (resolve cwd dir) := by
  rw [resolve_of_startsWith hdir h, Heading.prefix_place_iff]

theorem below_of_startsWith {dir path : String} (hdir : dir ≠ "") (h : startsWith path dir = true)
    (hstays : (wayFrom dir path).up = 0) (cwd : Place) : resolve cwd dir <+: resolve cwd path := by
  rw [below_iff_of_startsWith hdir h, Heading.Returns, hstays, Nat.sub_zero, List.drop_length]
  exact List.nil_prefix

end Path

/-! ## What a path finds -/

namespace Files

variable {f : Files} {p q : Place}

theorem stride_eq_follow {piece : List Char} (h : f.stride p piece = .ok q) :
    q = (Path.Part.ofPiece? piece).toList.foldl Path.Part.follow p := by
  unfold stride at h
  unfold Path.Part.ofPiece?
  split at h
  · contradiction
  · split at h
    · rename_i hstay
      rw [if_pos hstay]
      exact (Except.ok.inj h).symm
    · rename_i hstay
      rw [if_neg hstay]
      split at h
      · rename_i hup
        rw [if_pos hup]
        exact (Except.ok.inj h).symm
      · rename_i hup
        rw [if_neg hup]
        split at h
        · contradiction
        · split at h
          · exact (Except.ok.inj h).symm
          · contradiction

theorem walk_eq_follow {ps : List (List Char)} (h : f.walk p ps = .ok q) :
    q = (ps.filterMap Path.Part.ofPiece?).foldl Path.Part.follow p := by
  induction ps generalizing p with
  | nil => exact (Except.ok.inj h).symm
  | cons piece ps ih =>
    rw [walk_cons] at h
    cases hstride : f.stride p piece with
    | error e =>
      rw [hstride] at h
      contradiction
    | ok next =>
      rw [hstride] at h
      rw [ih h, stride_eq_follow hstride, List.filterMap_cons]
      cases Path.Part.ofPiece? piece <;> rfl

/-- What a path finds is at the place it leads to. -/
theorem locate_eq_resolve {path : String} (h : f.locate path = .ok q) :
    q = Path.resolve f.workingDir path := by
  unfold locate at h
  split at h
  · contradiction
  · rw [Path.resolve_eq]
    exact walk_eq_follow h

theorem exists_locate_of_pathExists {path : String} (h : f.pathExists path = true) :
    ∃ q, f.locate path = .ok q := by
  unfold pathExists lookup at h
  cases hl : f.locate path with
  | error e =>
    rw [hl] at h
    contradiction
  | ok q => exact ⟨q, rfl⟩

end Files

end LiveTrace
