import LiveTrace.Proofs.Files.Paths

/-
  What operations on files do to a tree, times aside. The contents of a tree are its entries
  without times; walks and lookups depend on nothing else (`walk_eq_of_shape`), and what is found
  is still found in a tree that has grown (`Grows.walk`). Making directories adds to the
  contents (`makeDirAll_onlyMakes`), writing into a directory changes nothing outside of it
  (`write_tended`), and removing it leaves just what is outside (`contents_removeAt`).
-/
namespace LiveTrace

namespace Files

/-- The entries without their times. -/
def contents (f : Files) : List (Place × Entry) :=
  f.entries.map fun x => (x.1, x.2.withModified 0)

/-- What stands at a place, whenever it changed. -/
def shape? (f : Files) (p : Place) : Option Entry := (f.entry? p).map (Entry.withModified 0)

/-! ## Shapes -/

theorem shape?_eq_find? (f : Files) {p : Place} (hp : p ≠ []) :
    f.shape? p = (f.contents.find? (·.1 = p)).map (·.2) := by
  unfold shape? entry? contents
  rw [if_neg hp, List.find?_map, Option.map_map, Option.map_map]
  rfl

theorem shape?_of_contents {f g : Files} (h : g.contents = f.contents) (p : Place) :
    g.shape? p = f.shape? p := by
  by_cases hp : p = []
  · subst hp
    rfl
  · rw [shape?_eq_find? g hp, shape?_eq_find? f hp, h]

/-- What stood at a place before anything was added still stands there. -/
theorem shape?_of_contents_append {f g : Files} {added : List (Place × Entry)}
    (h : g.contents = f.contents ++ added) {p : Place} {e : Entry} (hp : f.shape? p = some e) :
    g.shape? p = some e := by
  by_cases hroot : p = []
  · subst hroot
    exact hp
  · rw [shape?_eq_find? f hroot] at hp
    obtain ⟨x, hx, rfl⟩ := Option.map_eq_some_iff.mp hp
    rw [shape?_eq_find? g hroot, h, List.find?_append, hx]
    rfl

theorem isDirAt_eq (f : Files) (p : Place) :
    f.isDirAt p = ((f.shape? p).map Entry.isDir).getD false := by
  unfold isDirAt shape?
  rcases f.entry? p with _ | _ | _ <;> rfl

theorem isSome_entry? (f : Files) (p : Place) : (f.entry? p).isSome = (f.shape? p).isSome :=
  Option.isSome_map.symm

theorem entry?_eq_none_iff {f : Files} {p : Place} : f.entry? p = none ↔ f.shape? p = none :=
  Option.map_eq_none_iff.symm

/-- A place whose names are not all in the tree is empty. -/
theorem shape?_eq_none {f : Files} {p : Place} {name : String} (hname : name ∈ p)
    (hf : ∀ x ∈ f.entries, name ∉ x.1) : f.shape? p = none := by
  rw [← entry?_eq_none_iff]
  unfold entry?
  rw [if_neg (List.ne_nil_of_mem hname), Option.map_eq_none_iff, List.find?_eq_none]
  intro x hx heq
  exact hf x hx (of_decide_eq_true heq ▸ hname)

/-! ## Walks -/

/-- One step of a walk. -/
def stride (f : Files) (p : Place) (piece : List Char) : Except IoError Place :=
  if !f.isDirAt p then .error .notDirectory
  else if piece == [] || piece == ['.'] then .ok p
  else if piece == ['.', '.'] then .ok p.dropLast
  else if maxName < (String.ofList piece).utf8ByteSize then .error .nameTooLong
  else if (f.shape? (p ++ [String.ofList piece])).isSome then .ok (p ++ [String.ofList piece])
  else .error .notFound

theorem walk_cons (f : Files) (p : Place) (piece : List Char) (ps : List (List Char)) :
    f.walk p (piece :: ps) = (f.stride p piece).bind fun q => f.walk q ps := by
  rw [walk]
  unfold stride
  rw [← isSome_entry?]
  dsimp only
  split
  · rfl
  · split
    · rfl
    · split
      · rfl
      · split
        · rfl
        · cases f.entry? (p ++ [String.ofList piece]) <;> rfl

theorem walk_append (f : Files) (p : Place) (ps qs : List (List Char)) :
    f.walk p (ps ++ qs) = (f.walk p ps).bind fun q => f.walk q qs := by
  induction ps generalizing p with
  | nil => rfl
  | cons piece ps ih =>
    rw [List.cons_append, walk_cons, walk_cons]
    cases f.stride p piece with
    | error e => rfl
    | ok q => exact ih q

theorem walk_append_of_ok {f : Files} {p q : Place} {ps : List (List Char)}
    (h : f.walk p ps = .ok q) (qs : List (List Char)) : f.walk p (ps ++ qs) = f.walk q qs := by
  rw [walk_append, h]
  rfl

/-- A step stays where it is, goes up, or goes down. -/
theorem stride_cases {f : Files} {p q : Place} {piece : List Char} (h : f.stride p piece = .ok q) :
    q = p ∨ q = p.dropLast ∨ q = p ++ [String.ofList piece] := by
  unfold stride at h
  split at h
  · contradiction
  · split at h
    · exact .inl (Except.ok.inj h).symm
    · split at h
      · exact .inr (.inl (Except.ok.inj h).symm)
      · split at h
        · contradiction
        · split at h
          · exact .inr (.inr (Except.ok.inj h).symm)
          · contradiction

theorem stride_name {f : Files} {p : Place} {name : String} (h : Path.IsName name) :
    f.stride p name.toList =
      if !f.isDirAt p then .error .notDirectory
      else if maxName < name.utf8ByteSize then .error .nameTooLong
      else if (f.shape? (p ++ [name])).isSome then .ok (p ++ [name])
      else .error .notFound := by
  unfold stride
  rw [String.ofList_toList]
  simp only [beq_iff_eq, h.ne_empty, h.ne_here, h.ne_up, Bool.or_eq_true, or_self, if_false]

/-- Walks depend on no more than the shapes of the places they come by. -/
theorem walk_eq_of_shape {f g : Files} {P : Place → Prop}
    (hshape : ∀ p, P p → g.shape? p = f.shape? p) (hup : ∀ p, P p → P p.dropLast)
    {ps : List (List Char)} (hdown : ∀ p, ∀ piece ∈ ps, P p → P (p ++ [String.ofList piece]))
    {p : Place} (hp : P p) :
    g.walk p ps = f.walk p ps ∧ ∀ q, f.walk p ps = .ok q → P q := by
  induction ps generalizing p with
  | nil => exact ⟨rfl, fun q hq => Except.ok.inj hq ▸ hp⟩
  | cons piece ps ih =>
    have hnext : P (p ++ [String.ofList piece]) := hdown p piece List.mem_cons_self hp
    have hstride : g.stride p piece = f.stride p piece := by
      unfold stride
      rw [isDirAt_eq, isDirAt_eq, hshape p hp, hshape _ hnext]
    rw [walk_cons, walk_cons, hstride]
    rcases hf : f.stride p piece with e | q
    · exact ⟨rfl, nofun⟩
    · refine ih (fun p piece hpiece => hdown p piece (List.mem_cons_of_mem _ hpiece)) ?_
      rcases stride_cases hf with rfl | rfl | rfl
      · exact hp
      · exact hup p hp
      · exact hnext

/-- Everything in `f` is still in `g`, and directories are directories. -/
structure Grows (f g : Files) : Prop where
  dirs : ∀ p, f.isDirAt p = true → g.isDirAt p = true
  there : ∀ p, (f.shape? p).isSome = true → (g.shape? p).isSome = true

theorem Grows.trans {f g k : Files} (h : f.Grows g) (h' : g.Grows k) : f.Grows k :=
  ⟨fun p hp => h'.dirs p (h.dirs p hp), fun p hp => h'.there p (h.there p hp)⟩

theorem Grows.of_shape {f g : Files} (h : ∀ p e, f.shape? p = some e → g.shape? p = some e) :
    f.Grows g := by
  refine ⟨fun p hp => ?_, fun p hp => ?_⟩
  · rw [isDirAt_eq] at hp ⊢
    cases hs : f.shape? p with
    | none => rw [hs] at hp; contradiction
    | some e => rwa [h p e hs, ← hs]
  · obtain ⟨e, he⟩ := Option.isSome_iff_exists.mp hp
    rw [h p e he]
    rfl

theorem Grows.stride {f g : Files} (h : f.Grows g) {p q : Place} {piece : List Char}
    (hw : f.stride p piece = .ok q) : g.stride p piece = .ok q := by
  unfold Files.stride at hw ⊢
  cases hdir : f.isDirAt p with
  | false =>
    rw [hdir] at hw
    contradiction
  | true =>
    rw [hdir] at hw
    rw [h.dirs p hdir]
    cases hsome : (f.shape? (p ++ [String.ofList piece])).isSome with
    | true =>
      rw [hsome] at hw
      rw [h.there _ hsome]
      exact hw
    | false =>
      -- Without an entry to go down to, the step is one of the others.
      rw [hsome] at hw
      split at hw
      · contradiction
      · rename_i hd
        rw [if_neg hd]
        split at hw
        · rename_i hhere
          rwa [if_pos hhere]
        · rename_i hhere
          rw [if_neg hhere]
          split at hw
          · rename_i hup
            rwa [if_pos hup]
          · split at hw <;> contradiction

theorem Grows.walk {f g : Files} (h : f.Grows g) {p q : Place} {ps : List (List Char)}
    (hw : f.walk p ps = .ok q) : g.walk p ps = .ok q := by
  induction ps generalizing p with
  | nil => exact hw
  | cons piece ps ih =>
    rw [walk_cons] at hw ⊢
    cases hf : f.stride p piece with
    | error e =>
      rw [hf] at hw
      contradiction
    | ok next =>
      rw [hf] at hw
      rw [h.stride hf]
      exact ih hw

theorem Grows.locate {f g : Files} (h : f.Grows g) (hworkingDir : g.workingDir = f.workingDir)
    {path : String} {p : Place} (hl : f.locate path = .ok p) : g.locate path = .ok p := by
  unfold Files.locate start at hl ⊢
  rw [hworkingDir]
  cases hpath : pathError? path with
  | some e =>
    rw [hpath] at hl
    contradiction
  | none =>
    rw [hpath] at hl
    exact h.walk hl

/-! ## Lookups -/

/-- What is found at the end of a path depends on no more than the shapes on the way. -/
theorem lookup_eq_of_shape {f g : Files} {P : Place → Prop}
    (hshape : ∀ p, P p → g.shape? p = f.shape? p) (hup : ∀ p, P p → P p.dropLast) {path : String}
    (hdown : ∀ p, ∀ piece ∈ Path.pieces path.toList, P p → P (p ++ [String.ofList piece]))
    (hworkingDir : g.workingDir = f.workingDir) (hstart : P (f.start path)) :
    (g.lookup path).map (Entry.withModified 0) = (f.lookup path).map (Entry.withModified 0) := by
  have hsame : g.start path = f.start path := by
    unfold start
    rw [hworkingDir]
  obtain ⟨hwalk, hend⟩ := walk_eq_of_shape hshape hup hdown hstart
  unfold lookup locate
  cases pathError? path with
  | some e => rfl
  | none =>
    dsimp only
    rw [hsame, hwalk]
    cases hw : f.walk (f.start path) (Path.pieces path.toList) with
    | error e => rfl
    | ok p =>
      have hp : g.shape? p = f.shape? p := hshape p (hend p hw)
      unfold shape? at hp
      dsimp only
      cases hf : f.entry? p with
      | none =>
        rw [hf] at hp
        rw [Option.map_eq_none_iff.mp hp]
      | some e =>
        rw [hf] at hp
        obtain ⟨e', he', htimes⟩ := Option.map_eq_some_iff.mp hp
        rw [he']
        exact congrArg Except.ok htimes

theorem read_eq (f : Files) (path : String) :
    f.read path = match (f.lookup path).map (Entry.withModified 0) with
      | .error e => .error e
      | .ok (.dir _) => .error .isDirectory
      | .ok (.file bytes _) => .ok bytes := by
  unfold read
  rcases f.lookup path with e | _ | _ <;> rfl

theorem pathExists_eq (f : Files) (path : String) :
    f.pathExists path = ((f.lookup path).map (Entry.withModified 0)).toOption.isSome := by
  unfold pathExists
  rcases f.lookup path with e | e <;> rfl

/-- A file that can be read can still be read when nothing was done but to add to the tree. -/
theorem read_of_shape {f g : Files} (hworkingDir : g.workingDir = f.workingDir)
    (h : ∀ p e, f.shape? p = some e → g.shape? p = some e) {path : String} {bytes : List UInt8}
    (hread : f.read path = .ok bytes) : g.read path = .ok bytes := by
  have hsame : g.start path = f.start path := by
    unfold start
    rw [hworkingDir]
  rw [read_eq] at hread ⊢
  unfold lookup locate at hread ⊢
  cases hp : pathError? path with
  | some e =>
    rw [hp] at hread
    contradiction
  | none =>
    rw [hp] at hread
    dsimp only at hread ⊢
    cases hw : f.walk (f.start path) (Path.pieces path.toList) with
    | error e =>
      rw [hw] at hread
      contradiction
    | ok p =>
      rw [hw] at hread
      rw [hsame, (Grows.of_shape h).walk hw]
      dsimp only at hread ⊢
      cases hf : f.entry? p with
      | none =>
        rw [hf] at hread
        contradiction
      | some e =>
        rw [hf] at hread
        have hshape := h p (e.withModified 0)
        unfold shape? at hshape
        rw [hf] at hshape
        obtain ⟨e', he', htimes⟩ := Option.map_eq_some_iff.mp (hshape rfl)
        rw [he']
        dsimp only [Except.map] at hread ⊢
        rw [htimes]
        exact hread

/-- Two trees that differ in times at most. -/
structure Alike (f g : Files) : Prop where
  contents : g.contents = f.contents
  workingDir : g.workingDir = f.workingDir
  now : g.now = f.now

theorem Alike.refl (f : Files) : f.Alike f := ⟨rfl, rfl, rfl⟩

theorem Alike.trans {f g k : Files} (h : f.Alike g) (h' : g.Alike k) : f.Alike k :=
  ⟨h'.contents.trans h.contents, h'.workingDir.trans h.workingDir, h'.now.trans h.now⟩

theorem Alike.walk {f g : Files} (h : f.Alike g) (p : Place) (ps : List (List Char)) :
    g.walk p ps = f.walk p ps :=
  (walk_eq_of_shape (P := fun _ => True) (fun p _ => shape?_of_contents h.contents p)
    (fun _ _ => trivial) (fun _ _ _ _ => trivial) trivial).1

theorem Alike.locate {f g : Files} (h : f.Alike g) (path : String) :
    g.locate path = f.locate path := by
  unfold Files.locate start
  rw [h.workingDir, h.walk]

theorem Alike.isDirAt {f g : Files} (h : f.Alike g) (p : Place) : g.isDirAt p = f.isDirAt p := by
  rw [isDirAt_eq, isDirAt_eq, shape?_of_contents h.contents]

theorem isDir_eq (f : Files) (path : String) :
    f.isDir path = match f.locate path with
      | .error _ => false
      | .ok p => f.isDirAt p := by
  unfold isDir lookup isDirAt
  cases f.locate path with
  | error e => rfl
  | ok p =>
    dsimp only
    cases f.entry? p <;> rfl

theorem isDir_of_readDir {f : Files} {path : String} {names : List String}
    (h : f.readDir path = .ok names) : f.isDir path = true := by
  rw [isDir_eq]
  unfold readDir at h
  cases hl : f.locate path with
  | error e =>
    rw [hl] at h
    contradiction
  | ok p =>
    rw [hl] at h
    dsimp only at h ⊢
    split at h
    · assumption
    · contradiction

theorem Alike.isDir {f g : Files} (h : f.Alike g) (path : String) :
    g.isDir path = f.isDir path := by
  rw [isDir_eq, isDir_eq, h.locate]
  cases f.locate path with
  | error e => rfl
  | ok p => exact h.isDirAt p

theorem names_eq (f : Files) (p : Place) :
    f.names p = f.contents.filterMap fun x =>
      match x.1.getLast? with
      | some name => if x.1 = p ++ [name] then some name else none
      | none => none := by
  unfold names contents
  rw [List.filterMap_map]
  rfl

theorem Alike.readDir {f g : Files} (h : f.Alike g) (path : String) :
    g.readDir path = f.readDir path := by
  unfold Files.readDir
  rw [h.locate]
  cases f.locate path with
  | error e => rfl
  | ok p =>
    dsimp only
    rw [h.isDirAt, names_eq, names_eq, h.contents]

/-! ## Changes -/

theorem contents_touchDir (f : Files) (p : Place) : (f.touchDir p).contents = f.contents := by
  unfold touchDir contents
  rw [List.map_map]
  refine List.map_congr_left fun x _ => ?_
  obtain ⟨place, _ | _⟩ := x <;> by_cases hp : place = p <;> simp [hp, Entry.withModified]

theorem contents_create (f : Files) (p : Place) (e : Entry) :
    (f.create p e).contents = (f.put p e).contents := contents_touchDir _ _

theorem contents_put_of_none {f : Files} {p : Place} (h : f.shape? p = none) (e : Entry) :
    (f.put p e).contents = f.contents ++ [(p, e.withModified 0)] := by
  have hp : p ≠ [] := by
    rintro rfl
    contradiction
  have hany : f.entries.any (·.1 = p) = false := by
    rw [← entry?_eq_none_iff] at h
    unfold entry? at h
    rw [if_neg hp, Option.map_eq_none_iff] at h
    exact List.any_eq_false.mpr fun x hx => List.find?_eq_none.mp h x hx
  unfold put contents
  rw [hany]
  exact List.map_append

/-- What stands at a place is found there after a change that leaves the places alone. -/
theorem find?_map_place {g : Place × Entry → Place × Entry} (hg : ∀ x, (g x).1 = x.1)
    (xs : List (Place × Entry)) (p : Place) :
    (xs.map g).find? (·.1 = p) = (xs.find? (·.1 = p)).map g := by
  have hplaces : (fun x : Place × Entry => decide (x.1 = p)) ∘ g = fun x => decide (x.1 = p) := by
    funext x
    rw [Function.comp_apply, hg]
  rw [List.find?_map, hplaces]

theorem shape?_put (f : Files) {p : Place} (hp : p ≠ []) (e : Entry) (q : Place) :
    (f.put p e).shape? q = if q = p then some (e.withModified 0) else f.shape? q := by
  by_cases hq : q = []
  · subst hq
    rw [if_neg (Ne.symm hp)]
    rfl
  cases hs : f.shape? p with
  | none =>
    rw [shape?_eq_find? _ hq, contents_put_of_none hs, List.find?_append]
    split
    · rename_i heq
      subst heq
      rw [shape?_eq_find? _ hq, Option.map_eq_none_iff] at hs
      rw [hs]
      simp
    · rename_i hne
      rw [shape?_eq_find? _ hq]
      simp [Ne.symm hne]
  | some _ =>
    have hany : f.entries.any (·.1 = p) = true := by
      rw [shape?_eq_find? _ hp] at hs
      obtain ⟨x, hx, -⟩ := Option.map_eq_some_iff.mp hs
      obtain ⟨y, hy, rfl⟩ := List.mem_map.mp (List.mem_of_find?_eq_some hx)
      have hplace := List.find?_some hx
      exact List.any_eq_true.mpr ⟨y, hy, hplace⟩
    unfold shape? entry? put
    rw [if_pos hany, if_neg hq, if_neg hq]
    dsimp only
    rw [find?_map_place fun x => by split <;> simp [*]]
    split
    · rename_i heq
      subst heq
      obtain ⟨x, hx, hxp⟩ := List.any_eq_true.mp hany
      cases hfind : f.entries.find? (·.1 = q) with
      | none => exact absurd hxp (List.find?_eq_none.mp hfind x hx)
      | some y =>
        have hplace := List.find?_some hfind
        have hy : y.1 = q := of_decide_eq_true hplace
        simp [hy]
    · rename_i hne
      cases hfind : f.entries.find? (·.1 = q) with
      | none => rfl
      | some y =>
        have hplace := List.find?_some hfind
        have hy : y.1 = q := of_decide_eq_true hplace
        simp [hy, hne]

theorem shape?_create (f : Files) {p : Place} (hp : p ≠ []) (e : Entry) (q : Place) :
    (f.create p e).shape? q = if q = p then some (e.withModified 0) else f.shape? q := by
  rw [← shape?_put f hp]
  exact shape?_of_contents (contents_create f p e) q

/-- Whether an entry stands neither at a place nor below it. -/
def outside (q : Place) (x : Place × Entry) : Bool := !q.isPrefixOf x.1

theorem contents_removeAt (f : Files) (p : Place) :
    (f.removeAt p).contents = f.contents.filter (outside p) := by
  unfold removeAt
  rw [contents_touchDir]
  unfold contents
  rw [List.filter_map]
  rfl

/-- What is outside of a place is found, and nothing else. -/
theorem find?_outside (xs : List (Place × Entry)) (q p : Place) :
    (xs.filter (outside q)).find? (·.1 = p) = if q <+: p then none else xs.find? (·.1 = p) := by
  rw [List.find?_filter]
  split
  · rename_i hq
    rw [List.find?_eq_none]
    rintro x - hx
    obtain ⟨hout, hplace⟩ := of_decide_eq_true hx
    unfold outside at hout
    rw [of_decide_eq_true hplace, List.isPrefixOf_iff_prefix.mpr hq] at hout
    contradiction
  · rename_i hq
    refine congrArg (fun g => List.find? g xs) (funext fun x => ?_)
    by_cases hx : x.1 = p
    · have hout : outside q x = true := by
        unfold outside
        rw [hx, Bool.eq_false_iff.mpr (mt List.isPrefixOf_iff_prefix.mp hq)]
        rfl
      simp [hx, hout]
    · simp [hx]

theorem shape?_removeAt (f : Files) (q : Place) {p : Place} (hp : p ≠ []) :
    (f.removeAt q).shape? p = if q <+: p then none else f.shape? p := by
  rw [shape?_eq_find? _ hp, shape?_eq_find? _ hp, contents_removeAt, find?_outside]
  split <;> rfl

/-- What is left when something is removed was there before. -/
theorem grows_removeAt (f : Files) (q : Place) : (f.removeAt q).Grows f := by
  refine .of_shape fun p e hp => ?_
  by_cases hroot : p = []
  · subst hroot
    exact hp
  · rw [shape?_removeAt f q hroot] at hp
    split at hp
    · contradiction
    · exact hp

theorem filter_outside_put (f : Files) {p q : Place} (h : q <+: p) (e : Entry) :
    (f.put p e).contents.filter (outside q) = f.contents.filter (outside q) := by
  have hp : outside q (p, e.withModified 0) = false := by
    unfold outside
    rw [List.isPrefixOf_iff_prefix.mpr h]
    rfl
  unfold put
  split
  · unfold contents
    dsimp only
    rw [List.map_map]
    induction f.entries with
    | nil => rfl
    | cons x xs ih =>
      by_cases hx : x.1 = p
      · have hout : outside q (x.1, x.2.withModified 0) = false := by
          rw [hx]
          exact hp
        simp only [List.map_cons, Function.comp_apply, hx, if_true, List.filter_cons, hp,
          Bool.false_eq_true, if_false] at hout ⊢
        rw [hout, ih]
        rfl
      · simp only [List.map_cons, Function.comp_apply, hx, if_false, List.filter_cons]
        rw [ih]
  · unfold contents
    rw [List.map_append, List.filter_append]
    simp [hp]

end Files

end LiveTrace
