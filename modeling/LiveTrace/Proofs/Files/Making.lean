import LiveTrace.Proofs.Files.Tree

/-
  Making directories and writing files into them, by paths made of a directory and a name
  (`locate_join`, `target_join`). Making directories only adds to the tree
  (`makeDirAll_onlyMakes`), and in the end the directory is there (`makeDirAll_isDir`); where the
  one above it is there already, it is the only one made (`makeDirAll_eq`). Writing into a
  directory leaves all that is not below it alone (`write_tended`).
-/
namespace LiveTrace.Files

open LiveTrace.Path (above join IsName)

/-! ## A name in a directory -/

section

variable {f : Files} {base name : String}

theorem start_join (f : Files) (hn : IsName name) (base : String) :
    f.start (join base name) = f.start base := by
  unfold start
  rw [hn.isAbsolute_join]

theorem walk_name (f : Files) (p : Place) (piece : List Char) :
    f.walk p [piece] = f.stride p piece := by
  rw [walk_cons]
  cases f.stride p piece <;> rfl

theorem locate_join (hn : IsName name) (hpath : pathError? (join base name) = none) :
    f.locate (join base name) =
      (f.walk (f.start base) (above base)).bind fun d => f.stride d name.toList := by
  unfold locate
  rw [hpath, start_join f hn, hn.pieces_join, walk_append]
  exact congrArg _ (funext fun d => walk_name f d _)

/-- What stands under a name in a directory stands below it. -/
theorem locate_join_eq_ok (hn : IsName name) {q : Place} (h : f.locate (join base name) = .ok q) :
    ∃ d, f.walk (f.start base) (above base) = .ok d ∧ q = d ++ [name] := by
  cases hpath : pathError? (join base name) with
  | some e =>
    unfold locate at h
    rw [hpath] at h
    contradiction
  | none =>
    rw [locate_join hn hpath] at h
    cases hd : f.walk (f.start base) (above base) with
    | error e =>
      rw [hd] at h
      contradiction
    | ok d =>
      rw [hd] at h
      change f.stride d _ = .ok q at h
      rw [stride_name hn] at h
      refine ⟨d, rfl, ?_⟩
      split at h
      · contradiction
      · split at h
        · contradiction
        · split at h
          · exact (Except.ok.inj h).symm
          · contradiction

theorem withoutSlashes_concat (ps : List (List Char)) {piece : List Char} (h : piece ≠ []) :
    withoutSlashes (ps ++ [piece]) = ps ++ [piece] := by
  unfold withoutSlashes
  rw [List.reverse_append, List.reverse_singleton, List.singleton_append, List.dropWhile_cons,
    if_neg (by simpa using h), List.reverse_cons, List.reverse_reverse]

theorem target_join (hn : IsName name) (hpath : pathError? (join base name) = none) :
    f.target (join base name) = (f.walk (f.start base) (above base)).bind fun d =>
      if !f.isDirAt d then .error .notDirectory else .ok (.named d name false) := by
  unfold target
  rw [hpath]
  dsimp only
  rw [hn.pieces_join, withoutSlashes_concat _ hn.ne_empty, List.getLast?_concat,
    List.dropLast_concat, start_join f hn]
  dsimp only
  cases f.walk (f.start base) (above base) with
  | error e => rfl
  | ok d =>
    have hdown : (name.toList == ['.'] || name.toList == ['.', '.']) = false := by
      simpa using ⟨hn.ne_here, hn.ne_up⟩
    have hlength : ¬ (above base ++ [name.toList]).length < (above base ++ [name.toList]).length :=
      Nat.lt_irrefl _
    rw [hdown, String.ofList_toList, decide_eq_false hlength]
    rfl

theorem target_join_of_walk (hn : IsName name) {d : Place}
    (hpath : pathError? (join base name) = none)
    (hd : f.walk (f.start base) (above base) = .ok d) (hdir : f.isDirAt d = true) :
    f.target (join base name) = .ok (.named d name false) := by
  rw [target_join hn hpath, hd]
  change (if !f.isDirAt d then .error .notDirectory else .ok (.named d name false) :
    Except IoError Target) = _
  rw [hdir]
  rfl

/-- A directory that is there can be walked to. -/
theorem exists_walk_of_isDir (h : f.isDir base = true) :
    ∃ d, f.walk (f.start base) (above base) = .ok d ∧ f.isDirAt d = true ∧
      f.locate base = .ok d := by
  rw [isDir_eq] at h
  cases hl : f.locate base with
  | error e =>
    rw [hl] at h
    contradiction
  | ok d =>
    have hdir : f.isDirAt d = true := by rwa [hl] at h
    refine ⟨d, ?_, hdir, rfl⟩
    unfold locate at hl
    cases hpath : pathError? base with
    | some e =>
      rw [hpath] at hl
      contradiction
    | none =>
      have hne : base ≠ "" := by
        rintro rfl
        exact absurd hpath (by decide)
      rw [hpath] at hl
      dsimp only at hl
      rcases Path.pieces_eq_above hne with hpieces | hpieces
      · rwa [hpieces] at hl
      · rw [hpieces, walk_append] at hl
        cases hw : f.walk (f.start base) (above base) with
        | error e =>
          rw [hw] at hl
          contradiction
        | ok q =>
          -- The slash at the end of the path leads nowhere else.
          rw [hw] at hl
          change f.walk q [[]] = .ok d at hl
          rw [walk_name] at hl
          unfold stride at hl
          split at hl
          · contradiction
          · exact hl

theorem isDir_of_locate {path : String} {p : Place} (h : f.locate path = .ok p)
    (hdir : f.isDirAt p = true) : f.isDir path = true := by
  rw [isDir_eq, h]
  exact hdir

theorem pathExists_of_locate {path : String} {p : Place} (h : f.locate path = .ok p)
    (hdir : f.isDirAt p = true) : f.pathExists path = true := by
  unfold isDirAt at hdir
  unfold pathExists lookup
  rw [h]
  dsimp only
  cases hentry : f.entry? p with
  | none =>
    rw [hentry] at hdir
    contradiction
  | some e => rfl

end

/-! ## Making directories -/

/-- From `f` to `g` directories were made, and nothing else was done. -/
structure OnlyMakes (f g : Files) (made : List Place) : Prop where
  contents : g.contents = f.contents ++ made.map fun p => (p, .dir 0)
  workingDir : g.workingDir = f.workingDir
  now : g.now = f.now

theorem OnlyMakes.refl (f : Files) : f.OnlyMakes f [] := ⟨(List.append_nil _).symm, rfl, rfl⟩

theorem OnlyMakes.trans {f g k : Files} {made more : List Place} (h : f.OnlyMakes g made)
    (h' : g.OnlyMakes k more) : f.OnlyMakes k (made ++ more) := by
  refine ⟨?_, h'.workingDir.trans h.workingDir, h'.now.trans h.now⟩
  rw [h'.contents, h.contents, List.map_append, List.append_assoc]

theorem OnlyMakes.shape? {f g : Files} {made : List Place} (h : f.OnlyMakes g made) {p : Place}
    {e : Entry} (hp : f.shape? p = some e) : g.shape? p = some e :=
  shape?_of_contents_append h.contents hp

theorem OnlyMakes.grows {f g : Files} {made : List Place} (h : f.OnlyMakes g made) : f.Grows g :=
  .of_shape fun _ _ hp => h.shape? hp

theorem OnlyMakes.alike {f g : Files} (h : f.OnlyMakes g []) : f.Alike g :=
  ⟨h.contents.trans (List.append_nil _), h.workingDir, h.now⟩

theorem put_outside (f : Files) (p : Place) (e : Entry) :
    (f.put p e).workingDir = f.workingDir ∧ (f.put p e).now = f.now := by
  unfold put
  split <;> exact ⟨rfl, rfl⟩

theorem create_outside (f : Files) (p : Place) (e : Entry) :
    (f.create p e).workingDir = f.workingDir ∧ (f.create p e).now = f.now := put_outside f p e

theorem create_onlyMakes {f : Files} {p : Place} (h : f.shape? p = none) (t : Instant) :
    f.OnlyMakes (f.create p (.dir t)) [p] := by
  refine ⟨?_, (create_outside f p _).1, (create_outside f p _).2⟩
  rw [contents_create, contents_put_of_none h]
  rfl

/-- A directory is made where nothing was. -/
theorem makeDir_eq_ok {f g : Files} {path : String} (h : f.makeDir path = .ok g) :
    ∃ d name slash, f.target path = .ok (.named d name slash) ∧ ¬ maxName < name.utf8ByteSize ∧
      f.shape? (d ++ [name]) = none ∧ g = f.create (d ++ [name]) (.dir f.now) := by
  unfold makeDir at h
  rcases htarget : f.target path with e | ⟨d, name, slash⟩ | _
  · rw [htarget] at h
    contradiction
  · rw [htarget] at h
    dsimp only at h
    split at h
    · contradiction
    · rename_i hlong
      cases hentry : f.entry? (d ++ [name]) with
      | some e =>
        rw [hentry] at h
        contradiction
      | none =>
        rw [hentry] at h
        exact ⟨d, name, slash, rfl, hlong, entry?_eq_none_iff.mp hentry, (Except.ok.inj h).symm⟩
  · rw [htarget] at h
    contradiction

theorem makeDir_onlyMakes {f g : Files} {path : String} (h : f.makeDir path = .ok g) :
    ∃ p, f.OnlyMakes g [p] := by
  obtain ⟨d, name, -, -, -, hnew, rfl⟩ := makeDir_eq_ok h
  exact ⟨_, create_onlyMakes hnew _⟩

theorem makeDirUnlessThere_onlyMakes (f : Files) (path : String) :
    ∃ made, f.OnlyMakes (f.makeDirUnlessThere path).1 made := by
  unfold makeDirUnlessThere
  cases hmake : f.makeDir path with
  | error e => exact ⟨[], .refl f⟩
  | ok g =>
    obtain ⟨p, hp⟩ := makeDir_onlyMakes hmake
    exact ⟨[p], hp⟩

theorem makeDirAll_go_onlyMakes (fuel : Nat) (f : Files) (path : String) :
    ∃ made, f.OnlyMakes (makeDirAll.go fuel f path).1 made := by
  induction fuel generalizing path with
  | zero => exact makeDirUnlessThere_onlyMakes f path
  | succ fuel ih =>
    unfold makeDirAll.go
    split
    · exact ⟨[], .refl f⟩
    · split
      · rename_i g hmake
        obtain ⟨p, hp⟩ := makeDir_onlyMakes hmake
        exact ⟨[p], hp⟩
      · cases Path.parent? path with
        | none => exact ⟨[], .refl f⟩
        | some parent =>
          obtain ⟨made, hmade⟩ := ih parent
          dsimp only
          generalize makeDirAll.go fuel f parent = after at hmade ⊢
          obtain ⟨g, e | _⟩ := after
          · obtain ⟨more, hmore⟩ := makeDirUnlessThere_onlyMakes g path
            exact ⟨made ++ more, hmade.trans hmore⟩
          · exact ⟨made, hmade⟩
      · exact ⟨[], .refl f⟩

theorem makeDirAll_onlyMakes (f : Files) (path : String) :
    ∃ made, f.OnlyMakes (f.makeDirAll path).1 made := makeDirAll_go_onlyMakes _ f path

/-! ## What was made is there -/

theorem isDirAt_create (f : Files) (d : Place) (name : String) (t : Instant) :
    (f.create (d ++ [name]) (.dir t)).isDirAt (d ++ [name]) = true := by
  rw [isDirAt_eq, shape?_create f (by simp), if_pos rfl]
  rfl

theorem exists_withoutSlashes (ps : List (List Char)) :
    ∃ n, ps = withoutSlashes ps ++ List.replicate n [] := by
  unfold withoutSlashes
  refine ⟨(ps.reverse.takeWhile (· == [])).length, ?_⟩
  have hslashes : (ps.reverse.takeWhile (· == [])).reverse =
      List.replicate (ps.reverse.takeWhile (· == [])).length [] := by
    rw [List.eq_replicate_iff, List.length_reverse]
    exact ⟨rfl, fun piece hpiece =>
      beq_iff_eq.mp (List.all_eq_true.mp List.all_takeWhile piece (List.mem_reverse.mp hpiece))⟩
  rw [← hslashes, ← List.reverse_append, List.takeWhile_append_dropWhile, List.reverse_reverse]

theorem ne_nil_of_getLast?_withoutSlashes {ps : List (List Char)} {last : List Char}
    (h : (withoutSlashes ps).getLast? = some last) : last ≠ [] := by
  unfold withoutSlashes at h
  rw [List.getLast?_reverse] at h
  have hfirst := List.head?_dropWhile_not (fun piece : List Char => piece == []) ps.reverse
  rw [h] at hfirst
  simpa using hfirst

/-- The slashes at the end of a path lead nowhere else. -/
theorem walk_slashes {f : Files} {p : Place} (hdir : f.isDirAt p = true) (n : Nat) :
    f.walk p (List.replicate n []) = .ok p := by
  induction n with
  | zero => rfl
  | succ n ih =>
    rw [List.replicate_succ, walk_cons]
    unfold stride
    rw [hdir]
    exact ih

/-- A path that leads to a name in a directory leads to the directory, then down by the name, and
then nowhere else. -/
theorem target_eq_named {f : Files} {path name : String} {d : Place} {slash : Bool}
    (h : f.target path = .ok (.named d name slash)) :
    pathError? path = none ∧ ∃ first last n,
      Path.pieces path.toList = first ++ [last] ++ List.replicate n [] ∧ last ≠ [] ∧
        last ≠ ['.'] ∧ last ≠ ['.', '.'] ∧ String.ofList last = name ∧
        f.walk (f.start path) first = .ok d ∧ f.isDirAt d = true := by
  unfold target at h
  cases hpath : pathError? path with
  | some e =>
    rw [hpath] at h
    contradiction
  | none =>
    rw [hpath] at h
    dsimp only at h
    obtain ⟨n, hn⟩ := exists_withoutSlashes (Path.pieces path.toList)
    cases hlast : (withoutSlashes (Path.pieces path.toList)).getLast? with
    | none =>
      rw [hlast] at h
      exact nomatch Except.ok.inj h
    | some last =>
      rw [hlast] at h
      dsimp only at h
      cases hwalk : f.walk (f.start path)
          (withoutSlashes (Path.pieces path.toList)).dropLast with
      | error e =>
        rw [hwalk] at h
        contradiction
      | ok d' =>
        rw [hwalk] at h
        dsimp only at h
        split at h
        · contradiction
        · rename_i hdir
          split at h
          · exact nomatch Except.ok.inj h
          · rename_i hdown
            obtain ⟨rfl, hname, -⟩ := Target.named.inj (Except.ok.inj h)
            simp only [Bool.or_eq_true, beq_iff_eq, not_or] at hdown
            have hne := ne_nil_of_getLast?_withoutSlashes hlast
            obtain ⟨first, hfirst⟩ := List.getLast?_eq_some_iff.mp hlast
            rw [hfirst, List.dropLast_concat] at hwalk
            rw [hfirst] at hn
            exact ⟨rfl, first, last, n, hn, hne, hdown.1, hdown.2, hname, hwalk,
              by simpa using hdir⟩

/-- A new directory is found by the path it was made by. -/
theorem locate_created {f : Files} {path name : String} {d : Place} {slash : Bool}
    (h : f.target path = .ok (.named d name slash)) (hlong : ¬ maxName < name.utf8ByteSize)
    (hnew : f.shape? (d ++ [name]) = none) (t : Instant) :
    (f.create (d ++ [name]) (.dir t)).locate path = .ok (d ++ [name]) := by
  obtain ⟨hpath, first, last, n, hpieces, hne, hhere, hup, rfl, hwalk, hdir⟩ := target_eq_named h
  have hgrows := (create_onlyMakes hnew t).grows
  have hstart : (f.create (d ++ [String.ofList last]) (.dir t)).start path = f.start path := by
    unfold start
    rw [(create_outside f _ _).1]
  have hstride : (f.create (d ++ [String.ofList last]) (.dir t)).stride d last =
      .ok (d ++ [String.ofList last]) := by
    unfold stride
    simp only [beq_iff_eq, hne, hhere, hup, hgrows.dirs d hdir, Bool.or_eq_true, or_self, hlong,
      if_false, shape?_create f (p := d ++ [String.ofList last]) (by simp)]
    rfl
  unfold locate
  rw [hpath]
  dsimp only
  rw [hpieces, hstart, List.append_assoc, walk_append_of_ok (hgrows.walk hwalk),
    List.singleton_append, walk_cons, hstride]
  exact walk_slashes (isDirAt_create f d _ t) n

/-- The directory that was made is there. -/
theorem isDir_of_makeDir {f g : Files} {path : String} (h : f.makeDir path = .ok g) :
    g.isDir path = true := by
  obtain ⟨d, name, slash, htarget, hlong, hnew, rfl⟩ := makeDir_eq_ok h
  exact isDir_of_locate (locate_created htarget hlong hnew _) (isDirAt_create f d name _)

theorem isDir_of_makeDirUnlessThere {f g : Files} {path : String}
    (h : f.makeDirUnlessThere path = (g, none)) : g.isDir path = true := by
  unfold makeDirUnlessThere at h
  cases hmake : f.makeDir path with
  | ok g' =>
    rw [hmake] at h
    obtain rfl := congrArg Prod.fst h
    exact isDir_of_makeDir hmake
  | error e =>
    rw [hmake] at h
    obtain ⟨rfl, hnone⟩ := Prod.mk.inj h
    simpa using hnone

/-- When making a directory with all above it succeeds, the directory is there. -/
theorem makeDirAll_isDir {f g : Files} {path : String} (hne : path ≠ "")
    (h : f.makeDirAll path = (g, none)) : g.isDir path = true := by
  unfold makeDirAll at h
  cases hfuel : path.length with
  | zero =>
    rw [hfuel] at h
    exact isDir_of_makeDirUnlessThere h
  | succ fuel =>
    rw [hfuel, makeDirAll.go, if_neg (Path.parts_ne_nil hne)] at h
    cases hmake : f.makeDir path with
    | ok g' =>
      rw [hmake] at h
      obtain rfl := congrArg Prod.fst h
      exact isDir_of_makeDir hmake
    | error e =>
      rw [hmake] at h
      cases e with
      | notFound =>
        dsimp only at h
        cases hparent : Path.parent? path with
        | none =>
          rw [hparent] at h
          exact nomatch congrArg Prod.snd h
        | some parent =>
          rw [hparent] at h
          dsimp only at h
          rcases hgo : makeDirAll.go fuel f parent with ⟨g', _ | e⟩
          · rw [hgo] at h
            exact isDir_of_makeDirUnlessThere h
          · rw [hgo] at h
            exact nomatch congrArg Prod.snd h
      | «exists» | notDirectory | isDirectory | nameTooLong | notUtf8 | nulInName | notRegular =>
        obtain ⟨rfl, hnone⟩ := Prod.mk.inj h
        simpa using hnone

/-! ## A new name in a directory -/

section

variable {f g : Files} {base name : String}

theorem makeDir_join (hn : IsName name) {d : Place} (hpath : pathError? (join base name) = none)
    (hd : f.walk (f.start base) (above base) = .ok d) (hdir : f.isDirAt d = true) :
    f.makeDir (join base name) =
      if maxName < name.utf8ByteSize then .error .nameTooLong
      else if (f.shape? (d ++ [name])).isSome then .error .exists
      else .ok (f.create (d ++ [name]) (.dir f.now)) := by
  unfold makeDir
  rw [target_join_of_walk hn hpath hd hdir, ← isSome_entry?]
  dsimp only
  split
  · rfl
  · cases f.entry? (d ++ [name]) <;> rfl

theorem join_ne_empty (hn : IsName name) (base : String) : (join base name).toList ≠ [] := by
  rw [hn.join_eq, String.toList_append]
  exact fun hnil => hn.ne_empty (List.append_eq_nil_iff.mp hnil).2

theorem pathError?_join_ne_notFound (hn : IsName name) (base : String) :
    pathError? (join base name) ≠ some .notFound := by
  have hempty : (join base name).isEmpty = false :=
    String.isEmpty_eq_false_iff.mpr (mt String.toList_eq_nil_iff.mpr (join_ne_empty hn base))
  unfold pathError?
  rw [hempty]
  split
  · exact nofun
  · split
    · contradiction
    · split <;> exact nofun

/-- Making a directory with all above it begins with an attempt to make it alone. -/
theorem makeDirAll_join (hn : IsName name) (f : Files) (base : String) :
    ∃ fuel, f.makeDirAll (join base name) = match f.makeDir (join base name) with
      | .ok g => (g, none)
      | .error .notFound =>
        match Path.parent? (join base name) with
        | none => (f, some .notFound)
        | some parent =>
          match makeDirAll.go fuel f parent with
          | (g, some e) => (g, some e)
          | (g, none) => g.makeDirUnlessThere (join base name)
      | .error e => (f, if f.isDir (join base name) then none else some e) := by
  obtain ⟨fuel, hfuel⟩ := Nat.exists_eq_succ_of_ne_zero (n := (join base name).length)
    (by rw [← String.length_toList]; exact mt List.length_eq_zero_iff.mp (join_ne_empty hn base))
  refine ⟨fuel, ?_⟩
  have hne : join base name ≠ "" := mt String.toList_eq_nil_iff.mpr (join_ne_empty hn base)
  unfold makeDirAll
  rw [hfuel]
  refine (if_neg (Path.parts_ne_nil hne)).trans ?_
  rcases f.makeDir (join base name) with e | g
  · cases e <;> rfl
  · rfl

/-- Where the directory above it is there, a new directory is made by itself. -/
theorem makeDirAll_eq (hn : IsName name) {d : Place}
    (hd : f.walk (f.start base) (above base) = .ok d) (hdir : f.isDirAt d = true)
    (hnew : f.shape? (d ++ [name]) = none) :
    f.makeDirAll (join base name) =
      match pathError? (join base name) with
      | some e => (f, some e)
      | none =>
        if maxName < name.utf8ByteSize then (f, some .nameTooLong)
        else (f.create (d ++ [name]) (.dir f.now), none) := by
  obtain ⟨fuel, hall⟩ := makeDirAll_join hn f base
  rw [hall]
  cases hpath : pathError? (join base name) with
  | some e =>
    have hmake : f.makeDir (join base name) = .error e := by
      unfold makeDir target
      rw [hpath]
    have hgone : f.isDir (join base name) = false := by
      rw [isDir_eq]
      unfold locate
      rw [hpath]
    rw [hmake, hgone]
    cases e with
    | notFound => exact absurd hpath (pathError?_join_ne_notFound hn base)
    | «exists» | notDirectory | isDirectory | nameTooLong | notUtf8 | nulInName | notRegular => rfl
  | none =>
    have hmake := makeDir_join hn hpath hd hdir
    rw [hnew] at hmake
    by_cases hlong : maxName < name.utf8ByteSize
    · have hlost : f.locate (join base name) = .error .nameTooLong := by
        rw [locate_join hn hpath, hd]
        change f.stride d name.toList = _
        rw [stride_name hn, hdir, if_pos hlong]
        rfl
      have hgone : f.isDir (join base name) = false := by
        rw [isDir_eq, hlost]
      rw [if_pos hlong] at hmake
      rw [hmake, hgone]
      exact (if_pos hlong).symm
    · rw [if_neg hlong] at hmake
      rw [hmake]
      exact (if_neg hlong).symm

end

/-! ## Writing into a directory -/

/-- From `f` to `g` a file was written at a place. -/
structure Writes (p : Place) (bytes : List UInt8) (f g : Files) : Prop where
  shape? : ∀ q, g.shape? q = if q = p then some (.file bytes 0) else f.shape? q
  outside : ∀ q, q <+: p → g.contents.filter (outside q) = f.contents.filter (outside q)
  workingDir : g.workingDir = f.workingDir
  now : g.now = f.now

section

variable {f g : Files} {base name : String}

theorem put_writes (f : Files) {p : Place} (hp : p ≠ []) (bytes : List UInt8) (t : Instant) :
    f.Writes p bytes (f.put p (.file bytes t)) :=
  ⟨shape?_put f hp _, fun _ hq => filter_outside_put f hq _, (put_outside f p _).1,
    (put_outside f p _).2⟩

theorem create_writes (f : Files) {p : Place} (hp : p ≠ []) (bytes : List UInt8) (t : Instant) :
    f.Writes p bytes (f.create p (.file bytes t)) := by
  refine ⟨shape?_create f hp _, fun q hq => ?_, (create_outside f p _).1, (create_outside f p _).2⟩
  rw [contents_create]
  exact filter_outside_put f hq _

theorem write_of_pathError? {path : String} {e : IoError} (h : pathError? path = some e)
    (bytes : List UInt8) :
    f.write path bytes = .error e := by
  unfold write target
  rw [h]

/-- Writing a file under a name in a directory fails for the sake of the name, or of a directory
that has it, or not at all. -/
theorem write_join (hn : IsName name) {d : Place} (hpath : pathError? (join base name) = none)
    (hd : f.walk (f.start base) (above base) = .ok d) (hdir : f.isDirAt d = true)
    (bytes : List UInt8) :
    ∃ g, f.Writes (d ++ [name]) bytes g ∧ f.write (join base name) bytes =
      if maxName < name.utf8ByteSize then .error .nameTooLong
      else if f.isDirAt (d ++ [name]) then .error .isDirectory
      else .ok g := by
  have hp : d ++ [name] ≠ [] := by simp
  unfold write
  rw [target_join_of_walk hn hpath hd hdir]
  dsimp only [Bool.false_eq_true, if_false]
  unfold isDirAt
  rcases f.entry? (d ++ [name]) with _ | _ | _
  · exact ⟨_, create_writes f hp bytes f.now, rfl⟩
  · exact ⟨_, put_writes f hp bytes f.now, rfl⟩
  · exact ⟨_, put_writes f hp bytes f.now, rfl⟩

/-- A file is written under a name in a directory only if the path of the file is one, the name is
not too long and no directory has it. -/
theorem write_join_eq_ok (hn : IsName name) {q : Place} (hl : f.locate base = .ok q)
    (hdir : f.isDirAt q = true) {bytes : List UInt8}
    (h : f.write (join base name) bytes = .ok g) :
    pathError? (join base name) = none ∧ ¬ maxName < name.utf8ByteSize ∧
      f.isDirAt (q ++ [name]) = false ∧ f.Writes (q ++ [name]) bytes g := by
  obtain ⟨d, hd, -, hl'⟩ := exists_walk_of_isDir (isDir_of_locate hl hdir)
  obtain rfl : d = q := Except.ok.inj (hl'.symm.trans hl)
  cases hpath : pathError? (join base name) with
  | some e =>
    rw [write_of_pathError? hpath] at h
    contradiction
  | none =>
    obtain ⟨g', hwrites, hwrite⟩ := write_join hn hpath hd hdir bytes
    rw [hwrite] at h
    split at h
    · contradiction
    · rename_i hlong
      split at h
      · contradiction
      · rename_i hfile
        exact ⟨rfl, hlong, Bool.eq_false_iff.mpr hfile, Except.ok.inj h ▸ hwrites⟩

theorem copy_eq_ok_iff {source path : String} : f.copy source path = .ok g ↔
    ∃ bytes, f.read source = .ok bytes ∧ f.write path bytes = .ok g := by
  unfold copy read
  rcases f.lookup source with e | bytes | _ <;> simp

/-- From `f` to `g` nothing was done but below the place `q`, and nothing was removed there. -/
structure Tended (q : Place) (f g : Files) : Prop where
  grows : f.Grows g
  outside : g.contents.filter (outside q) = f.contents.filter (outside q)
  workingDir : g.workingDir = f.workingDir
  now : g.now = f.now

theorem Tended.refl (q : Place) (f : Files) : f.Tended q f :=
  ⟨⟨fun _ hp => hp, fun _ hp => hp⟩, rfl, rfl, rfl⟩

theorem Tended.trans {q : Place} {k : Files} (h : f.Tended q g) (h' : g.Tended q k) :
    f.Tended q k :=
  ⟨h.grows.trans h'.grows, h'.outside.trans h.outside, h'.workingDir.trans h.workingDir,
    h'.now.trans h.now⟩

theorem Tended.locate {q p : Place} (h : f.Tended q g) {path : String}
    (hl : f.locate path = .ok p) : g.locate path = .ok p := h.grows.locate h.workingDir hl

theorem write_tended (hn : IsName name) {q : Place} (hl : f.locate base = .ok q)
    (hdir : f.isDirAt q = true) {bytes : List UInt8}
    (h : f.write (join base name) bytes = .ok g) : f.Tended q g := by
  obtain ⟨-, -, hfile, hwrites⟩ := write_join_eq_ok hn hl hdir h
  refine ⟨⟨fun p hp => ?_, fun p hp => ?_⟩, hwrites.outside q (List.prefix_append _ _),
    hwrites.workingDir, hwrites.now⟩
  · have hne : p ≠ q ++ [name] := by
      rintro rfl
      exact absurd hp (Bool.eq_false_iff.mp hfile)
    rwa [isDirAt_eq, hwrites.shape?, if_neg hne, ← isDirAt_eq]
  · rw [hwrites.shape?]
    split
    · rfl
    · exact hp

theorem copy_tended (hn : IsName name) {q : Place} (hl : f.locate base = .ok q)
    (hdir : f.isDirAt q = true) {source : String} (h : f.copy source (join base name) = .ok g) :
    f.Tended q g := by
  obtain ⟨bytes, -, hwrite⟩ := copy_eq_ok_iff.mp h
  exact write_tended hn hl hdir hwrite

end

end LiveTrace.Files
