import LiveTrace.Proofs.Files.Making

/-
  Two trees, each with the working directory of a run, under the names `a` and `b`. Otherwise they
  are the same, and the two directories hold the same files (`Mirror`). What is read by a path
  that has neither name, or from under one name in both directories, is the same in both trees
  (`Mirror.read`), and a file that is brought into both directories keeps them the same
  (`Mirror.write`, `Mirror.copy`).
-/
namespace LiveTrace

/-- Two results of the same kind: two failures related by `E`, or two values related by `A`. -/
inductive Paired {ε ε' α α' : Type} (E : ε → ε' → Prop) (A : α → α' → Prop) :
    Except ε α → Except ε' α' → Prop where
  | error {e : ε} {e' : ε'} (h : E e e') : Paired E A (.error e) (.error e')
  | ok {a : α} {a' : α'} (h : A a a') : Paired E A (.ok a) (.ok a')

namespace Path

/-- A path without a name. -/
def Avoids (path name : String) : Prop := name.toList ∉ pieces path.toList

/-- What the run `b` calls a file that the run `a` knows by its path. The path is the same for both,
or leads to the same name in the working directory of either. -/
inductive Twin (root a b : String) : String → String → Prop where
  | same {path : String} (ha : Avoids path a) (hb : Avoids path b) : Twin root a b path path
  | own {name : String} (hn : IsName name) :
    Twin root a b (join (join root a) name) (join (join root b) name)

end Path

namespace Files

open LiveTrace.Path (above join Avoids Interchangeable IsName Twin)

/-- The same tree but for the working directories `a` and `b`, which stand in the same place `d` and
hold the same files. -/
structure Mirror (root a b : String) (d : Place) (f g : Files) : Prop where
  workingDir : g.workingDir = f.workingDir
  now : g.now = f.now
  elsewhere : a ∉ f.workingDir ∧ b ∉ f.workingDir
  common : ∀ p, a ∉ p → b ∉ p → g.shape? p = f.shape? p
  own : ∀ name, g.shape? (d ++ [b] ++ [name]) = f.shape? (d ++ [a] ++ [name])
  left : f.locate (join root a) = .ok (d ++ [a]) ∧ f.isDirAt (d ++ [a]) = true
  right : g.locate (join root b) = .ok (d ++ [b]) ∧ g.isDirAt (d ++ [b]) = true

variable {f g : Files} {root a b name path path' : String} {d : Place}

theorem pathError?_congr (hnul : path'.toList.contains '\x00' = path.toList.contains '\x00')
    (hsize : path'.utf8ByteSize = path.utf8ByteSize) : pathError? path' = pathError? path := by
  unfold pathError? String.isEmpty
  rw [hnul, hsize]

/-! ## Reading -/

/-- Where a name in a directory leads. -/
theorem locate_name (hn : IsName name) {q : Place} (hl : f.locate path = .ok q)
    (hdir : f.isDirAt q = true) :
    f.locate (join path name) =
      match pathError? (join path name) with
      | some e => .error e
      | none =>
        if maxName < name.utf8ByteSize then .error .nameTooLong
        else if (f.shape? (q ++ [name])).isSome then .ok (q ++ [name])
        else .error .notFound := by
  obtain ⟨q', hwalk, -, hl'⟩ := exists_walk_of_isDir (isDir_of_locate hl hdir)
  obtain rfl : q' = q := Except.ok.inj (hl'.symm.trans hl)
  cases hpath : pathError? (join path name) with
  | some e =>
    unfold locate
    rw [hpath]
  | none =>
    rw [locate_join hn hpath, hwalk]
    change f.stride q' name.toList = _
    rw [stride_name hn, hdir]
    rfl

/-- What is found under a name in a directory. -/
theorem lookup_name (hn : IsName name) {q : Place} (hl : f.locate path = .ok q)
    (hdir : f.isDirAt q = true) :
    (f.lookup (join path name)).map (Entry.withModified 0) =
      match pathError? (join path name) with
      | some e => .error e
      | none =>
        if maxName < name.utf8ByteSize then .error .nameTooLong
        else match f.shape? (q ++ [name]) with
          | some e => .ok e
          | none => .error .notFound := by
  unfold lookup shape?
  rw [locate_name hn hl hdir, ← isSome_entry?]
  cases pathError? (join path name) with
  | some e => rfl
  | none =>
    dsimp only
    by_cases hlong : maxName < name.utf8ByteSize
    · rw [if_pos hlong, if_pos hlong]
      rfl
    · rw [if_neg hlong, if_neg hlong]
      cases hentry : f.entry? (q ++ [name]) with
      | none => rfl
      | some e =>
        rw [if_pos (Option.isSome_some)]
        dsimp only
        rw [hentry]
        rfl

/-- A path without some names leads to the same in two trees that differ only under these names. -/
theorem lookup_of_avoids {names : List String} (hpath : ∀ name ∈ names, Avoids path name)
    (hnames : ∀ name ∈ names, name ∉ f.workingDir) (hworkingDir : g.workingDir = f.workingDir)
    (hshape : ∀ p, (∀ name ∈ names, name ∉ p) → g.shape? p = f.shape? p) :
    (g.lookup path).map (Entry.withModified 0) = (f.lookup path).map (Entry.withModified 0) := by
  refine lookup_eq_of_shape hshape
    (fun p hp name hname => mt (List.dropLast_subset p ·) (hp name hname))
    (fun p piece hpiece hp name hname => ?_) hworkingDir ?_
  · have hne : name ≠ String.ofList piece := by
      rintro rfl
      have havoids := hpath _ hname
      unfold Avoids at havoids
      rw [String.toList_ofList] at havoids
      exact havoids hpiece
    simpa using ⟨hp name hname, hne⟩
  · unfold start
    split
    · exact fun _ _ => List.not_mem_nil
    · exact hnames

theorem Mirror.lookup (hm : Mirror root a b d f g) (hi : Interchangeable a b)
    (hp : Twin root a b path path') :
    (g.lookup path').map (Entry.withModified 0) = (f.lookup path).map (Entry.withModified 0) := by
  have hpair {P : String → Prop} : (∀ name ∈ [a, b], P name) ↔ P a ∧ P b := by simp
  cases hp with
  | same ha hb =>
    -- No step of the walk comes by either working directory.
    exact lookup_of_avoids (hpair.mpr ⟨ha, hb⟩) (hpair.mpr hm.elsewhere) hm.workingDir fun p hp =>
      hm.common p (hpair.mp hp).1 (hpair.mp hp).2
  | own hn =>
    obtain ⟨hnul, hsize⟩ := hi.join_join root hn
    rw [lookup_name hn hm.left.1 hm.left.2, lookup_name hn hm.right.1 hm.right.2,
      pathError?_congr hnul hsize, hm.own]

theorem Mirror.read (hm : Mirror root a b d f g) (hi : Interchangeable a b)
    (hp : Twin root a b path path') : g.read path' = f.read path := by
  rw [read_eq, read_eq, hm.lookup hi hp]

theorem Mirror.readText (hm : Mirror root a b d f g) (hi : Interchangeable a b)
    (hp : Twin root a b path path') : g.readText path' = f.readText path := by
  unfold Files.readText
  rw [hm.read hi hp]

theorem Mirror.pathExists (hm : Mirror root a b d f g) (hi : Interchangeable a b)
    (hp : Twin root a b path path') : g.pathExists path' = f.pathExists path := by
  rw [pathExists_eq, pathExists_eq, hm.lookup hi hp]

/-! ## Writing -/

/-- The same file is written under the same name in both working directories. -/
theorem Mirror.writes {f' g' : Files} {bytes : List UInt8} (hm : Mirror root a b d f g)
    (hf : f.Writes (d ++ [a] ++ [name]) bytes f') (hg : g.Writes (d ++ [b] ++ [name]) bytes g')
    (hft : f.Tended (d ++ [a]) f') (hgt : g.Tended (d ++ [b]) g') : Mirror root a b d f' g' := by
  refine ⟨?_, ?_, ?_, fun p ha hb => ?_, fun name' => ?_, ?_, ?_⟩
  · rw [hg.workingDir, hf.workingDir, hm.workingDir]
  · rw [hg.now, hf.now, hm.now]
  · rw [hf.workingDir]
    exact hm.elsewhere
  · have hpa : p ≠ d ++ [a] ++ [name] := fun heq => ha (heq ▸ by simp)
    have hpb : p ≠ d ++ [b] ++ [name] := fun heq => hb (heq ▸ by simp)
    rw [hf.shape?, hg.shape?, if_neg hpa, if_neg hpb, hm.common p ha hb]
  · rw [hf.shape?, hg.shape?, hm.own name']
    simp only [List.append_cancel_left_eq]
  · exact ⟨hft.locate hm.left.1, hft.grows.dirs _ hm.left.2⟩
  · exact ⟨hgt.locate hm.right.1, hgt.grows.dirs _ hm.right.2⟩

theorem Mirror.write (hm : Mirror root a b d f g) (hi : Interchangeable a b) (hn : IsName name)
    (bytes : List UInt8) :
    Paired Eq (Mirror root a b d) (f.write (join (join root a) name) bytes)
      (g.write (join (join root b) name) bytes) := by
  obtain ⟨hnul, hsize⟩ := hi.join_join root hn
  have hsame := pathError?_congr hnul hsize
  cases hpath : pathError? (join (join root a) name) with
  | some e =>
    rw [write_of_pathError? hpath, write_of_pathError? (hsame.trans hpath)]
    exact .error rfl
  | none =>
    obtain ⟨p, hp, -, hp'⟩ := exists_walk_of_isDir (isDir_of_locate hm.left.1 hm.left.2)
    obtain ⟨q, hq, -, hq'⟩ := exists_walk_of_isDir (isDir_of_locate hm.right.1 hm.right.2)
    obtain rfl := Except.ok.inj (hp'.symm.trans hm.left.1)
    obtain rfl := Except.ok.inj (hq'.symm.trans hm.right.1)
    obtain ⟨f', hf, hwf⟩ := write_join hn hpath hp hm.left.2 bytes
    obtain ⟨g', hg, hwg⟩ := write_join hn (hsame.trans hpath) hq hm.right.2 bytes
    have hdir : g.isDirAt (d ++ [b] ++ [name]) = f.isDirAt (d ++ [a] ++ [name]) := by
      rw [isDirAt_eq, isDirAt_eq, hm.own]
    have hft (h : f.write (join (join root a) name) bytes = .ok f') : f.Tended (d ++ [a]) f' :=
      write_tended hn hm.left.1 hm.left.2 h
    have hgt (h : g.write (join (join root b) name) bytes = .ok g') : g.Tended (d ++ [b]) g' :=
      write_tended hn hm.right.1 hm.right.2 h
    rw [hwf] at hft ⊢
    rw [hwg, hdir] at hgt ⊢
    split
    · exact .error rfl
    · rename_i hlong
      rw [if_neg hlong] at hft hgt
      split
      · exact .error rfl
      · rename_i hfile
        rw [if_neg hfile] at hft hgt
        exact .ok (hm.writes hf hg (hft rfl) (hgt rfl))

theorem copy_eq (f : Files) (source path : String) :
    f.copy source path = match (f.lookup source).map (Entry.withModified 0) with
      | .error e => .error e
      | .ok (.dir _) => .error .notRegular
      | .ok (.file bytes _) => f.write path bytes := by
  unfold copy
  rcases f.lookup source with e | _ | _ <;> rfl

theorem Mirror.copy {source : String} (hm : Mirror root a b d f g) (hi : Interchangeable a b)
    (hs : Twin root a b source source) (hn : IsName name) :
    Paired Eq (Mirror root a b d) (f.copy source (join (join root a) name))
      (g.copy source (join (join root b) name)) := by
  rw [copy_eq, copy_eq, hm.lookup hi hs]
  rcases (f.lookup source).map (Entry.withModified 0) with e | bytes | _
  · exact .error rfl
  · exact hm.write hi hn bytes
  · exact .error rfl

end Files

end LiveTrace
