import LiveTrace.Proofs.Files.Mirror
import LiveTrace.Proofs.Workspace.Directory

/-
  The working directories of two runs, `a` and `b`, in trees that are otherwise the same. Making
  them fails for both or for neither (`create_mirror`), and the same files can be brought into
  both (`writeFile_twin`, `stageFile_twin`). What an error says differs in the run it tells of and
  in nothing else (`WorkspaceError.Twin`).
-/
namespace LiveTrace

open LiveTrace.Path (above join Avoids Interchangeable IsName)

/-- The same error, told of the run `b` instead of the run `a`. -/
inductive WorkspaceError.Twin (root a b : String) : WorkspaceError → WorkspaceError → Prop where
  | same (e : WorkspaceError) : Twin root a b e e
  | create (cause : IoError) :
    Twin root a b (.create (join root a) cause) (.create (join root b) cause)
  | write {name : String} (hn : IsName name) (cause : IoError) :
    Twin root a b (.write (join (join root a) name) cause) (.write (join (join root b) name) cause)
  | alreadyPresent (name : String) :
    Twin root a b (.alreadyPresent name a) (.alreadyPresent name b)

/-- The working directories of two runs, in which the same names are claimed. -/
inductive Workspace.Twin (root a b : String) : Workspace → Workspace → Prop where
  | intro (claimed : List String) :
    Twin root a b ⟨a, join root a, claimed⟩ ⟨b, join root b, claimed⟩

/-- The same was done in the working directories of two runs. -/
structure Staging.Twin (root a b : String) (d : Place) (x y : Staging) : Prop where
  workspace : x.workspace.Twin root a b y.workspace
  files : x.files.Mirror root a b d y.files
  result : Paired (WorkspaceError.Twin root a b) (Path.Twin root a b) x.result y.result

namespace Workspace

variable {root a b : String} {d : Place} {f g : Files} {v w : Workspace}

theorem writeFile_twin (hw : w.Twin root a b v) (hm : f.Mirror root a b d g)
    (hi : Interchangeable a b) {name : String} (hn : IsName name) (bytes : List UInt8) :
    (w.writeFile f name bytes).Twin root a b d (v.writeFile g name bytes) := by
  cases hw with
  | intro claimed =>
    unfold writeFile claim
    by_cases hc : claimed.contains name = true
    · rw [if_pos hc, if_pos hc]
      exact ⟨.intro claimed, hm, .error (.alreadyPresent name)⟩
    · have hwrite := hm.write hi hn bytes
      rw [if_neg hc, if_neg hc]
      dsimp only
      generalize f.write (join (join root a) name) bytes = x at hwrite ⊢
      generalize g.write (join (join root b) name) bytes = y at hwrite ⊢
      cases hwrite with
      | @error e _ h =>
        subst h
        exact ⟨.intro _, hm, .error (.write hn e)⟩
      | ok h => exact ⟨.intro _, h, .ok (.own hn)⟩

theorem stageFile_twin (hw : w.Twin root a b v) (hm : f.Mirror root a b d g)
    (hi : Interchangeable a b) {source : String} (ha : Avoids source a) (hb : Avoids source b) :
    (w.stageFile f source).Twin root a b d (v.stageFile g source) := by
  cases hw with
  | intro claimed =>
    unfold stageFile claim
    cases hname : Path.fileName? source with
    | none => exact ⟨.intro claimed, hm, .error (.same _)⟩
    | some name =>
      have hn := Path.isName_of_fileName? hname
      dsimp only
      by_cases hc : claimed.contains name = true
      · rw [if_pos hc, if_pos hc]
        exact ⟨.intro claimed, hm, .error (.alreadyPresent name)⟩
      · have hcopy := hm.copy hi (.same ha hb) hn
        rw [if_neg hc, if_neg hc]
        dsimp only
        generalize f.copy source (join (join root a) name) = x at hcopy ⊢
        generalize g.copy source (join (join root b) name) = y at hcopy ⊢
        cases hcopy with
        | @error e _ h =>
          subst h
          exact ⟨.intro _, hm, .error (.same _)⟩
        | ok h => exact ⟨.intro _, h, .ok (.own hn)⟩

/-! ## Making them -/

/-- Two trees that were the same get a working directory each. -/
theorem mirror_created (hfg : f.Alike g) (ha : f.IsUnused a) (hb : f.IsUnused b)
    (hi : Interchangeable a b) (hd : f.walk (f.start root) (above root) = .ok d)
    (hdir : f.isDirAt d = true) (hpath : Files.pathError? (join root a) = none)
    (hlong : ¬ Files.maxName < a.utf8ByteSize) :
    (f.create (d ++ [a]) (.dir f.now)).Mirror root a b d (g.create (d ++ [b]) (.dir g.now)) := by
  have hshape := Files.shape?_of_contents hfg.contents
  have hstart : g.start root = f.start root := by
    unfold Files.start
    rw [hfg.workingDir]
  have hd' : g.walk (g.start root) (above root) = .ok d := by rw [hstart, hfg.walk, hd]
  have hpath' : Files.pathError? (join root b) = none :=
    (Files.pathError?_congr (hi.join root).1 (hi.join root).2).trans hpath
  have hgone : g.shape? (d ++ [b]) = none := (hshape _).trans (hb.shape? (by simp))
  obtain ⟨hworkingDir, hnow⟩ := f.create_outside (d ++ [a]) (.dir f.now)
  obtain ⟨hworkingDir', hnow'⟩ := g.create_outside (d ++ [b]) (.dir g.now)
  refine ⟨?_, ?_, ?_, fun p hpa hpb => ?_, fun name => ?_, ⟨?_, ?_⟩, ⟨?_, ?_⟩⟩
  · rw [hworkingDir, hworkingDir', hfg.workingDir]
  · rw [hnow, hnow', hfg.now]
  · rw [hworkingDir]
    exact ⟨ha.workingDir, hb.workingDir⟩
  · have hne : p ≠ d ++ [a] := fun heq => hpa (heq ▸ by simp)
    have hne' : p ≠ d ++ [b] := fun heq => hpb (heq ▸ by simp)
    rw [Files.shape?_create f (by simp), Files.shape?_create g (by simp), if_neg hne, if_neg hne',
      hshape]
  · -- Nothing is in a new directory.
    rw [Files.shape?_create f (by simp), Files.shape?_create g (by simp), if_neg (by simp),
      if_neg (by simp), hshape, hb.shape? (by simp), ha.shape? (by simp)]
  · exact Files.locate_created (Files.target_join_of_walk hi.left hpath hd hdir) hlong
      (ha.shape? (by simp)) f.now
  · exact Files.isDirAt_create f d a f.now
  · exact Files.locate_created
      (Files.target_join_of_walk hi.right hpath' hd' (hfg.isDirAt d ▸ hdir)) (hi.size ▸ hlong) hgone
      g.now
  · exact Files.isDirAt_create g d b g.now

/-- A working directory is made in both trees, for the runs `a` and `b`, or in neither. -/
theorem create_mirror {m n : Nat} (hfg : f.Alike g) (hroot : f.isDir root = true)
    (ha : f.IsUnused (RunId.ofIndex m)) (hb : f.IsUnused (RunId.ofIndex n))
    (hi : Interchangeable (RunId.ofIndex m) (RunId.ofIndex n)) :
    (∃ cause, create root m f = (f, .error (.create (join root (RunId.ofIndex m)) cause)) ∧
      create root n g = (g, .error (.create (join root (RunId.ofIndex n)) cause))) ∨
    ∃ d f' g', create root m f = (f', .ok ⟨RunId.ofIndex m, join root (RunId.ofIndex m), []⟩) ∧
      create root n g = (g', .ok ⟨RunId.ofIndex n, join root (RunId.ofIndex n), []⟩) ∧
      f'.Mirror root (RunId.ofIndex m) (RunId.ofIndex n) d g' := by
  obtain ⟨d, hd, hdir, -⟩ := Files.exists_walk_of_isDir hroot
  have hd' : g.walk (g.start root) (above root) = .ok d := by
    have hstart : g.start root = f.start root := by
      unfold Files.start
      rw [hfg.workingDir]
    rw [hstart, hfg.walk, hd]
  have hb' : g.IsUnused (RunId.ofIndex n) := hb.alike hfg
  rw [create_eq ha hd hdir, create_eq hb' hd' (hfg.isDirAt d ▸ hdir),
    Files.pathError?_congr (hi.join root).1 (hi.join root).2, hi.size]
  cases hpath : Files.pathError? (join root (RunId.ofIndex m)) with
  | some e => exact .inl ⟨e, rfl, rfl⟩
  | none =>
    dsimp only
    by_cases hlong : Files.maxName < (RunId.ofIndex m).utf8ByteSize
    · rw [if_pos hlong, if_pos hlong]
      exact .inl ⟨_, rfl, rfl⟩
    · rw [if_neg hlong, if_neg hlong]
      exact .inr ⟨d, _, _, rfl, rfl, mirror_created hfg ha hb hi hd hdir hpath hlong⟩

end Workspace

end LiveTrace
