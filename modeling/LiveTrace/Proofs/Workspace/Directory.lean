import LiveTrace.Proofs.Files.Making
import LiveTrace.Workspace.Basic

/-
  The working directory of a run, from its making to its removal. Under an id that nothing has,
  it is made anew (`create_made`); what a run brings in stays below it (`writeFile_tended`,
  `stageFile_tended`); and when it is removed, the tree is what it was, but for directories
  above it that were missing before (`onlyMakes_removed`).
-/
namespace LiveTrace

open Files (pathError?)
open LiveTrace.Path (above join)

/-- A name that occurs nowhere in a tree. -/
structure Files.IsUnused (f : Files) (name : String) : Prop where
  workingDir : name ∉ f.workingDir
  entries : ∀ x ∈ f.entries, name ∉ x.1

theorem Files.IsUnused.alike {f g : Files} {name : String} (h : f.IsUnused name)
    (hg : f.Alike g) : g.IsUnused name := by
  refine ⟨hg.workingDir ▸ h.workingDir, fun x hx => ?_⟩
  have hplace : (x.1, x.2.withModified 0) ∈ f.contents :=
    hg.contents ▸ List.mem_map.mpr ⟨x, hx, rfl⟩
  obtain ⟨y, hy, heq⟩ := List.mem_map.mp hplace
  exact congrArg Prod.fst heq ▸ h.entries y hy

theorem Files.IsUnused.shape? {f : Files} {name : String} (h : f.IsUnused name) {p : Place}
    (hp : name ∈ p) : f.shape? p = none := shape?_eq_none hp h.entries

theorem Files.IsUnused.outside {f : Files} {name : String} (h : f.IsUnused name) {q : Place}
    (hq : name ∈ q) : f.contents.filter (Files.outside q) = f.contents := by
  refine List.filter_eq_self.mpr fun x hx => ?_
  obtain ⟨y, hy, rfl⟩ := List.mem_map.mp hx
  unfold Files.outside
  rw [Bool.not_eq_true', Bool.eq_false_iff]
  intro hprefix
  exact h.entries y hy ((List.isPrefixOf_iff_prefix.mp hprefix).subset hq)

namespace Workspace

/-- The working directory stands at a place. -/
structure StandsAt (w : Workspace) (f : Files) (q : Place) : Prop where
  locate : f.locate w.dir = .ok q
  isDirAt : f.isDirAt q = true

variable {w : Workspace} {f g : Files} {q : Place} {base : String} {n : Nat}

theorem StandsAt.tended {w' : Workspace} (h : w.StandsAt f q) (ht : f.Tended q g)
    (hdir : w'.dir = w.dir) : w'.StandsAt g q :=
  ⟨hdir ▸ ht.locate h.locate, ht.grows.dirs q h.isDirAt⟩

/-! ## Making it -/

/-- Where the directory that it stands in is there, a working directory is made by itself. -/
theorem create_eq (hnew : f.IsUnused (RunId.ofIndex n)) {d : Place}
    (hd : f.walk (f.start base) (above base) = .ok d) (hdir : f.isDirAt d = true) :
    create base n f =
      match pathError? (join base (RunId.ofIndex n)) with
      | some e => (f, .error (.create (join base (RunId.ofIndex n)) e))
      | none =>
        if Files.maxName < (RunId.ofIndex n).utf8ByteSize then
          (f, .error (.create (join base (RunId.ofIndex n)) .nameTooLong))
        else (f.create (d ++ [RunId.ofIndex n]) (.dir f.now),
          .ok ⟨RunId.ofIndex n, join base (RunId.ofIndex n), []⟩) := by
  have hgone := hnew.shape? (p := d ++ [RunId.ofIndex n]) (by simp)
  unfold create
  dsimp only
  rw [Files.makeDirAll_eq (RunId.isName_ofIndex n) hd hdir hgone]
  cases pathError? (join base (RunId.ofIndex n)) with
  | some e => rfl
  | none =>
    dsimp only
    by_cases hlong : Files.maxName < (RunId.ofIndex n).utf8ByteSize
    · rw [if_pos hlong, if_pos hlong]
    · rw [if_neg hlong, if_neg hlong]

/-- Where the directory that it stands in is there, a working directory that cannot be made leaves
nothing behind. -/
theorem create_failed (hnew : f.IsUnused (RunId.ofIndex n)) (hbase : f.isDir base = true)
    {e : WorkspaceError} (h : create base n f = (g, .error e)) : g = f := by
  obtain ⟨d, hd, hdir, -⟩ := Files.exists_walk_of_isDir hbase
  rw [create_eq hnew hd hdir] at h
  cases hpath : pathError? (join base (RunId.ofIndex n)) with
  | some cause =>
    rw [hpath] at h
    exact (congrArg Prod.fst h).symm
  | none =>
    rw [hpath] at h
    dsimp only at h
    split at h
    · exact (congrArg Prod.fst h).symm
    · exact nomatch congrArg Prod.snd h

/-- A working directory is made under the id of its run, and nothing else is made where the
directory it stands in is there already. -/
theorem create_made (hnew : f.IsUnused (RunId.ofIndex n)) (h : create base n f = (g, .ok w)) :
    w = ⟨RunId.ofIndex n, join base (RunId.ofIndex n), []⟩ ∧ ∃ made q,
      RunId.ofIndex n ∈ q ∧ f.OnlyMakes g made ∧ w.StandsAt g q ∧
        (f.isDir base = true → made = [q]) := by
  have hn := RunId.isName_ofIndex n
  obtain ⟨made, hmade⟩ := f.makeDirAll_onlyMakes (join base (RunId.ofIndex n))
  unfold create at h
  dsimp only at h
  rcases hall : f.makeDirAll (join base (RunId.ofIndex n)) with ⟨g', _ | e⟩
  · rw [hall] at h hmade
    obtain ⟨rfl, hw⟩ := Prod.mk.inj h
    obtain rfl := Except.ok.inj hw
    have hne : join base (RunId.ofIndex n) ≠ "" :=
      mt String.toList_eq_nil_iff.mpr (Files.join_ne_empty hn base)
    obtain ⟨q, -, hdir, hl⟩ := Files.exists_walk_of_isDir (Files.makeDirAll_isDir hne hall)
    obtain ⟨d, hd, rfl⟩ := Files.locate_join_eq_ok hn hl
    refine ⟨rfl, made, _, by simp, hmade, ⟨hl, hdir⟩, fun hbase => ?_⟩
    -- The directory above was there, and it is still the same place.
    obtain ⟨d', hd', hdir', -⟩ := Files.exists_walk_of_isDir hbase
    have hsame : g'.start base = f.start base := by
      unfold Files.start
      rw [hmade.workingDir]
    have hwalk := hmade.grows.walk hd'
    rw [← hsame, hd] at hwalk
    obtain rfl := Except.ok.inj hwalk
    have hgone := hnew.shape? (p := d ++ [RunId.ofIndex n]) (by simp)
    rw [Files.makeDirAll_eq hn hd' hdir' hgone] at hall
    have hcontents : g'.contents = f.contents ++ [(d ++ [RunId.ofIndex n], .dir 0)] := by
      cases hpath : pathError? (join base (RunId.ofIndex n)) with
      | some e =>
        rw [hpath] at hall
        exact nomatch congrArg Prod.snd hall
      | none =>
        rw [hpath] at hall
        dsimp only at hall
        split at hall
        · exact nomatch congrArg Prod.snd hall
        · obtain rfl := congrArg Prod.fst hall
          exact (Files.create_onlyMakes hgone f.now).contents
    have hmap := List.append_cancel_left (hmade.contents.symm.trans hcontents)
    have hplaces := congrArg (List.map Prod.fst) hmap
    rw [List.map_map] at hplaces
    exact (List.map_id made).symm.trans hplaces
  · rw [hall] at h
    exact nomatch congrArg Prod.snd h

/-! ## Bringing files in -/

/-- Something that is done in a working directory and leaves the rest of the tree alone. -/
structure Tends (w : Workspace) (f : Files) (q : Place) (r : Staging) : Prop where
  dir : r.workspace.dir = w.dir
  files : f.Tended q r.files

theorem claim_dir {w w' : Workspace} {name path : String} (h : w.claim name = .ok (w', path)) :
    w'.dir = w.dir ∧ path = join w.dir name := by
  unfold claim at h
  split at h
  · contradiction
  · obtain ⟨rfl, rfl⟩ := Prod.mk.inj (Except.ok.inj h)
    exact ⟨rfl, rfl⟩

theorem writeFile_tends (h : w.StandsAt f q) {name : String} (hn : Path.IsName name)
    (bytes : List UInt8) : w.Tends f q (w.writeFile f name bytes) := by
  unfold writeFile
  cases hclaim : w.claim name with
  | error e => exact ⟨rfl, .refl q f⟩
  | ok claimed =>
    obtain ⟨w', path⟩ := claimed
    obtain ⟨hdir, rfl⟩ := claim_dir hclaim
    dsimp only
    cases hwrite : f.write (join w.dir name) bytes with
    | error e => exact ⟨hdir, .refl q f⟩
    | ok g => exact ⟨hdir, Files.write_tended hn h.locate h.isDirAt hwrite⟩

theorem stageFile_tends (h : w.StandsAt f q) (source : String) :
    w.Tends f q (w.stageFile f source) := by
  unfold stageFile
  cases hname : Path.fileName? source with
  | none => exact ⟨rfl, .refl q f⟩
  | some name =>
    have hn := Path.isName_of_fileName? hname
    dsimp only
    cases hclaim : w.claim name with
    | error e => exact ⟨rfl, .refl q f⟩
    | ok claimed =>
      obtain ⟨w', path⟩ := claimed
      obtain ⟨hdir, rfl⟩ := claim_dir hclaim
      dsimp only
      cases hcopy : f.copy source (join w.dir name) with
      | error e => exact ⟨hdir, .refl q f⟩
      | ok g => exact ⟨hdir, Files.copy_tended hn h.locate h.isDirAt hcopy⟩

/-! ## Removing it -/

theorem remove_eq (h : w.StandsAt f q) : w.remove f = (f.removeAt q, []) := by
  unfold remove Files.removeDirAll
  rw [Files.pathExists_of_locate h.locate h.isDirAt, h.locate]
  dsimp only
  rw [h.isDirAt]
  rfl

/-- What is left when a working directory is removed, whatever was brought into it: the tree as it
was before, and the directories that were made above it. -/
theorem onlyMakes_removed {k : Files} {name : String} {made : List Place} (hnew : f.IsUnused name)
    (hq : name ∈ q) (hmade : f.OnlyMakes g made) (ht : g.Tended q k) :
    f.OnlyMakes (k.removeAt q) (made.filter fun p => !q.isPrefixOf p) := by
  refine ⟨?_, ht.workingDir.trans hmade.workingDir, ht.now.trans hmade.now⟩
  rw [Files.contents_removeAt, ht.outside, hmade.contents, List.filter_append, hnew.outside hq,
    List.filter_map]
  rfl

end Workspace

end LiveTrace
