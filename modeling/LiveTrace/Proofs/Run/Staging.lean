import LiveTrace.Proofs.Files.Mirror
import LiveTrace.Proofs.Run.Cleanup
import Mathlib.Data.List.Nodup

/-
  What becomes of the dependencies of a run. The references are staged one after another, and what
  is copied first is there when the next one is looked at; yet whether all can be staged is a
  matter of the tree as it was before the first of them (`Stageable`). One reference more is staged
  or refused (`stageDependency_staged`), so the whole list is staged, or its first reference that
  is refused decides (`stageDependencies_staged`). Copies are under names of their own in a
  directory that nothing else refers to, so they disturb neither each other nor what is there
  (`Staged`).
-/
namespace LiveTrace

open LiveTrace.Path (Avoids IsName join)

/-! ## Copies in two trees -/

namespace Files

variable {f g : Files} {base source path name : String} {q : Place}

/-- A file is copied into a directory only if the path of the copy is one, and its name is not too
long. -/
theorem fits_of_copy (hn : IsName name) {w : Workspace} (hw : w.StandsAt f q)
    (h : f.copy source (join w.dir name) = .ok g) :
    pathError? (join w.dir name) = none ∧ ¬ maxName < name.utf8ByteSize := by
  obtain ⟨bytes, -, hwrite⟩ := copy_eq_ok_iff.mp h
  obtain ⟨hpath, hlong, -⟩ := write_join_eq_ok hn hw.locate hw.isDirAt hwrite
  exact ⟨hpath, hlong⟩

/-- A file is copied into the same directory of two trees that have the same source and the same
under the name of the copy. Both copies fail for the same reason, or neither does. -/
theorem copy_same (hn : IsName name) {v w : Workspace} (hw : w.StandsAt f q) (hv : v.StandsAt g q)
    (hdir : v.dir = w.dir)
    (hsource : (g.lookup source).map (Entry.withModified 0) =
      (f.lookup source).map (Entry.withModified 0))
    (hplace : g.shape? (q ++ [name]) = f.shape? (q ++ [name])) :
    Paired Eq (fun _ g' => ∃ bytes, f.read source = .ok bytes ∧ g.Writes (q ++ [name]) bytes g')
      (f.copy source (join w.dir name)) (g.copy source (join v.dir name)) := by
  rw [copy_eq, copy_eq, read_eq, hsource, hdir]
  rcases (f.lookup source).map (Entry.withModified 0) with e | bytes | _
  · exact .error rfl
  · dsimp only
    cases hpath : pathError? (join w.dir name) with
    | some e =>
      rw [write_of_pathError? hpath, write_of_pathError? hpath]
      exact .error rfl
    | none =>
      obtain ⟨d, hd, -, hd'⟩ := exists_walk_of_isDir (isDir_of_locate hw.locate hw.isDirAt)
      obtain ⟨e, he, -, he'⟩ := exists_walk_of_isDir (isDir_of_locate hv.locate hv.isDirAt)
      obtain rfl := Except.ok.inj (hd'.symm.trans hw.locate)
      obtain rfl := Except.ok.inj (he'.symm.trans hv.locate)
      rw [hdir] at he
      obtain ⟨f', -, hf⟩ := write_join hn hpath hd hw.isDirAt bytes
      obtain ⟨g', hg', hg⟩ := write_join hn hpath he hv.isDirAt bytes
      rw [hf, hg, isDirAt_eq, isDirAt_eq, hplace]
      split
      · exact .error rfl
      · split
        · exact .error rfl
        · exact .ok ⟨bytes, rfl, hg'⟩
  · exact .error rfl

/-- What stands under a name in a directory is read by the name. -/
theorem read_of_shape? (hn : IsName name) {w : Workspace} (hw : w.StandsAt f q)
    (hpath : pathError? (join w.dir name) = none) (hlong : ¬ maxName < name.utf8ByteSize)
    {bytes : List UInt8} (h : f.shape? (q ++ [name]) = some (.file bytes 0)) :
    f.read (join w.dir name) = .ok bytes := by
  rw [read_eq, lookup_name hn hw.locate hw.isDirAt, hpath]
  dsimp only
  rw [if_neg hlong, h]

/-- What was removed is not there any more. -/
theorem not_pathExists_removeAt (hl : f.locate path = .ok q) (hq : q ≠ []) :
    (f.removeAt q).pathExists path = false := by
  have hgone : entry? (f.removeAt q) q = none := by
    rw [entry?_eq_none_iff, shape?_removeAt f q hq, if_pos List.prefix_rfl]
  unfold pathExists lookup
  cases hl' : (f.removeAt q).locate path with
  | error e => rfl
  | ok p =>
    have hsame := (grows_removeAt f q).locate rfl hl'
    obtain rfl := Except.ok.inj (hsame.symm.trans hl)
    dsimp only
    rw [hgone]

end Files

/-! ## Which dependencies can be staged -/

/-- The working directory of a run is new: it has been made, and nothing was done in it. Its id is
part of no path that anybody else knows. -/
structure Workspace.IsNew (w : Workspace) (f : Files) (q : Place) : Prop where
  standsAt : w.StandsAt f q
  claimed : w.claimed = []
  own : w.runId ∈ q
  elsewhere : w.runId ∉ f.workingDir

theorem Workspace.create_isNew {base : String} {n : Nat} {f g : Files} {w : Workspace}
    (hnew : f.IsUnused (RunId.ofIndex n)) (h : create base n f = (g, .ok w)) :
    w.runId = RunId.ofIndex n ∧ ∃ q, w.IsNew g q := by
  obtain ⟨rfl, made, q, hq, hmade, hstands, -⟩ := create_made hnew h
  exact ⟨rfl, q, hstands, rfl, hq, hmade.workingDir ▸ hnew.workingDir⟩

namespace Stage

/-- The dependencies that are copied. -/
def untrusted (c : EvaluatorConfig) (paths : List String) : List String :=
  paths.filter fun path => !c.isTrusted path

/-- The path that a dependency is loaded from when it has been staged. -/
def loadedFrom (c : EvaluatorConfig) (w : Workspace) (path : String) : String :=
  if c.isTrusted path then path else join w.dir ((Path.fileName? path).getD "")

/-- Dependencies that can be staged in a new working directory `w`. All are there, and those that
are not trusted have file names, no two of them the same, and each of them can be copied. -/
structure Stageable (c : EvaluatorConfig) (f : Files) (w : Workspace) (paths : List String) :
    Prop where
  there : ∀ path ∈ paths, f.pathExists path = true
  copied : ∀ path ∈ untrusted c paths, ∃ name g, Path.fileName? path = some name ∧
    f.copy path (join w.dir name) = .ok g
  distinct : ((untrusted c paths).map Path.fileName?).Nodup

/-- Why a dependency is not staged when those in `before` have been, and the outcome that the run
has in consequence. -/
inductive Refused (c : EvaluatorConfig) (f : Files) (w : Workspace) (before : List String)
    (path : String) : RunOutcome → Prop where
  | missing (h : f.pathExists path = false) : Refused c f w before path (.missingDependency path)
  | unusable (ht : f.pathExists path = true) (hc : c.isTrusted path = false)
    (h : Path.fileName? path = none) :
    Refused c f w before path (.faulted (.workspace (.unusableName path)))
  /-- Another one has its name. -/
  | taken {name : String} (ht : f.pathExists path = true) (hc : c.isTrusted path = false)
    (hn : Path.fileName? path = some name)
    (h : some name ∈ (untrusted c before).map Path.fileName?) :
    Refused c f w before path (.faulted (.workspace (.alreadyPresent name w.runId)))
  | uncopied {name : String} {cause : IoError} (ht : f.pathExists path = true)
    (hc : c.isTrusted path = false) (hn : Path.fileName? path = some name)
    (hnew : some name ∉ (untrusted c before).map Path.fileName?)
    (h : f.copy path (join w.dir name) = .error cause) :
    Refused c f w before path (.faulted (.workspace (.copy path cause)))

section

variable {c : EvaluatorConfig} {f : Files} {w : Workspace} {before rest : List String}
  {path : String} {o : RunOutcome}

theorem untrusted_concat (hc : c.isTrusted path = false) :
    untrusted c (before ++ [path]) = untrusted c before ++ [path] := by
  unfold untrusted
  rw [List.filter_append, List.filter_cons, hc]
  rfl

theorem untrusted_concat_of_trusted (hc : c.isTrusted path = true) :
    untrusted c (before ++ [path]) = untrusted c before := by
  unfold untrusted
  rw [List.filter_append, List.filter_cons, hc]
  exact List.append_nil _

theorem stageable_nil (c : EvaluatorConfig) (f : Files) (w : Workspace) : Stageable c f w [] :=
  ⟨nofun, nofun, .nil⟩

theorem Stageable.trusted (h : Stageable c f w before) (ht : f.pathExists path = true)
    (hc : c.isTrusted path = true) : Stageable c f w (before ++ [path]) := by
  have hsame := @untrusted_concat_of_trusted c before path hc
  refine ⟨fun p hp => ?_, hsame ▸ h.copied, hsame ▸ h.distinct⟩
  rcases List.mem_append.mp hp with hp | hp
  · exact h.there p hp
  · exact List.mem_singleton.mp hp ▸ ht

theorem Stageable.copy (h : Stageable c f w before) (ht : f.pathExists path = true)
    (hc : c.isTrusted path = false) {name : String} {g : Files}
    (hn : Path.fileName? path = some name)
    (hnew : some name ∉ (untrusted c before).map Path.fileName?)
    (hcopy : f.copy path (join w.dir name) = .ok g) : Stageable c f w (before ++ [path]) := by
  have hmore : untrusted c (before ++ [path]) = untrusted c before ++ [path] :=
    untrusted_concat hc
  refine ⟨fun p hp => ?_, fun p hp => ?_, ?_⟩
  · rcases List.mem_append.mp hp with hp | hp
    · exact h.there p hp
    · exact List.mem_singleton.mp hp ▸ ht
  · rw [hmore] at hp
    rcases List.mem_append.mp hp with hp | hp
    · exact h.copied p hp
    · exact List.mem_singleton.mp hp ▸ ⟨name, g, hn, hcopy⟩
  · rw [hmore, List.map_append, List.map_singleton, hn]
    exact List.nodup_append.mpr ⟨h.distinct, List.pairwise_singleton _ _,
      fun a ha b hb heq => hnew (List.mem_singleton.mp hb ▸ heq ▸ ha)⟩

/-- Where a dependency is refused, not all can be staged. -/
theorem Refused.not_stageable (h : Refused c f w before path o) (after : List String) :
    ¬ Stageable c f w (before ++ path :: after) := by
  intro hs
  have hmem : path ∈ before ++ path :: after := by simp
  have huntrusted (hc : c.isTrusted path = false) :
      untrusted c (before ++ path :: after) = untrusted c before ++ path :: untrusted c after := by
    unfold untrusted
    rw [List.filter_append, List.filter_cons, hc]
    rfl
  cases h with
  | missing ht => exact absurd (hs.there path hmem) (by rw [ht]; exact Bool.false_ne_true)
  | unusable _ hc hn =>
    obtain ⟨name, -, hname, -⟩ := hs.copied path (by rw [huntrusted hc]; simp)
    exact nomatch hn.symm.trans hname
  | taken _ hc hn hmem =>
    have hdistinct := hs.distinct
    rw [huntrusted hc, List.map_append, List.map_cons, hn] at hdistinct
    exact (List.nodup_append.mp hdistinct).2.2 _ hmem _ List.mem_cons_self rfl
  | uncopied _ hc hn _ hcopy =>
    obtain ⟨name, g, hname, hg⟩ := hs.copied path (by rw [huntrusted hc]; simp)
    obtain rfl := Option.some.inj (hn.symm.trans hname)
    exact nomatch hcopy.symm.trans hg

end

/-! ## One dependency after another -/

/-- The dependencies `paths` have been staged in the working directory `w`, which was new in `f`
and stands at `q`. Their names are claimed, the copies have the contents of what was copied, and
there is nothing else that was not there before. -/
structure Staged {σ : Type} (c : EvaluatorConfig) (f : Files) (w : Workspace) (q : Place)
    (paths : List String) (s : Stage σ) : Prop where
  dir : s.workspace.dir = w.dir
  runId : s.workspace.runId = w.runId
  standsAt : s.workspace.StandsAt s.host.files q
  workingDir : s.host.files.workingDir = f.workingDir
  claimed : s.workspace.claimed.map some = (untrusted c paths).map Path.fileName?
  elsewhere : ∀ p, (∀ name ∈ s.workspace.claimed, p ≠ q ++ [name]) →
    s.host.files.shape? p = f.shape? p
  copies : ∀ path ∈ untrusted c paths, ∀ name, Path.fileName? path = some name →
    ∃ bytes, f.read path = .ok bytes ∧
      s.host.files.shape? (q ++ [name]) = some (.file bytes 0)

variable {σ : Type} {c : EvaluatorConfig} {f : Files} {w : Workspace} {q : Place}
  {before : List String} {s : Stage σ}

theorem staged_nil (hw : s.workspace.IsNew s.host.files q) (c : EvaluatorConfig) :
    Staged c s.host.files s.workspace q [] s :=
  ⟨rfl, rfl, hw.standsAt, rfl, by rw [hw.claimed]; rfl, fun _ _ => rfl, nofun⟩

/-- References that do not lead into the working directory still lead to what they led to. -/
theorem Staged.lookup (hs : Staged c f w q before s) (hw : w.IsNew f q) {path : String}
    (hpath : Avoids path w.runId) :
    (s.host.files.lookup path).map (Entry.withModified 0) =
      (f.lookup path).map (Entry.withModified 0) :=
  Files.lookup_of_avoids (List.forall_mem_singleton.mpr hpath)
    (List.forall_mem_singleton.mpr hw.elsewhere) hs.workingDir fun p hp =>
    hs.elsewhere p fun _ _ heq =>
      List.forall_mem_singleton.mp hp (heq ▸ List.mem_append_left _ hw.own)

/-- A copy that is made under a new name. -/
theorem Staged.copy (hs : Staged c f w q before s) {path name : String} {v : Workspace}
    {g : Files} {bytes : List UInt8} (hc : c.isTrusted path = false)
    (hn : Path.fileName? path = some name)
    (hnew : some name ∉ (untrusted c before).map Path.fileName?) (hdir : v.dir = w.dir)
    (hrunId : v.runId = w.runId) (hclaimed : v.claimed = s.workspace.claimed ++ [name])
    (hread : f.read path = .ok bytes) (hwrites : s.host.files.Writes (q ++ [name]) bytes g)
    (htended : s.host.files.Tended q g) :
    Staged c f w q (before ++ [path]) ⟨{ s.host with files := g }, v⟩ := by
  have hmore : untrusted c (before ++ [path]) = untrusted c before ++ [path] :=
    untrusted_concat hc
  refine ⟨hdir, hrunId, hs.standsAt.tended htended (hdir.trans hs.dir.symm),
    hwrites.workingDir.trans hs.workingDir, ?_, fun p hp => ?_, fun p hp name' hn' => ?_⟩
  · rw [hclaimed, hmore, List.map_append, List.map_append, hs.claimed, List.map_singleton,
      List.map_singleton, hn]
  · rw [hclaimed] at hp
    have hne : p ≠ q ++ [name] := hp name (by simp)
    rw [hwrites.shape?, if_neg hne]
    exact hs.elsewhere p fun n hmem => hp n (List.mem_append_left _ hmem)
  · rw [hmore] at hp
    rcases List.mem_append.mp hp with hp | hp
    · -- The earlier copies have other names.
      obtain ⟨bytes', hread', hshape⟩ := hs.copies p hp name' hn'
      have hne : name' ≠ name := by
        rintro rfl
        exact hnew (List.mem_map.mpr ⟨p, hp, hn'⟩)
      refine ⟨bytes', hread', ?_⟩
      rw [hwrites.shape?, if_neg (by simpa using hne), hshape]
    · obtain rfl := List.mem_singleton.mp hp
      obtain rfl := Option.some.inj (hn.symm.trans hn')
      exact ⟨bytes, hread, by rw [hwrites.shape?, if_pos rfl]⟩

/-- A reference that is not trusted is copied, or it is refused. -/
theorem stageFile_staged (hs : Staged c f w q before s) (hb : Stageable c f w before)
    (hw : w.IsNew f q) {path : String} (hpath : Avoids path w.runId)
    (ht : f.pathExists path = true) (hc : c.isTrusted path = false) :
    (∃ s', s.inWorkspace (fun w f => w.stageFile f path) = (s', .ok (loadedFrom c w path)) ∧
      Stageable c f w (before ++ [path]) ∧ Staged c f w q (before ++ [path]) s') ∨
    ∃ s' o, s.inWorkspace (fun w f => w.stageFile f path) = (s', .error o) ∧
      Refused c f w before path o := by
  unfold inWorkspace Workspace.stageFile
  cases hn : Path.fileName? path with
  | none => exact .inr ⟨_, _, rfl, .unusable ht hc hn⟩
  | some name =>
    have hname := Path.isName_of_fileName? hn
    have hclaimed : name ∈ s.workspace.claimed ↔
        some name ∈ (untrusted c before).map Path.fileName? := by
      rw [← hs.claimed]
      simp
    unfold Workspace.claim
    by_cases hmem : name ∈ s.workspace.claimed
    · dsimp only
      rw [if_pos (List.contains_iff_mem.mpr hmem), hs.runId]
      exact .inr ⟨_, _, rfl, .taken ht hc hn (hclaimed.mp hmem)⟩
    · have hplace : s.host.files.shape? (q ++ [name]) = f.shape? (q ++ [name]) :=
        hs.elsewhere _ fun n hn heq => by
          obtain rfl : name = n := by simpa using heq
          exact hmem hn
      have hcopy := Files.copy_same hname hw.standsAt hs.standsAt hs.dir (hs.lookup hw hpath) hplace
      have htended {g : Files}
          (h : s.host.files.copy path (join s.workspace.dir name) = .ok g) :
          s.host.files.Tended q g :=
        Files.copy_tended hname hs.standsAt.locate hs.standsAt.isDirAt h
      dsimp only
      rw [if_neg (mt List.contains_iff_mem.mp hmem)]
      dsimp only
      generalize hx : f.copy path (join w.dir name) = x at hcopy
      generalize s.host.files.copy path (join s.workspace.dir name) = y at hcopy htended ⊢
      cases hcopy with
      | @error e _ heq =>
        subst heq
        exact .inr ⟨_, _, rfl, .uncopied ht hc hn (mt hclaimed.mpr hmem) hx⟩
      | @ok _ g h =>
        obtain ⟨bytes, hread, hwrites⟩ := h
        have hfrom : loadedFrom c w path = join s.workspace.dir name := by
          unfold loadedFrom
          rw [hc, hn, hs.dir]
          rfl
        have hnew := mt hclaimed.mpr hmem
        refine .inl ⟨⟨{ s.host with files := g },
          { s.workspace with claimed := s.workspace.claimed ++ [name] }⟩, by rw [hfrom],
          hb.copy ht hc hn hnew hx, ?_⟩
        exact hs.copy hc hn hnew hs.dir hs.runId rfl hread hwrites (htended rfl)

/-- One more reference is staged, or it is refused. -/
theorem stageDependency_staged (hs : Staged c f w q before s) (hb : Stageable c f w before)
    (hw : w.IsNew f q) {path : String} (hpath : Avoids path w.runId) :
    (∃ s', stageDependency c s path = (s', .ok (loadedFrom c w path)) ∧
      Stageable c f w (before ++ [path]) ∧ Staged c f w q (before ++ [path]) s') ∨
    ∃ s' o, stageDependency c s path = (s', .error o) ∧ Refused c f w before path o := by
  have hlookup := hs.lookup hw hpath
  have hthere : s.host.files.pathExists path = f.pathExists path := by
    rw [Files.pathExists_eq, Files.pathExists_eq, hlookup]
  unfold stageDependency
  rw [hthere]
  cases ht : f.pathExists path with
  | false => exact .inr ⟨s, _, rfl, .missing ht⟩
  | true =>
    cases hc : c.isTrusted path with
    | true =>
      have hplace : loadedFrom c w path = path := if_pos hc
      have hsame := @untrusted_concat_of_trusted c before path hc
      exact .inl ⟨s, by rw [hplace]; rfl, hb.trusted ht hc,
        { hs with claimed := hsame ▸ hs.claimed, copies := hsame ▸ hs.copies }⟩
    | false =>
      exact stageFile_staged hs hb hw hpath ht hc

/-- The references are all staged, or the first one that is refused decides. -/
theorem stageDependencies_staged {paths : List String} (hs : Staged c f w q before s)
    (hb : Stageable c f w before) (hw : w.IsNew f q)
    (hpaths : ∀ path ∈ paths, Avoids path w.runId) :
    (∃ s', stageDependencies c s paths = (s', .ok (paths.map (loadedFrom c w))) ∧
      Stageable c f w (before ++ paths) ∧ Staged c f w q (before ++ paths) s') ∨
    ∃ s' o first path after, stageDependencies c s paths = (s', .error o) ∧
      paths = first ++ path :: after ∧ Stageable c f w (before ++ first) ∧
      Refused c f w (before ++ first) path o := by
  induction paths generalizing s before with
  | nil =>
    rw [List.append_nil]
    exact .inl ⟨s, rfl, hb, hs⟩
  | cons path rest ih =>
    unfold stageDependencies
    rcases stageDependency_staged hs hb hw (hpaths path List.mem_cons_self) with
      ⟨s₁, hfirst, hb₁, hs₁⟩ | ⟨s₁, o, hfirst, hrefused⟩
    · rw [hfirst]
      rcases ih hs₁ hb₁ fun p hp => hpaths p (List.mem_cons_of_mem path hp) with
        ⟨s', hrest, hb', hs'⟩ | ⟨s', o, first, p, after, hrest, rfl, hb', hrefused⟩
      · rw [List.append_assoc, List.singleton_append] at hb' hs'
        exact .inl ⟨s', by dsimp only; rw [hrest]; rfl, hb', hs'⟩
      · rw [List.append_assoc, List.singleton_append] at hb' hrefused
        exact .inr ⟨s', o, path :: first, p, after, by dsimp only; rw [hrest], rfl, hb', hrefused⟩
    · rw [hfirst]
      exact .inr ⟨s₁, o, [], path, rest, rfl, rfl, by rwa [List.append_nil],
        by rwa [List.append_nil]⟩

/-! ## What the copies are -/

/-- A copy has the name of what was copied, in the working directory, and is read as that. -/
theorem Staged.read (hs : Staged c f w q before s) (hb : Stageable c f w before)
    (hw : w.IsNew f q) {path : String} (hpath : path ∈ untrusted c before) :
    ∃ name bytes, Path.fileName? path = some name ∧ loadedFrom c w path = join w.dir name ∧
      f.read path = .ok bytes ∧ s.host.files.read (join w.dir name) = .ok bytes := by
  obtain ⟨name, g, hn, hcopy⟩ := hb.copied path hpath
  obtain ⟨bytes, hread, hshape⟩ := hs.copies path hpath name hn
  have hc : c.isTrusted path = false := by simpa using (List.mem_filter.mp hpath).2
  have hname := Path.isName_of_fileName? hn
  obtain ⟨hfits, hlong⟩ := Files.fits_of_copy hname hw.standsAt hcopy
  refine ⟨name, bytes, hn, ?_, hread, ?_⟩
  · unfold loadedFrom
    rw [hc, hn]
    rfl
  · rw [← hs.dir] at hfits ⊢
    exact Files.read_of_shape? hname hs.standsAt hfits hlong hshape

/-- No two copies have the same path. -/
theorem Stageable.nodup (hb : Stageable c f w before) :
    ((untrusted c before).map (loadedFrom c w)).Nodup := by
  refine List.Nodup.of_map Path.fileName? ?_
  have hsame : ((untrusted c before).map (loadedFrom c w)).map Path.fileName? =
      (untrusted c before).map Path.fileName? := by
    rw [List.map_map]
    refine List.map_congr_left fun path hpath => ?_
    obtain ⟨name, -, hn, -⟩ := hb.copied path hpath
    have hc : c.isTrusted path = false := by simpa using (List.mem_filter.mp hpath).2
    unfold Function.comp loadedFrom
    rw [hc, hn]
    exact (Path.isName_of_fileName? hn).fileName?_join w.dir
  rw [hsame]
  exact hb.distinct

/-- What could be read before a new working directory was made is read as ever. -/
theorem Staged.keeps (hs : Staged c f w q before s) (hw : w.IsNew f q) {k : Files}
    {made : List Place} (hk : k.IsUnused w.runId) (hmade : k.OnlyMakes f made) {path : String}
    {bytes : List UInt8} (hread : k.read path = .ok bytes) :
    s.host.files.read path = .ok bytes := by
  refine Files.read_of_shape (hs.workingDir.trans hmade.workingDir) (fun p e hp => ?_) hread
  rw [hs.elsewhere p fun name _ heq => ?_]
  · exact hmade.shape? hp
  · -- Nothing was under the id of the run before.
    rw [hk.shape? (heq ▸ List.mem_append_left _ hw.own)] at hp
    contradiction

end Stage

namespace Runner

open Stage (Stageable Refused loadedFrom stageDependencies untrusted)

variable {σ : Type} {r : Runner} {h : Host σ} {k : Key} {sub : Submission σ} {f : Files}
  {w : Workspace}

/-- A run begins to stage its dependencies in a new working directory. -/
theorem stageDependencies_begun (sub : Submission σ) {paths : List String}
    (hnew : h.files.IsUnused (RunId.ofIndex h.runs))
    (hpaths : ∀ path ∈ paths, Avoids path (RunId.ofIndex h.runs))
    (hc : r.createWorkspace h = (f, .ok w)) :
    (∃ q s, w.IsNew f q ∧
      stageDependencies r.config (begun h sub f w) paths =
        (s, .ok (paths.map (loadedFrom r.config w))) ∧
      Stageable r.config f w paths ∧ Stage.Staged r.config f w q paths s) ∨
    ∃ s o before path after,
      stageDependencies r.config (begun h sub f w) paths = (s, .error o) ∧
      paths = before ++ path :: after ∧ Stageable r.config f w before ∧
      Refused r.config f w before path o := by
  obtain ⟨hid, q, hw⟩ := Workspace.create_isNew hnew hc
  have hall := Stage.stageDependencies_staged (s := begun h sub f w)
    (Stage.staged_nil hw r.config) (Stage.stageable_nil r.config f w) hw
    fun path hpath => hid ▸ hpaths path hpath
  rcases hall with ⟨s, hstaged, hb, hs⟩ | hrefused
  · exact .inl ⟨q, s, hw, hstaged, hb, hs⟩
  · exact .inr hrefused

section

variable [Engine] [TraceSink σ]

/-- A run whose dependencies are not staged is over, unless its sink panics. Its directory is gone,
and what could be read before it is read as ever. -/
theorem start_of_unstaged (hsub : h.submission? k = some sub)
    (hnew : h.files.IsUnused (RunId.ofIndex h.runs)) (hc : r.createWorkspace h = (f, .ok w))
    {s : Stage σ} {o : RunOutcome}
    (hs : stageDependencies r.config (begun h sub f w) sub.project.references = (s, .error o))
    (fuel : Nat) :
    ∃ g state, r.start fuel h k = (g, some state) ∧ g.files.pathExists w.dir = false ∧
      (∀ path bytes, h.files.read path = .ok bytes → g.files.read path = .ok bytes) ∧
      ((∃ report, state = .done ⟨o, some report⟩) ∨ ∃ p, state = .panicked p) := by
  have hprogress := Stage.stageDependencies_progress r.config (begun h sub f w)
    sub.project.references
  rw [hs] at hprogress
  have hstart : r.start fuel h k = ((Run.finish s.host (identity k sub f w) s.workspace o).1,
      some (Run.finish s.host (identity k sub f w) s.workspace o).2) := by
    rw [start_created hsub hc]
    unfold Stage.prepare
    rw [hs]
    rfl
  obtain ⟨-, q, hw⟩ := Workspace.create_isNew hnew hc
  obtain ⟨hdir, htended⟩ := hprogress.tended hw.standsAt
  obtain ⟨made, hmade, -⟩ := onlyMakes_removeWorkspace hnew hc hprogress rfl
  have hstands := hw.standsAt.tended htended hdir
  refine ⟨_, _, hstart, ?_, fun path bytes hread => ?_, ?_⟩
  · rw [finish_files]
    unfold Run.removeWorkspace
    rw [Workspace.remove_eq hstands]
    exact Files.not_pathExists_removeAt (hdir ▸ hstands.locate) (List.ne_nil_of_mem hw.own)
  · rw [finish_files]
    exact Files.read_of_shape hmade.workingDir (fun _ _ => hmade.shape?) hread
  · rcases Run.finish_result s.host (identity k sub f w) s.workspace o with
      ⟨p, -, hp⟩ | ⟨g, hg⟩
    · exact .inr ⟨p, hp⟩
    · exact .inl ⟨_, hg⟩

/-- The dependencies of a run are staged exactly when all are there and those that are not trusted
can be copied under different names. Each is then loaded from where it is, if it is trusted, and
otherwise from a copy under its own name in the working directory, which is read as what was
copied; no two have the same copy, and every file that could be read before is read as ever.
Otherwise the first reference that is refused decides: the run ends with the outcome it has,
unless its sink panics, and its directory is gone. The id of a run is new: it is part of nothing
in the tree and of no reference. -/
theorem start_stages_dependencies (fuel : Nat) (r : Runner) (h : Host σ) (k : Key)
    (sub : Submission σ) (f : Files) (w : Workspace) (hsub : h.submission? k = some sub)
    (hnew : h.files.IsUnused (RunId.ofIndex h.runs))
    (hpaths : ∀ path ∈ sub.project.references, Avoids path (RunId.ofIndex h.runs))
    (hc : r.createWorkspace h = (f, .ok w)) :
    let paths := sub.project.references
    let staged := stageDependencies r.config (begun h sub f w) paths
    ((∃ s froms, staged = (s, .ok froms)) ↔ Stageable r.config f w paths) ∧
    (∀ s froms, staged = (s, .ok froms) →
      froms = paths.map (loadedFrom r.config w) ∧
      (∀ path ∈ untrusted r.config paths, ∃ name bytes, Path.fileName? path = some name ∧
        loadedFrom r.config w path = join w.dir name ∧ f.read path = .ok bytes ∧
        s.host.files.read (join w.dir name) = .ok bytes) ∧
      ((untrusted r.config paths).map (loadedFrom r.config w)).Nodup ∧
      ∀ path bytes, h.files.read path = .ok bytes → s.host.files.read path = .ok bytes) ∧
    ∀ s o, staged = (s, .error o) →
      (∃ before path after, paths = before ++ path :: after ∧ Stageable r.config f w before ∧
        Refused r.config f w before path o) ∧
      ∃ g state, r.start fuel h k = (g, some state) ∧ g.files.pathExists w.dir = false ∧
        (∀ path bytes, h.files.read path = .ok bytes → g.files.read path = .ok bytes) ∧
        ((∃ report, state = .done ⟨o, some report⟩) ∨ ∃ p, state = .panicked p) := by
  intro paths staged
  rcases stageDependencies_begun sub hnew hpaths hc with
    ⟨q, s', hw, hstaged, hb, hs'⟩ | ⟨s', o', first, path, after, hstaged, hsplit, hb, hrefused⟩
  · obtain ⟨hid, made, -, -, hmade, -, -⟩ := Workspace.create_made hnew hc
    have hunused : h.files.IsUnused w.runId := hid ▸ hnew
    refine ⟨⟨fun _ => hb, fun _ => ⟨_, _, hstaged⟩⟩, fun s froms hok => ?_, fun s o herror => ?_⟩
    · obtain ⟨rfl, hfroms⟩ := Prod.mk.inj (hstaged.symm.trans hok)
      obtain rfl := Except.ok.inj hfroms
      exact ⟨rfl, fun path hpath => hs'.read hb hw hpath, hb.nodup,
        fun path bytes hread => hs'.keeps hw hunused hmade hread⟩
    · exact nomatch congrArg Prod.snd (hstaged.symm.trans herror)
  · have hno : ¬ Stageable r.config f w paths := fun hyes =>
      hrefused.not_stageable after (hsplit ▸ hyes)
    refine ⟨⟨fun ⟨s, froms, hok⟩ => ?_, fun hyes => absurd hyes hno⟩, fun s froms hok => ?_,
      fun s o herror => ⟨⟨first, path, after, hsplit, hb, ?_⟩, ?_⟩⟩
    · exact nomatch congrArg Prod.snd (hstaged.symm.trans hok)
    · exact nomatch congrArg Prod.snd (hstaged.symm.trans hok)
    · obtain ⟨-, ho⟩ := Prod.mk.inj (hstaged.symm.trans herror)
      exact Except.error.inj ho ▸ hrefused
    · exact start_of_unstaged hsub hnew hc herror fuel

end

/-- Two runs in one tree. The first has a trusted dependency, twice, and two that are copied, one of
them under the name of the trusted one. The second has one more of that name, and one that is not
there, which does not matter then. -/
theorem start_stages_dependencies_of_equal_names :
    let id := RunId.ofIndex 0
    let trusted : List String := ["/t/a.wasm", "/x/a.wasm", "/y/b.wasm", "/t/../t/a.wasm"]
    let s : Submission Monitor := { id := 4, project := ⟨[], trusted, ""⟩, sink := {} }
    let s' := { s with project := ⟨[], trusted ++ ["/y/a.wasm", "/gone.wasm"], ""⟩ }
    let h : Host Monitor := {
      files := { entries := [(["runs"], .dir 0), (["t"], .dir 0), (["x"], .dir 0),
        (["y"], .dir 0), (["t", "a.wasm"], .file [1] 0), (["x", "a.wasm"], .file [2] 0),
        (["y", "a.wasm"], .file [3] 0), (["y", "b.wasm"], .file [4] 0)] }
      submissions := [s, s'] }
    let r : Runner := ⟨{ workspaceRoot := "/runs", trustedReferenceDirs := ["/t"] }⟩
    ∃ f w, r.createWorkspace h = (f, .ok w) ∧
      (∃ stage, stageDependencies r.config (begun h s f w) s.project.references =
          (stage, .ok ["/t/a.wasm", "/runs/" ++ id ++ "/a.wasm", "/runs/" ++ id ++ "/b.wasm",
            "/t/../t/a.wasm"]) ∧
        stage.host.files.read ("/runs/" ++ id ++ "/a.wasm") = .ok [2] ∧
        stage.host.files.read "/t/a.wasm" = .ok [1]) ∧
      ∃ g report, r.start 10 h 1 =
          (g, some (.done ⟨.faulted (.workspace (.alreadyPresent "a.wasm" id)), some report⟩)) ∧
        g.files.pathExists ("/runs/" ++ id) = false ∧ g.files.read "/y/a.wasm" = .ok [3] := by
  intro id trusted s s' h r
  let w : Workspace := ⟨id, "/runs/" ++ id, []⟩
  have hnew : h.files.IsUnused id := ⟨by decide +kernel, by decide +kernel⟩
  have hpaths : ∀ path ∈ s'.project.references, Avoids path id := by
    unfold Avoids
    decide +kernel
  have hread : (h.files.read "/t/a.wasm").toOption = some [1] ∧
      (h.files.read "/y/a.wasm").toOption = some [3] := by decide +kernel
  have huntrusted : "/x/a.wasm" ∈ untrusted r.config s.project.references ∧
      Path.fileName? "/x/a.wasm" = some "a.wasm" := by decide +kernel
  have hjoin : join w.dir "a.wasm" = "/runs/" ++ id ++ "/a.wasm" := by decide +kernel
  have hcalm : ((r.start 10 h 1).2.bind RunState.result?).bind Except.toOption ≠ none := by
    decide +kernel
  obtain ⟨f, hc⟩ := exists_of_toOption (show (r.createWorkspace h).2.toOption = some w by
    decide +kernel)
  have hf : (r.createWorkspace h).1 = f := congrArg Prod.fst hc
  have hcopied : (f.read "/x/a.wasm").toOption = some [2] := by
    subst hf
    decide +kernel
  have hfirst : (stageDependencies r.config (begun h s f w) s.project.references).2.toOption =
      some ["/t/a.wasm", "/runs/" ++ id ++ "/a.wasm", "/runs/" ++ id ++ "/b.wasm",
        "/t/../t/a.wasm"] := by
    subst hf
    decide +kernel
  have hsecond : (stageDependencies r.config (begun h s' f w) s'.project.references).2 =
      .error (.faulted (.workspace (.alreadyPresent "a.wasm" id))) := by
    subst hf
    decide +kernel
  refine ⟨f, w, hc, ?_, ?_⟩
  · obtain ⟨stage, hstaged⟩ := exists_of_toOption hfirst
    obtain ⟨-, hall, -⟩ := start_stages_dependencies 10 r h 0 s f w rfl hnew
      (fun path hpath => hpaths path (List.mem_append_left _ hpath)) hc
    obtain ⟨-, hcopies, -, hkept⟩ := hall stage _ hstaged
    obtain ⟨name, bytes, hname, -, hbytes, hcopy⟩ := hcopies _ huntrusted.1
    obtain rfl := Option.some.inj (huntrusted.2.symm.trans hname)
    obtain rfl := Except.ok.inj ((eq_ok_of_toOption hcopied).symm.trans hbytes)
    exact ⟨stage, hstaged, hjoin ▸ hcopy, hkept _ _ (eq_ok_of_toOption hread.1)⟩
  · obtain ⟨-, -, hno⟩ := start_stages_dependencies 10 r h 1 s' f w rfl hnew hpaths hc
    obtain ⟨-, g, state, hstart, hgone, hkept, hend⟩ := hno _ _ (Prod.ext rfl hsecond)
    rw [hstart] at hcalm
    rcases hend with ⟨report, rfl⟩ | ⟨p, rfl⟩
    · exact ⟨g, report, hstart, hgone, hkept _ _ (eq_ok_of_toOption hread.2)⟩
    · exact absurd rfl hcalm

end Runner

end LiveTrace
