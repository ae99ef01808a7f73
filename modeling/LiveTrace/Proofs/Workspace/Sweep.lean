import LiveTrace.Proofs.Files.Mirror
import LiveTrace.Proofs.Workspace.RunIds
import LiveTrace.Workspace.Basic
import Mathlib.Data.List.Nodup

/-
  What a sweep removes. The entries of a directory are visited one after another, and as long as
  each can be read at its turn (`Unhindered`), a visit removes an entry exactly when it is a
  directory with the name of an id and old enough (`visit_having`). So what a sweep removes is a
  matter of the tree that it begins with, and the rest stays as it was (`sweepOlder_removes`). But
  a name passes for an id more often than it is written as one: directories that no run ever made
  are removed too (`sweepOlder_removes_bare`).
-/
namespace LiveTrace

open LiveTrace.Path (Avoids IsName join)

namespace Files

/-! ## Trees with less in them -/

/-- Marking a directory as changed changes nothing elsewhere. -/
theorem entry?_touchDir (f : Files) {p q : Place} (h : q ≠ p) :
    entry? (f.touchDir p) q = f.entry? q := by
  unfold touchDir entry?
  dsimp only
  rw [find?_map_place fun x => by split <;> rfl]
  split
  · rfl
  · cases hfind : f.entries.find? (·.1 = q) with
    | none => rfl
    | some x =>
      have hplace := List.find?_some hfind
      have hx : x.1 = q := of_decide_eq_true hplace
      simp [hx, h]

theorem entry?_removeAt (f : Files) {p q : Place} (hp : p ≠ []) (hq : q ≠ p.dropLast) :
    entry? (f.removeAt p) q = if p <+: q then none else f.entry? q := by
  unfold removeAt
  rw [entry?_touchDir _ hq]
  unfold entry?
  by_cases hroot : q = []
  · subst hroot
    rw [if_pos rfl, if_pos rfl, if_neg (mt List.prefix_nil.mp hp)]
  · change (if q = [] then _ else ((f.entries.filter (outside p)).find? (·.1 = q)).map (·.2)) = _
    rw [if_neg hroot, if_neg hroot, find?_outside]
    split <;> rfl

/-- The tree without what stands under some names in a directory. -/
def without (f : Files) (p : Place) (names : List String) : Files :=
  names.foldl (fun g name => g.removeAt (p ++ [name])) f

variable {f : Files} {p : Place} {names : List String}

theorem without_outside (f : Files) (p : Place) (names : List String) :
    (f.without p names).workingDir = f.workingDir ∧ (f.without p names).now = f.now := by
  induction names generalizing f with
  | nil => exact ⟨rfl, rfl⟩
  | cons name names ih => exact ih (f.removeAt (p ++ [name]))

theorem without_concat (f : Files) (p : Place) (names : List String) (name : String) :
    f.without p (names ++ [name]) = (f.without p names).removeAt (p ++ [name]) :=
  List.foldl_append

theorem grows_without (f : Files) (p : Place) (names : List String) :
    (f.without p names).Grows f := by
  induction names generalizing f with
  | nil => exact .of_shape fun _ _ h => h
  | cons name names ih => exact (ih _).trans (grows_removeAt f _)

/-- What stands elsewhere than in the directory itself is gone with one of the names above it, or it
is as it was. -/
theorem entry?_without (f : Files) {p q : Place} (hq : q ≠ p) (names : List String) :
    entry? (f.without p names) q =
      if ∃ name ∈ names, p ++ [name] <+: q then none else f.entry? q := by
  induction names generalizing f with
  | nil => rw [if_neg (by simp)]; rfl
  | cons name names ih =>
    refine (ih (f.removeAt (p ++ [name]))).trans ?_
    rw [entry?_removeAt f (by simp) (by rwa [List.dropLast_concat])]
    simp only [List.mem_cons, exists_eq_or_imp]
    split
    · rename_i h
      rw [if_pos (.inr h)]
    · rename_i h
      simp [h]

theorem shape?_without (f : Files) {q : Place} (h : ∀ name ∈ names, ¬ p ++ [name] <+: q) :
    (f.without p names).shape? q = f.shape? q := by
  induction names generalizing f with
  | nil => rfl
  | cons name names ih =>
    rw [List.forall_mem_cons] at h
    refine (ih (f.removeAt (p ++ [name])) h.2).trans ?_
    by_cases hq : q = []
    · subst hq
      rfl
    · rw [shape?_removeAt _ _ hq, if_neg h.1]

theorem isDirAt_without (f : Files) (p : Place) (names : List String) :
    (f.without p names).isDirAt p = f.isDirAt p := by
  rw [isDirAt_eq, isDirAt_eq, shape?_without]
  exact fun name _ h => absurd h.length_le (by simp)

theorem mem_names_of_entry? {name : String} {e : Entry} (h : f.entry? (p ++ [name]) = some e) :
    name ∈ f.names p := by
  unfold entry? at h
  rw [if_neg (by simp)] at h
  obtain ⟨x, hx, -⟩ := Option.map_eq_some_iff.mp h
  have hplace := List.find?_some hx
  have hplace : x.1 = p ++ [name] := of_decide_eq_true hplace
  refine List.mem_filterMap.mpr ⟨x, List.mem_of_find?_eq_some hx, ?_⟩
  rw [hplace, List.getLast?_concat]
  exact if_pos rfl

/-- A directory that has not changed for some time. -/
def IsAged (f : Files) (p : Place) (maxAge : Nat) : Prop :=
  ∃ t, f.entry? p = some (.dir t) ∧ t ≤ f.now ∧ maxAge ≤ f.now - t

variable {name : String} {maxAge : Nat}

theorem isAged_without (h : name ∉ names) :
    (f.without p names).IsAged (p ++ [name]) maxAge ↔ f.IsAged (p ++ [name]) maxAge := by
  have hentry : entry? (f.without p names) (p ++ [name]) = f.entry? (p ++ [name]) := by
    rw [entry?_without f (by simp), if_neg]
    rintro ⟨other, hmem, hprefix⟩
    have heq : p ++ [other] = p ++ [name] := hprefix.eq_of_length (by simp)
    obtain rfl : other = name := by simpa using heq
    exact h hmem
  unfold IsAged
  rw [hentry, (without_outside f p names).2]

theorem removeDirAll_of_isAged {path : String} (hl : f.locate path = .ok p)
    (h : f.IsAged p maxAge) : f.removeDirAll path = .ok (f.removeAt p) := by
  obtain ⟨t, ht, -⟩ := h
  have hdir : f.isDirAt p = true := by
    unfold isDirAt
    rw [ht]
    rfl
  unfold removeDirAll
  rw [hl]
  exact if_pos hdir

end Files

namespace Workspace

variable {f g : Files} {base : String} {p : Place} {maxAge : Nat}

/-- Some entries can be read by their names, each when the ones before it have been visited. -/
inductive Unhindered (base : String) (maxAge : Nat) : Sweep → List String → Prop where
  | nil {s : Sweep} : Unhindered base maxAge s []
  | cons {s : Sweep} {name : String} {names : List String}
    (hthere : s.files.pathExists (join base name) = true)
    (hrest : Unhindered base maxAge (s.visit base maxAge name) names) :
    Unhindered base maxAge s (name :: names)

/-- What is logged before a directory is removed. -/
def notice (base name : String) : LogLine :=
  ⟨.info, s!"Cleaning up old workspace: {join base name}"⟩

/-- A sweep that has removed what stands under some names. -/
def Sweep.having (base : String) (f : Files) (p : Place) (names : List String) : Sweep :=
  ⟨f.without p names, names.length, names.map (notice base)⟩

/-! ## One visit -/

/-- An entry of a directory that can be read by its name after some others were removed stands
where it stood, and was not one of them. -/
theorem locate_of_pathExists {name : String} {names : List String} (hn : IsName name)
    (hl : f.locate base = .ok p) (hdir : f.isDirAt p = true)
    (hthere : (f.without p names).pathExists (join base name) = true) :
    (f.without p names).locate (join base name) = .ok (p ++ [name]) ∧ name ∉ names := by
  obtain ⟨d, hwalk, -, hd⟩ := Files.exists_walk_of_isDir (Files.isDir_of_locate hl hdir)
  obtain rfl := Except.ok.inj (hd.symm.trans hl)
  unfold Files.pathExists Files.lookup at hthere
  cases hlocate : (f.without d names).locate (join base name) with
  | error e =>
    rw [hlocate] at hthere
    contradiction
  | ok q =>
    rw [hlocate] at hthere
    -- A path leads to the same place in the tree that has more in it.
    have hwhole := (Files.grows_without f d names).locate
      (Files.without_outside f d names).1.symm hlocate
    obtain ⟨d', hwalk', rfl⟩ := Files.locate_join_eq_ok hn hwhole
    obtain rfl := Except.ok.inj (hwalk.symm.trans hwalk')
    refine ⟨rfl, fun hmem => ?_⟩
    dsimp only at hthere
    rw [Files.entry?_without f (by simp), if_pos ⟨name, hmem, List.prefix_rfl⟩] at hthere
    contradiction

theorem isStale_iff {path : String} {q : Place} (hl : g.locate path = .ok q) (name : String)
    (maxAge : Nat) :
    isStale g path name maxAge = true ↔ RunId.isId name = true ∧ g.IsAged q maxAge := by
  unfold isStale Files.isDir Files.modified? Files.lookup Files.IsAged
  rw [hl]
  dsimp only
  rcases g.entry? q with _ | _ | t
  · simp
  · simp [Entry.isDir]
  · change (RunId.isId name && (decide (t ≤ g.now) && decide (maxAge ≤ g.now - t))) = true ↔ _
    rw [Bool.and_eq_true, Bool.and_eq_true, decide_eq_true_iff, decide_eq_true_iff]
    simp only [Option.some.injEq, Entry.dir.injEq, exists_eq_left']

/-- A visit removes an entry that is a directory with the name of an id and old enough, and nothing
else. -/
theorem visit_having (maxAge : Nat) {name : String} {names : List String}
    (hl : f.locate base = .ok p) (hdir : f.isDirAt p = true)
    (hthere : (f.without p names).pathExists (join base name) = true) :
    let s := Sweep.having base f p names
    (RunId.isId name = true ∧ f.IsAged (p ++ [name]) maxAge ∧ name ∉ names ∧
      s.visit base maxAge name = Sweep.having base f p (names ++ [name])) ∨
    (¬ (RunId.isId name = true ∧ f.IsAged (p ++ [name]) maxAge) ∧
      s.visit base maxAge name = s) := by
  intro s
  by_cases hid : RunId.isId name = true
  · obtain ⟨hlocate, hnew⟩ := locate_of_pathExists (RunId.isName_of_isId hid) hl hdir hthere
    have hstale := isStale_iff hlocate name maxAge
    by_cases haged : f.IsAged (p ++ [name]) maxAge
    · refine .inl ⟨hid, haged, hnew, ?_⟩
      have haged' := (Files.isAged_without hnew).mpr haged
      have hremove := Files.removeDirAll_of_isAged hlocate haged'
      rw [← Files.without_concat] at hremove
      unfold Sweep.visit
      refine (if_pos (hstale.mpr ⟨hid, haged'⟩)).trans ?_
      rw [show s.files.removeDirAll (join base name) = _ from hremove]
      unfold Sweep.having
      rw [List.length_append, List.map_append]
      rfl
    · refine .inr ⟨fun h => haged h.2, ?_⟩
      unfold Sweep.visit
      exact if_neg fun h => haged ((Files.isAged_without hnew).mp (hstale.mp h).2)
  · refine .inr ⟨fun h => hid h.1, ?_⟩
    have hstale : isStale s.files (join base name) name maxAge = false := by
      unfold isStale
      rw [Bool.eq_false_iff.mpr hid, Bool.and_false, Bool.false_and]
    unfold Sweep.visit
    exact if_neg (Bool.eq_false_iff.mp hstale)

/-! ## One visit after another -/

/-- Visiting some entries removes those that are directories with the names of ids and old enough in
the tree that the sweep began with. -/
theorem visits_having (hl : f.locate base = .ok p) (hdir : f.isDirAt p = true)
    {names : List String} (removed : List String) (hnodup : removed.Nodup)
    (h : Unhindered base maxAge (Sweep.having base f p removed) names) :
    ∃ more, names.foldl (fun s name => s.visit base maxAge name) (Sweep.having base f p removed) =
        Sweep.having base f p (removed ++ more) ∧ (removed ++ more).Nodup ∧
      ∀ name, name ∈ more ↔
        name ∈ names ∧ RunId.isId name = true ∧ f.IsAged (p ++ [name]) maxAge := by
  induction names generalizing removed with
  | nil => exact ⟨[], by simp, by simpa using hnodup, by simp⟩
  | cons name names ih =>
    cases h with
    | cons hthere hrest =>
      obtain ⟨hid, haged, hnew, hvisit⟩ | ⟨hnot, hvisit⟩ := visit_having maxAge hl hdir hthere
      · rw [hvisit] at hrest
        have hconcat : (removed ++ [name]).Nodup := by
          rw [← List.concat_eq_append]
          exact hnodup.concat hnew
        obtain ⟨more, hfold, hmore, hmem⟩ := ih _ hconcat hrest
        rw [List.append_assoc] at hfold hmore
        refine ⟨name :: more, ?_, hmore, fun other => ?_⟩
        · rw [List.foldl_cons, hvisit]
          exact hfold
        · rw [List.mem_cons, List.mem_cons, hmem, or_and_right]
          refine or_congr_left ⟨?_, And.left⟩
          rintro rfl
          exact ⟨rfl, hid, haged⟩
      · rw [hvisit] at hrest
        obtain ⟨more, hfold, hmore, hmem⟩ := ih _ hnodup hrest
        refine ⟨more, ?_, hmore, fun other => ?_⟩
        · rw [List.foldl_cons, hvisit]
          exact hfold
        · rw [List.mem_cons, hmem, or_and_right]
          refine (or_iff_right ?_).symm
          rintro ⟨rfl, hleft⟩
          exact hnot hleft

/-! ## A sweep -/

theorem avoids_join {name other : String} (h : Avoids base other) (hbase : base ≠ "")
    (hn : IsName name) (hne : other ≠ name) : Avoids (join base name) other := by
  unfold Avoids
  rw [hn.pieces_join, List.mem_append, List.mem_singleton, not_or]
  refine ⟨fun hmem => h ?_, mt String.toList_inj.mp hne⟩
  rcases Path.pieces_eq_above hbase with heq | heq
  · rwa [heq]
  · rw [heq]
    exact List.mem_append_left _ hmem

/-- Entries can be read at their turns when they are listed once each and can be read before the
sweep, as long as nothing with the name of an id stands on the way to the directory. -/
theorem unhindered_of_avoids (hl : f.locate base = .ok p) (hdir : f.isDirAt p = true)
    (removed : List String) {names : List String} (hn : ∀ name ∈ names, IsName name)
    (hnodup : (removed ++ names).Nodup) (hids : ∀ name ∈ removed, RunId.isId name = true)
    (hway : ∀ name, RunId.isId name = true → Avoids base name ∧ name ∉ f.workingDir)
    (hthere : ∀ name ∈ names, f.pathExists (join base name) = true) :
    Unhindered base maxAge (Sweep.having base f p removed) names := by
  have hbase : base ≠ "" := by
    rintro rfl
    contradiction
  induction names generalizing removed with
  | nil => exact .nil
  | cons name names ih =>
    rw [List.forall_mem_cons] at hn hthere
    obtain ⟨-, -, hdisjoint⟩ := List.nodup_append.mp hnodup
    have hnew : name ∉ removed := fun hmem => hdisjoint name hmem name List.mem_cons_self rfl
    have hnow : (f.without p removed).pathExists (join base name) = true := by
      have hpath : ∀ other ∈ removed, Avoids (join base name) other := fun other hother =>
        avoids_join (hway other (hids other hother)).1 hbase hn.1 fun heq => hnew (heq ▸ hother)
      have helsewhere : ∀ other ∈ removed, other ∉ f.workingDir := fun other hother =>
        (hway other (hids other hother)).2
      have hshape : ∀ q, (∀ other ∈ removed, other ∉ q) →
          (f.without p removed).shape? q = f.shape? q := fun q hq =>
        Files.shape?_without f fun other hother hbelow =>
          hq other hother (hbelow.subset (by simp))
      have hlookup := Files.lookup_of_avoids hpath helsewhere
        (Files.without_outside f p removed).1 hshape
      rw [Files.pathExists_eq, hlookup, ← Files.pathExists_eq]
      exact hthere.1
    refine .cons hnow ?_
    obtain ⟨hid, -, -, hvisit⟩ | ⟨-, hvisit⟩ := visit_having maxAge hl hdir hnow
    · rw [hvisit]
      rw [List.append_cons] at hnodup
      refine ih _ hn.2 hnodup ?_ hthere.2
      simpa [or_imp, forall_and] using ⟨hids, hid⟩
    · rw [hvisit]
      refine ih _ hn.2 ?_ hids hthere.2
      exact hnodup.sublist (List.Sublist.append_left (List.sublist_cons_self name names) removed)

/-- A sweep of a directory whose entries can be read removes the directories in it that are old
enough and have a name that passes for an id, however it is written; it counts and reports them, and
it leaves everything else as it was. -/
theorem sweepOlder_removes (maxAge : Nat) (hl : f.locate base = .ok p) (hdir : f.isDirAt p = true)
    (hread : Unhindered base maxAge ⟨f, 0, []⟩ (f.names p)) :
    ∃ (s : Sweep) (removed : List String), sweepOlder base maxAge f = .ok s ∧
      (∀ name, name ∈ removed ↔ f.IsAged (p ++ [name]) maxAge ∧
        RunId.HasForm (name.toList.map Char.toLower)) ∧
      (∀ name, RunId.IsWritten name.toList → f.IsAged (p ++ [name]) maxAge → name ∈ removed) ∧
      removed.Nodup ∧ s.removed = removed.length ∧ s.log = removed.map (notice base) ∧
      (∀ name ∈ removed, ∀ q, p ++ [name] <+: q → s.files.entry? q = none) ∧
      (∀ q ≠ p, (∀ name ∈ removed, ¬ p ++ [name] <+: q) → s.files.entry? q = f.entry? q) ∧
      s.files.isDirAt p = true ∧ s.files.workingDir = f.workingDir ∧ s.files.now = f.now := by
  obtain ⟨removed, hfold, hnodup, hmem⟩ := visits_having hl hdir [] List.nodup_nil hread
  have hremoved (name : String) : name ∈ removed ↔
      f.IsAged (p ++ [name]) maxAge ∧ RunId.isId name = true := by
    rw [hmem, and_comm (a := f.IsAged _ _)]
    refine and_iff_right_of_imp ?_
    rintro ⟨-, t, ht, -⟩
    exact Files.mem_names_of_entry? ht
  refine ⟨Sweep.having base f p removed, removed, ?_, fun name => ?_, fun name hid haged => ?_,
    hnodup, rfl, rfl, fun name hname q hq => ?_, fun q hq hno => ?_, ?_,
    Files.without_outside f p removed⟩
  · unfold sweepOlder Files.readDir
    rw [Files.pathExists_of_locate hl hdir, hl]
    dsimp only
    rw [if_pos hdir]
    exact congrArg Except.ok hfold
  · rw [hremoved, RunId.isId_iff]
  · exact (hremoved name).mpr ⟨haged, RunId.isId_of_isWritten hid⟩
  · have hne : q ≠ p := by
      rintro rfl
      exact absurd hq.length_le (by simp)
    exact (Files.entry?_without f hne removed).trans (if_pos ⟨name, hname, hq⟩)
  · refine (Files.entry?_without f hq removed).trans (if_neg ?_)
    rintro ⟨name, hname, hprefix⟩
    exact hno name hname hprefix
  · exact (Files.isDirAt_without f p removed).trans hdir

/-- Of the directories with the names of ids, the one that is old enough is removed with the file in
it. One that was changed after the sweep and one that has another name stay. -/
theorem sweepOlder_removes_stale :
    let stale := "6f1e3c58-0b4d-4c8e-9a52-7d0f1b2c3d4e"
    let ahead := "6f1e3c58-0b4d-4c8e-9a52-7d0f1b2c3d4f"
    let f : Files := { entries := [(["runs"], .dir 0), (["runs", stale], .dir 10),
      (["runs", stale, "a.wasm"], .file [7] 10), (["runs", ahead], .dir 200),
      (["runs", "notes"], .dir 0)], now := 100 }
    ∃ s, sweepOlder "/runs" 50 f = .ok s ∧ s.files.entry? ["runs", stale, "a.wasm"] = none ∧
      s.files.entry? ["runs", ahead] = some (.dir 200) ∧
      s.files.entry? ["runs", "notes"] = some (.dir 0) := by
  intro stale ahead f
  have hl : f.locate "/runs" = .ok ["runs"] := by decide +kernel
  have hdir : f.isDirAt ["runs"] = true := by decide +kernel
  have hnames : f.names ["runs"] = [stale, ahead, "notes"] := by decide +kernel
  have hread : Unhindered "/runs" 50 ⟨f, 0, []⟩ (f.names ["runs"]) := by
    rw [hnames]
    refine unhindered_of_avoids hl hdir [] ?_ (by decide +kernel) nofun ?_ ?_
    · rw [List.forall_mem_cons, List.forall_mem_cons, List.forall_mem_singleton]
      exact ⟨RunId.isName_of_isId (by decide +kernel), RunId.isName_of_isId (by decide +kernel),
        ⟨by decide +kernel, by decide +kernel, by decide +kernel, by decide +kernel⟩⟩
    · refine fun name hid => ⟨fun hmem => ?_, List.not_mem_nil⟩
      have hshort : ∀ piece ∈ Path.pieces "/runs".toList, piece.length < 32 := by decide +kernel
      exact absurd (RunId.length_le_of_isId hid) (Nat.not_le.mpr (hshort _ hmem))
    · decide +kernel
  obtain ⟨s, removed, hs, hmem, -, -, -, -, hgone, hkept, -⟩ := sweepOlder_removes 50 hl hdir hread
  have hstale : stale ∈ removed :=
    (hmem stale).mpr ⟨⟨10, rfl, by decide, by decide⟩, RunId.isId_iff.mp (by decide +kernel)⟩
  have hahead : ahead ∉ removed := by
    intro h
    obtain ⟨⟨t, ht, hle, -⟩, -⟩ := (hmem ahead).mp h
    obtain rfl : 200 = t := Entry.dir.inj (Option.some.inj ht)
    exact absurd hle (by decide)
  have hnotes : "notes" ∉ removed := fun h =>
    absurd (RunId.isId_iff.mpr ((hmem "notes").mp h).2) (by decide +kernel)
  have hbelow {name other : String} (h : ["runs"] ++ [name] <+: ["runs", other]) :
      name = other := by simpa using h.eq_of_length rfl
  refine ⟨s, hs, hgone stale hstale _ ⟨["a.wasm"], rfl⟩, ?_, ?_⟩
  · exact hkept _ (by simp) fun name hname h => hahead (hbelow h ▸ hname)
  · exact hkept _ (by simp) fun name hname h => hnotes (hbelow h ▸ hname)

/-- A directory named by digits without hyphens is none that a run was given, and what is in it is
none of this program's; it is removed all the same. -/
theorem sweepOlder_removes_bare :
    let name := "6f1e3c580b4d4c8e9a527d0f1b2c3d4e"
    let f : Files := { entries := [(["runs"], .dir 0), (["runs", name], .dir 0),
      (["runs", name, "notes.txt"], .file [1] 0)], now := 1 }
    ¬ RunId.IsWritten name.toList ∧ ∃ s, sweepOlder "/runs" 0 f = .ok s ∧ s.removed = 1 ∧
      s.files.entry? ["runs", name, "notes.txt"] = none := by
  intro name f
  have hbare : '-' ∉ name.toList := by decide +kernel
  have hsweep : (sweepOlder "/runs" 0 f).map
      (fun s => (s.removed, s.files.entry? ["runs", name, "notes.txt"])) = .ok (1, none) := by
    decide +kernel
  refine ⟨fun h => hbare h.mem_hyphen, ?_⟩
  cases hs : sweepOlder "/runs" 0 f with
  | error e =>
    rw [hs] at hsweep
    contradiction
  | ok s =>
    rw [hs] at hsweep
    have hpair := Except.ok.inj hsweep
    exact ⟨s, rfl, congrArg Prod.fst hpair, congrArg Prod.snd hpair⟩

end Workspace

end LiveTrace
