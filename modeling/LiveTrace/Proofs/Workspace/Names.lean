import LiveTrace.Proofs.Workspace.Directory

/-
  The names in a working directory. Files are written into it or copied, one after another, in
  trees that anything may have happened to in between. Each attempt claims its name before it does
  anything else, and keeps it when it fails (`bring_attempt`); so the names that are claimed are
  those of all attempts (`mem_claimed_after`), and a name is good for one attempt only
  (`bring_after`), even where that one brought nothing (`bring_refused_after_failure`).
-/
namespace LiveTrace

open LiveTrace.Path (IsName join)

/-- One attempt to bring a file into a working directory. -/
inductive Bringing where
  | write (name : String) (bytes : List UInt8)
  | copy (source : String)
  deriving DecidableEq, Repr

namespace Bringing

/-- The name that the file is to have. -/
def name? : Bringing → Option String
  | write name _ => some name
  | copy source => Path.fileName? source

/-- The bytes that the file is to have, if they can be had. -/
def content (f : Files) : Bringing → Except IoError (List UInt8)
  | write _ bytes => .ok bytes
  | copy source => f.read source

end Bringing

namespace Workspace

/-- What an attempt comes to. -/
def bring (w : Workspace) (f : Files) : Bringing → Staging
  | .write name bytes => w.writeFile f name bytes
  | .copy source => w.stageFile f source

/-- The working directory after some attempts, each in the tree that it found. -/
def after (w : Workspace) (attempts : List (Files × Bringing)) : Workspace :=
  attempts.foldl (fun w a => (w.bring a.1 a.2).workspace) w

/-- The working directory with one name more claimed. -/
def claiming (w : Workspace) (name : String) : Workspace :=
  { w with claimed := w.claimed ++ [name] }

/-! ## One attempt -/

/-- All that can become of an attempt. -/
inductive Attempt (w : Workspace) (f : Files) (b : Bringing) : Staging → Prop where
  | unusable (hn : b.name? = none) (source : String) :
    Attempt w f b ⟨w, f, .error (.unusableName source)⟩
  | refused {name : String} (hn : b.name? = some name) (h : name ∈ w.claimed) :
    Attempt w f b ⟨w, f, .error (.alreadyPresent name w.runId)⟩
  | failed {name : String} {e : WorkspaceError} (hn : b.name? = some name) (h : name ∉ w.claimed)
    (he : ∀ name runId, e ≠ .alreadyPresent name runId)
    (hno : ∀ bytes, b.content f = .ok bytes → ∀ g, f.write (join w.dir name) bytes ≠ .ok g) :
    Attempt w f b ⟨w.claiming name, f, .error e⟩
  | brought {name : String} {bytes : List UInt8} {g : Files} (hn : b.name? = some name)
    (h : name ∉ w.claimed) (hb : b.content f = .ok bytes)
    (hg : f.write (join w.dir name) bytes = .ok g) :
    Attempt w f b ⟨w.claiming name, g, .ok (join w.dir name)⟩

theorem claim_of_mem {w : Workspace} {name : String} (h : name ∈ w.claimed) :
    w.claim name = .error (.alreadyPresent name w.runId) :=
  if_pos (List.contains_iff_mem.mpr h)

theorem claim_of_not_mem {w : Workspace} {name : String} (h : name ∉ w.claimed) :
    w.claim name = .ok (w.claiming name, join w.dir name) :=
  if_neg (mt List.contains_iff_mem.mp h)

theorem writeFile_attempt (w : Workspace) (f : Files) (name : String) (bytes : List UInt8) :
    w.Attempt f (.write name bytes) (w.writeFile f name bytes) := by
  unfold writeFile
  by_cases h : name ∈ w.claimed
  · rw [claim_of_mem h]
    exact .refused rfl h
  · rw [claim_of_not_mem h]
    dsimp only
    cases hwrite : f.write (join w.dir name) bytes with
    | ok g => exact .brought rfl h rfl hwrite
    | error e =>
      refine .failed rfl h nofun fun bytes' hbytes g hg => ?_
      obtain rfl := Except.ok.inj hbytes
      exact nomatch hwrite.symm.trans hg

theorem stageFile_attempt (w : Workspace) (f : Files) (source : String) :
    w.Attempt f (.copy source) (w.stageFile f source) := by
  unfold stageFile
  cases hn : Path.fileName? source with
  | none => exact .unusable (b := .copy source) hn source
  | some name =>
    dsimp only
    by_cases h : name ∈ w.claimed
    · rw [claim_of_mem h]
      exact .refused (b := .copy source) hn h
    · rw [claim_of_not_mem h]
      dsimp only
      cases hcopy : f.copy source (join w.dir name) with
      | ok g =>
        obtain ⟨bytes, hread, hwrite⟩ := Files.copy_eq_ok_iff.mp hcopy
        exact .brought (b := .copy source) hn h hread hwrite
      | error e =>
        refine .failed (b := .copy source) hn h nofun fun bytes hread g hwrite => ?_
        exact nomatch hcopy.symm.trans (Files.copy_eq_ok_iff.mpr ⟨bytes, hread, hwrite⟩)

theorem bring_attempt (w : Workspace) (f : Files) (b : Bringing) : w.Attempt f b (w.bring f b) := by
  cases b with
  | write name bytes => exact writeFile_attempt w f name bytes
  | copy source => exact stageFile_attempt w f source

namespace Attempt

variable {w : Workspace} {f : Files} {b : Bringing} {r : Staging}

theorem kept (h : w.Attempt f b r) : r.workspace.dir = w.dir ∧ r.workspace.runId = w.runId := by
  cases h <;> exact ⟨rfl, rfl⟩

/-- An attempt claims its name, if it has one. -/
theorem mem_claimed_iff (h : w.Attempt f b r) (name : String) :
    name ∈ r.workspace.claimed ↔ name ∈ w.claimed ∨ b.name? = some name := by
  cases h with
  | unusable hn => simp [hn]
  | refused hn h =>
    rw [hn, Option.some.injEq]
    exact ⟨.inl, fun hor => hor.elim id fun heq => heq ▸ h⟩
  | failed hn | brought hn =>
    rw [hn, Option.some.injEq, claiming, List.mem_append, List.mem_singleton, eq_comm]

/-- An attempt is refused exactly when its name is claimed. -/
theorem refused_iff (h : w.Attempt f b r) (name : String) :
    r.result = .error (.alreadyPresent name w.runId) ↔ b.name? = some name ∧ name ∈ w.claimed := by
  cases h with
  | unusable hn => simp [hn]
  | refused hn h =>
    rw [hn]
    simp only [Except.error.injEq, WorkspaceError.alreadyPresent.injEq, and_true,
      Option.some.injEq]
    exact ⟨fun heq => ⟨heq, heq ▸ h⟩, And.left⟩
  | failed hn h he =>
    rw [hn]
    constructor
    · intro heq
      exact absurd (Except.error.inj heq) (he name w.runId)
    · rintro ⟨heq, hmem⟩
      exact absurd (Option.some.inj heq ▸ hmem) h
  | brought hn h =>
    rw [hn]
    constructor
    · intro heq
      contradiction
    · rintro ⟨heq, hmem⟩
      exact absurd (Option.some.inj heq ▸ hmem) h

theorem files_of_error (h : w.Attempt f b r) {e : WorkspaceError} (he : r.result = .error e) :
    r.files = f := by
  cases h with
  | brought => contradiction
  | unusable | refused | failed => rfl

/-- An attempt that succeeds has written the file under its name, which was new. -/
theorem exists_write_of_ok (h : w.Attempt f b r) {path : String} (hpath : r.result = .ok path) :
    ∃ name bytes, b.name? = some name ∧ name ∉ w.claimed ∧ path = join w.dir name ∧
      b.content f = .ok bytes ∧ f.write path bytes = .ok r.files := by
  cases h with
  | unusable | refused | failed => contradiction
  | @brought name bytes g hn h hb hg =>
    obtain rfl := Except.ok.inj hpath
    exact ⟨name, bytes, hn, h, rfl, hb, hg⟩

/-- An attempt succeeds when its name is new and the file can be written under it. -/
theorem ok_of_write (h : w.Attempt f b r) {name : String} {bytes : List UInt8} {g : Files}
    (hn : b.name? = some name) (hnew : name ∉ w.claimed) (hb : b.content f = .ok bytes)
    (hg : f.write (join w.dir name) bytes = .ok g) : r.result = .ok (join w.dir name) := by
  cases h with
  | unusable hn' => exact nomatch hn.symm.trans hn'
  | refused hn' h => exact absurd (Option.some.inj (hn'.symm.trans hn) ▸ h) hnew
  | failed hn' _ _ hno =>
    obtain rfl := Option.some.inj (hn.symm.trans hn')
    exact absurd hg (hno bytes hb g)
  | brought hn' => rw [Option.some.inj (hn.symm.trans hn')]

end Attempt

/-! ## One attempt after another -/

theorem after_kept (w : Workspace) (attempts : List (Files × Bringing)) :
    (w.after attempts).dir = w.dir ∧ (w.after attempts).runId = w.runId := by
  induction attempts generalizing w with
  | nil => exact ⟨rfl, rfl⟩
  | cons a attempts ih =>
    obtain ⟨hdir, hrunId⟩ := (bring_attempt w a.1 a.2).kept
    obtain ⟨hdir', hrunId'⟩ := ih (w.bring a.1 a.2).workspace
    exact ⟨hdir'.trans hdir, hrunId'.trans hrunId⟩

/-- The names of all attempts are claimed, whatever became of them. -/
theorem mem_claimed_after (w : Workspace) (attempts : List (Files × Bringing)) (name : String) :
    name ∈ (w.after attempts).claimed ↔
      name ∈ w.claimed ∨ ∃ a ∈ attempts, a.2.name? = some name := by
  induction attempts generalizing w with
  | nil => simp [after]
  | cons a attempts ih =>
    refine (ih _).trans ?_
    rw [(bring_attempt w a.1 a.2).mem_claimed_iff, or_assoc]
    simp only [List.mem_cons, exists_eq_or_imp]

/-- Files are brought into a new working directory one after another, and each attempt finds a tree
that anything may have happened to. The next attempt is refused exactly when there was one before it
that had its name, whatever became of that one. If it is not refused, it succeeds as soon as the
file can be written; then, for a plain name, just that file is written, and otherwise the tree is as
it was. But its name is claimed in any case. Nothing is said of what a file holds that was copied
onto itself: a disk may empty it, which is not part of the tree. -/
theorem bring_after (w : Workspace) (hnew : w.claimed = []) (attempts : List (Files × Bringing))
    (f : Files) (b : Bringing) :
    let r := (w.after attempts).bring f b
    (∀ name, r.result = .error (.alreadyPresent name w.runId) ↔
      b.name? = some name ∧ ∃ a ∈ attempts, a.2.name? = some name) ∧
    (∀ path, r.result = .ok path ↔ ∃ name bytes g, b.name? = some name ∧
      (∀ a ∈ attempts, a.2.name? ≠ some name) ∧ path = join w.dir name ∧
      b.content f = .ok bytes ∧ f.write path bytes = .ok g) ∧
    (∀ q name path, w.StandsAt f q → IsName name → b.name? = some name →
      (∀ source, b = .copy source → f.locate source ≠ .ok (q ++ [name])) → r.result = .ok path →
      ∃ bytes, b.content f = .ok bytes ∧ f.Writes (q ++ [name]) bytes r.files) ∧
    (∀ e, r.result = .error e → r.files = f) ∧
    ∀ name, name ∈ r.workspace.claimed ↔
      b.name? = some name ∨ ∃ a ∈ attempts, a.2.name? = some name := by
  intro r
  have hr : (w.after attempts).Attempt f b r := bring_attempt _ f b
  obtain ⟨hdir, hrunId⟩ := after_kept w attempts
  have hclaimed (name : String) : name ∈ (w.after attempts).claimed ↔
      ∃ a ∈ attempts, a.2.name? = some name := by
    rw [mem_claimed_after, hnew]
    simp
  have hnone (name : String) : name ∉ (w.after attempts).claimed ↔
      ∀ a ∈ attempts, a.2.name? ≠ some name := by
    rw [hclaimed]
    simp only [not_exists, not_and, ne_eq]
  refine ⟨fun name => ?_, fun path => ⟨fun hpath => ?_, ?_⟩,
    fun q name path hw hn hname _ hpath => ?_, fun e he => hr.files_of_error he, fun name => ?_⟩
  · rw [← hclaimed, ← hr.refused_iff, hrunId]
  · obtain ⟨name, bytes, hname, hfresh, rfl, hcontent, hwrite⟩ := hr.exists_write_of_ok hpath
    rw [hdir] at hwrite ⊢
    exact ⟨name, bytes, r.files, hname, (hnone name).mp hfresh, rfl, hcontent, hwrite⟩
  · rintro ⟨name, bytes, g, hname, hfresh, rfl, hcontent, hwrite⟩
    rw [← hdir] at hwrite ⊢
    exact hr.ok_of_write hname ((hnone name).mpr hfresh) hcontent hwrite
  · obtain ⟨name', bytes, hname', -, rfl, hcontent, hwrite⟩ := hr.exists_write_of_ok hpath
    obtain rfl := Option.some.inj (hname.symm.trans hname')
    rw [hdir] at hwrite
    obtain ⟨-, -, -, hwrites⟩ := Files.write_join_eq_ok hn hw.locate hw.isDirAt hwrite
    exact ⟨bytes, hcontent, hwrites⟩
  · rw [hr.mem_claimed_iff, hclaimed, or_comm]

/-- Two files are brought in, one of them from elsewhere; a third one has the name of the first. -/
theorem bring_after_two :
    let f : Files := { entries := [(["runs"], .dir 0), (["runs", "r"], .dir 0), (["lib"], .dir 0),
      (["lib", "b.wasm"], .file [7] 0)] }
    let w : Workspace := ⟨"r", "/runs/r", []⟩
    let attempts : List (Files × Bringing) := [(f, .write "a.wasm" [1]), (f, .copy "/lib/b.wasm")]
    w.claimed = [] ∧
      ((w.after attempts).bring f (.copy "/lib/./a.wasm")).result =
        .error (.alreadyPresent "a.wasm" "r") ∧
      ((w.after attempts).bring f (.write "c.wasm" [])).result = .ok "/runs/r/c.wasm" := by
  intro f w attempts
  have hname : Bringing.name? (.copy "/lib/./a.wasm") = some "a.wasm" := by decide +kernel
  have hfresh : ∀ a ∈ attempts, a.2.name? ≠ some "c.wasm" := by
    simp only [attempts, List.forall_mem_cons]
    decide +kernel
  obtain ⟨hrefused, -⟩ := bring_after w rfl attempts f (.copy "/lib/./a.wasm")
  obtain ⟨-, hok, -⟩ := bring_after w rfl attempts f (.write "c.wasm" [])
  exact ⟨rfl, (hrefused "a.wasm").mpr ⟨hname, _, List.mem_cons_self, rfl⟩,
    (hok "/runs/r/c.wasm").mpr ⟨"c.wasm", [], _, rfl, hfresh, by decide +kernel, rfl, rfl⟩⟩

/-- A file cannot be copied because it is not there, and its name is claimed all the same: what is
written under the name afterwards is refused as present, though nothing is there, while in a
directory without that attempt it can be written. -/
theorem bring_refused_after_failure :
    let f : Files := { entries := [(["runs"], .dir 0), (["runs", "r"], .dir 0)] }
    let w : Workspace := ⟨"r", "/runs/r", []⟩
    let first := w.bring f (.copy "/lib/a.wasm")
    first.result = .error (.copy "/lib/a.wasm" .notFound) ∧ first.files = f ∧
      first.files.pathExists "/runs/r/a.wasm" = false ∧ first.workspace.claimed ≠ w.claimed ∧
      (first.workspace.bring first.files (.write "a.wasm" [1])).result =
        .error (.alreadyPresent "a.wasm" "r") ∧
      (w.bring f (.write "a.wasm" [1])).result = .ok "/runs/r/a.wasm" := by
  intro f w first
  have hfirst : first.result = .error (.copy "/lib/a.wasm" .notFound) := rfl
  have hfiles : first.files = f := (bring_attempt w f _).files_of_error hfirst
  have hclaimed : "a.wasm" ∈ first.workspace.claimed := by decide +kernel
  have hpath : join w.dir "a.wasm" = "/runs/r/a.wasm" := by decide +kernel
  refine ⟨hfirst, hfiles, ?_, List.ne_nil_of_mem hclaimed, ?_, ?_⟩
  · rw [hfiles]
    decide +kernel
  · exact ((bring_attempt _ _ _).refused_iff "a.wasm").mpr ⟨rfl, hclaimed⟩
  · obtain ⟨g, hg⟩ : ∃ g, f.write "/runs/r/a.wasm" [1] = .ok g := ⟨_, rfl⟩
    rw [← hpath] at hg ⊢
    exact (bring_attempt w f _).ok_of_write rfl List.not_mem_nil rfl hg

end Workspace

end LiveTrace
