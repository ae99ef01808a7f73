import LiveTrace.Proofs.Files.Location
import LiveTrace.Proofs.Run.Staging

/-
  Where dependencies are that are loaded in place. A path is trusted when it begins with a trusted
  directory as it is written, which says where it leads only if it does not go up from there again
  (`Stays.contains`). A dependency outside of all trusted directories is therefore loaded from a
  copy, unless its path begins in one and leaves it (`start_copies_outsiders`).
-/
namespace LiveTrace

open LiveTrace.Path (Avoids join resolve startsWith wayFrom)

namespace EvaluatorConfig

variable {c : EvaluatorConfig} {path : String}

/-- A place is in a trusted directory. -/
def Contains (c : EvaluatorConfig) (cwd p : Place) : Prop :=
  ∃ dir ∈ c.trustedReferenceDirs, resolve cwd dir <+: p

/-- A path begins with a trusted directory and never goes above it. -/
def Stays (c : EvaluatorConfig) (path : String) : Prop :=
  ∃ dir ∈ c.trustedReferenceDirs, startsWith path dir = true ∧ (wayFrom dir path).up = 0

instance (c : EvaluatorConfig) (cwd p : Place) : Decidable (c.Contains cwd p) :=
  inferInstanceAs (Decidable (∃ dir ∈ c.trustedReferenceDirs, resolve cwd dir <+: p))

instance (c : EvaluatorConfig) (path : String) : Decidable (c.Stays path) :=
  inferInstanceAs (Decidable (∃ dir ∈ c.trustedReferenceDirs,
    startsWith path dir = true ∧ (wayFrom dir path).up = 0))

theorem Stays.isTrusted (h : c.Stays path) : c.isTrusted path = true := by
  obtain ⟨dir, hdir, hstarts, -⟩ := h
  exact List.any_eq_true.mpr ⟨dir, hdir, hstarts⟩

theorem Stays.contains (h : c.Stays path) (hdirs : ∀ dir ∈ c.trustedReferenceDirs, dir ≠ "")
    (cwd : Place) : c.Contains cwd (resolve cwd path) := by
  obtain ⟨dir, hdir, hstarts, hup⟩ := h
  exact ⟨dir, hdir, Path.below_of_startsWith (hdirs dir hdir) hstarts hup cwd⟩

end EvaluatorConfig

namespace Runner

open Stage (loadedFrom stageDependencies untrusted)

variable {σ : Type}

/-- Trusted directories have names. A path that begins with one leads into it exactly when it comes
back by the names that it went up by, so it is in a trusted directory if there is one from which it
does not go up. Hence a dependency of a run that is outside of all trusted directories is loaded
from a copy in the working directory, unless its path begins with a trusted directory and goes up
from each one that it begins with. -/
theorem start_copies_outsiders (r : Runner) (h : Host σ) (sub : Submission σ) (f : Files)
    (w : Workspace) (hdirs : ∀ dir ∈ r.config.trustedReferenceDirs, dir ≠ "")
    (hnew : h.files.IsUnused (RunId.ofIndex h.runs))
    (hpaths : ∀ path ∈ sub.project.references, Avoids path (RunId.ofIndex h.runs))
    (hc : r.createWorkspace h = (f, .ok w)) :
    let c := r.config
    (∀ path cwd, (∀ dir ∈ c.trustedReferenceDirs, startsWith path dir = true →
        (resolve cwd dir <+: resolve cwd path ↔
          (wayFrom dir path).Returns (resolve cwd dir))) ∧
      (c.Stays path → c.isTrusted path = true ∧ c.Contains cwd (resolve cwd path))) ∧
    ∀ s froms, stageDependencies c (begun h sub f w) sub.project.references = (s, .ok froms) →
      froms = sub.project.references.map (loadedFrom c w) ∧
      ∀ path ∈ sub.project.references, f.locate path = .ok (resolve f.workingDir path) ∧
        (¬ c.Contains f.workingDir (resolve f.workingDir path) →
          (c.isTrusted path = true → c.Stays path) →
          ∃ name bytes, Path.fileName? path = some name ∧ loadedFrom c w path = join w.dir name ∧
            f.read path = .ok bytes ∧ s.host.files.read (join w.dir name) = .ok bytes) := by
  intro c
  refine ⟨fun path cwd => ⟨fun dir hdir hstarts =>
    Path.below_iff_of_startsWith (hdirs dir hdir) hstarts cwd, fun hstays =>
    ⟨hstays.isTrusted, hstays.contains hdirs cwd⟩⟩, fun s froms hok => ?_⟩
  rcases stageDependencies_begun sub hnew hpaths hc with
    ⟨q, s', hw, hstaged, hb, hs⟩ | ⟨s', o, before, path, after, hstaged, -⟩
  · obtain ⟨rfl, hfroms⟩ := Prod.mk.inj (hstaged.symm.trans hok)
    refine ⟨(Except.ok.inj hfroms).symm, fun path hpath => ?_⟩
    obtain ⟨p, hp⟩ := Files.exists_locate_of_pathExists (hb.there path hpath)
    obtain rfl := Files.locate_eq_resolve hp
    refine ⟨hp, fun hout hstays => ?_⟩
    have hc : c.isTrusted path = false :=
      Bool.eq_false_iff.mpr fun ht => hout ((hstays ht).contains hdirs f.workingDir)
    exact hs.read hb hw (List.mem_filter.mpr ⟨hpath, by rw [hc]; rfl⟩)
  · exact nomatch congrArg Prod.snd (hstaged.symm.trans hok)

/-- A run in `/home` with two trusted directories. One of its dependencies is in the first and one
in the second, however they are written; the third is beside them and is copied. -/
theorem start_copies_outsiders_of_detours :
    let s : Submission Monitor := {
      id := 4
      project := ⟨[], ["/opt/ref/./a/../std.wasm", "lib//b.wasm", "/opt/ref2/std.wasm"], ""⟩
      sink := {} }
    let h : Host Monitor := {
      files := { workingDir := ["home"], entries := [(["runs"], .dir 0), (["opt"], .dir 0),
        (["opt", "ref"], .dir 0), (["opt", "ref", "a"], .dir 0),
        (["opt", "ref", "std.wasm"], .file [1] 0), (["opt", "ref2"], .dir 0),
        (["opt", "ref2", "std.wasm"], .file [2] 0), (["home"], .dir 0),
        (["home", "lib"], .dir 0), (["home", "lib", "b.wasm"], .file [3] 0)] } }
    let r : Runner := ⟨{ workspaceRoot := "/runs", trustedReferenceDirs := ["/opt/ref", "lib"] }⟩
    let copy := "/runs/" ++ RunId.ofIndex 0 ++ "/std.wasm"
    r.config.Contains ["home"] (resolve ["home"] "/opt/ref/./a/../std.wasm") ∧
    ∃ f w stage, r.createWorkspace h = (f, .ok w) ∧
      stageDependencies r.config (begun h s f w) s.project.references =
        (stage, .ok ["/opt/ref/./a/../std.wasm", "lib//b.wasm", copy]) ∧
      f.locate "lib//b.wasm" = .ok ["home", "lib", "b.wasm"] ∧
      stage.host.files.read copy = .ok [2] := by
  intro s h r copy
  let w : Workspace := ⟨RunId.ofIndex 0, "/runs/" ++ RunId.ofIndex 0, []⟩
  have hnew : h.files.IsUnused (RunId.ofIndex h.runs) := ⟨by decide +kernel, by decide +kernel⟩
  have hpaths : ∀ path ∈ s.project.references, Avoids path (RunId.ofIndex h.runs) := by
    unfold Avoids
    decide +kernel
  have hjoin : join w.dir "std.wasm" = copy := by decide +kernel
  obtain ⟨f, hc⟩ := exists_of_toOption (show (r.createWorkspace h).2.toOption = some w by
    decide +kernel)
  have hf : (r.createWorkspace h).1 = f := congrArg Prod.fst hc
  have hcwd : f.workingDir = ["home"] := by
    subst hf
    decide +kernel
  have hread : (f.read "/opt/ref2/std.wasm").toOption = some [2] := by
    subst hf
    decide +kernel
  obtain ⟨stage, hstaged⟩ := exists_of_toOption
    (show (stageDependencies r.config (begun h s f w) s.project.references).2.toOption =
        some ["/opt/ref/./a/../std.wasm", "lib//b.wasm", copy] by
      subst hf
      decide +kernel)
  obtain ⟨hall, hrun⟩ := start_copies_outsiders r h s f w (by decide) hnew hpaths hc
  obtain ⟨-, hloaded⟩ := hrun stage _ hstaged
  obtain ⟨hlib, -⟩ := hloaded "lib//b.wasm" (by simp [s])
  obtain ⟨-, hcopy⟩ := hloaded "/opt/ref2/std.wasm" (by simp [s])
  rw [hcwd] at hlib hcopy
  obtain ⟨name, bytes, hname, -, hbytes, hbytes'⟩ := hcopy (by decide +kernel) (by decide +kernel)
  obtain rfl : "std.wasm" = name := Option.some.inj (by rw [← hname]; decide +kernel)
  obtain rfl := Except.ok.inj ((eq_ok_of_toOption hread).symm.trans hbytes)
  exact ⟨((hall "/opt/ref/./a/../std.wasm" ["home"]).2 (by decide +kernel)).2, f, w, stage, hc,
    hstaged, hlib.trans (by decide +kernel), hjoin ▸ hbytes'⟩

/-- A dependency that is beside the only trusted directory is loaded in place when its path passes
through the directory. -/
theorem start_loads_outsider_in_place :
    let path := "/opt/ref/../evil.wasm"
    let s : Submission Monitor := { id := 4, project := ⟨[], [path], ""⟩, sink := {} }
    let h : Host Monitor := {
      files := { entries := [(["runs"], .dir 0), (["opt"], .dir 0), (["opt", "ref"], .dir 0),
        (["opt", "evil.wasm"], .file [1] 0)] } }
    let r : Runner := ⟨{ workspaceRoot := "/runs", trustedReferenceDirs := ["/opt/ref"] }⟩
    r.config.isTrusted path = true ∧ resolve [] path = ["opt", "evil.wasm"] ∧
      ¬ r.config.Contains [] (resolve [] path) ∧
      ∃ f w stage, r.createWorkspace h = (f, .ok w) ∧
        stageDependencies r.config (begun h s f w) s.project.references = (stage, .ok [path]) := by
  intro path s h r
  let w : Workspace := ⟨RunId.ofIndex 0, "/runs/" ++ RunId.ofIndex 0, []⟩
  obtain ⟨f, hc⟩ := exists_of_toOption (show (r.createWorkspace h).2.toOption = some w by
    decide +kernel)
  have hf : (r.createWorkspace h).1 = f := congrArg Prod.fst hc
  obtain ⟨stage, hstaged⟩ := exists_of_toOption
    (show (stageDependencies r.config (begun h s f w) s.project.references).2.toOption =
        some [path] by
      subst hf
      decide +kernel)
  exact ⟨by decide +kernel, by decide +kernel, by decide +kernel, f, w, stage, hc, hstaged⟩

end Runner

end LiveTrace
