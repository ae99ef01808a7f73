import LiveTrace.CommandLine.Watch
import LiveTrace.Proofs.Evaluator.System
import LiveTrace.Wasm.Engine
import Mathlib.Data.List.Induction

/-
  Which changes a watcher sees. It remembers one time for all its files: the latest one at the last
  poll that found any of them (`run_seen`). A poll makes a submission exactly when that time is
  another, which is to say that some file is newer at one of the two polls than all files are at
  the other (`latestChange_ne_iff`). A change below the latest time goes unseen, whichever way the
  time moves (`unseen_below_latest`).
-/
namespace LiveTrace

/-! ## Offers -/

namespace Evaluator

variable [Engine] {σ : Type} {e e' : Evaluator σ}

/-- What an offer comes to that is not refused: the submission is in the slot, and the one that
was there before has its flag set. -/
theorem push_accepted (h : e.disposed = false) (k : Key) :
    (e.push k).disposed = false ∧ (e.push k).slot = some k ∧ (e.push k).wakeUp = true ∧
      ∀ j, (e.push k).host.submission? j =
        if e.slot = some j then (e.host.submission? j).map Submission.cancel
        else e.host.submission? j := by
  have hfirst : e.offerStep (.called k) = (e, .swapping k) := by
    unfold offerStep
    rw [h]
    rfl
  unfold push
  simp only [Nat.repeat, hfirst]
  unfold offerStep
  cases hslot : e.slot with
  | none => exact ⟨h, rfl, rfl, fun j => (if_neg nofun).symm⟩
  | some i =>
    refine ⟨h, rfl, rfl, fun j => ?_⟩
    dsimp only
    unfold Host.cancel
    rw [Host.submission?_update]
    by_cases hj : i = j
    · rw [if_pos hj, if_pos (congrArg some hj)]
      rfl
    · rw [if_neg hj, if_neg (mt Option.some.inj hj)]
      rfl

/-- An offer of what was submitted last. -/
theorem push_last (h : e.disposed = false)
    (hslot : ∀ j, e.slot = some j → (e.host.submission? j).isSome = true) (s : Submission σ) :
    let k := e.host.submissions.length
    let v := { e with
      host := { e.host with submissions := e.host.submissions ++ [s] } }.push k
    v.disposed = false ∧ v.slot = some k ∧ v.wakeUp = true ∧ v.host.submission? k = some s ∧
      ∀ j, e.slot = some j → v.host.isCanceled j = true := by
  intro k v
  obtain ⟨hd, hk, hwake, hkept⟩ := push_accepted
    (e := { e with host := { e.host with submissions := e.host.submissions ++ [s] } }) h k
  have hlt {j : Key} (hj : e.slot = some j) : j < k := by
    simpa [Host.submission?] using hslot j hj
  refine ⟨hd, hk, hwake, ?_, fun j hj => ?_⟩
  · rw [hkept, if_neg fun hself => Nat.lt_irrefl k (hlt hself)]
    exact List.getElem?_concat_length
  · have hold : (e.host.submissions ++ [s])[j]? = e.host.submissions[j]? :=
      List.getElem?_append_left (hlt hj)
    obtain ⟨t, ht⟩ := Option.isSome_iff_exists.mp (hslot j hj)
    unfold Host.isCanceled
    rw [hkept, if_pos hj]
    unfold Host.submission? at ht ⊢
    dsimp only
    rw [hold, ht]
    rfl

/-- The worker disposes of nothing, leaves the submissions in their places, and can only empty the
slot. -/
theorem WorkerEffect.keeps [TraceSink σ] {ds : List Deed} (he : e.WorkerEffect e' ds) :
    e'.disposed = e.disposed ∧ e'.host.labels = e.host.labels ∧
      (e'.slot = e.slot ∨ e'.slot = none) := by
  cases he with
  | idle | receive | stop | proceed | miss | publish => exact ⟨rfl, rfl, .inl rfl⟩
  | take => exact ⟨rfl, rfl, .inr rfl⟩
  | goOn _ _ _ hl | exhaust _ _ _ hl | conclude _ _ _ hl | die _ _ _ hl => exact ⟨rfl, hl, .inl rfl⟩

end Evaluator

namespace CommandLine

/-! ## Latest changes -/

/-- Some of the files is newer in `g` than all of them are in `f`. -/
def IsNewer (paths : List String) (f g : Files) : Prop :=
  ∃ path ∈ paths, ∃ t, g.modified? path = some t ∧
    ∀ other ∈ paths, ∀ s, f.modified? other = some s → s < t

variable {paths : List String} {f g : Files} {t : Instant}

theorem latestChange_eq_some_iff : latestChange f paths = some t ↔
    (∃ path ∈ paths, f.modified? path = some t) ∧
      ∀ path ∈ paths, ∀ s, f.modified? path = some s → s ≤ t := by
  unfold latestChange
  rw [List.max?_eq_some_iff, List.mem_filterMap]
  refine and_congr_right fun _ => ⟨fun h path hpath s hs => ?_, fun h s hs => ?_⟩
  · exact h s (List.mem_filterMap.mpr ⟨path, hpath, hs⟩)
  · obtain ⟨path, hpath, hs⟩ := List.mem_filterMap.mp hs
    exact h path hpath s hs

theorem isSome_latestChange (f : Files) (paths : List String) :
    (latestChange f paths).isSome = paths.any fun path => (f.modified? path).isSome := by
  unfold latestChange
  rw [Bool.eq_iff_iff, List.isSome_max?_iff, ne_eq, List.filterMap_eq_nil_iff, List.any_eq_true]
  simp [Option.isSome_iff_ne_none]

theorem exists_latestChange {path : String} (hpath : path ∈ paths) (h : f.modified? path ≠ none) :
    ∃ t, latestChange f paths = some t := by
  rw [← Option.isSome_iff_exists, isSome_latestChange, List.any_eq_true]
  exact ⟨path, hpath, Option.isSome_iff_ne_none.mpr h⟩

theorem isNewer_iff : IsNewer paths f g ↔
    ∃ t, latestChange g paths = some t ∧ ∀ s, latestChange f paths = some s → s < t := by
  constructor
  · rintro ⟨path, hpath, t, ht, hall⟩
    obtain ⟨u, hu⟩ := exists_latestChange hpath (by rw [ht]; exact nofun : g.modified? path ≠ none)
    refine ⟨u, hu, fun s hs => ?_⟩
    obtain ⟨other, hother, hs⟩ := (latestChange_eq_some_iff.mp hs).1
    exact Int.lt_of_lt_of_le (hall other hother s hs)
      ((latestChange_eq_some_iff.mp hu).2 path hpath t ht)
  · rintro ⟨t, ht, hall⟩
    obtain ⟨path, hpath, ht⟩ := (latestChange_eq_some_iff.mp ht).1
    refine ⟨path, hpath, t, ht, fun other hother s hs => ?_⟩
    obtain ⟨u, hu⟩ := exists_latestChange hother
      (by rw [hs]; exact nofun : f.modified? other ≠ none)
    exact Int.lt_of_le_of_lt ((latestChange_eq_some_iff.mp hu).2 other hother s hs) (hall u hu)

instance (paths : List String) (f g : Files) : Decidable (IsNewer paths f g) :=
  decidable_of_iff
    (((latestChange g paths).any fun t => (latestChange f paths).all (· < t)) = true) (by
      rw [isNewer_iff]
      cases latestChange g paths <;> cases latestChange f paths <;> simp)

/-- The latest time is another when some file is newer in one of the trees than all are in the
other. -/
theorem latestChange_ne_iff :
    latestChange g paths ≠ latestChange f paths ↔ IsNewer paths f g ∨ IsNewer paths g f := by
  rw [isNewer_iff, isNewer_iff]
  cases latestChange g paths with
  | none => cases latestChange f paths <;> simp
  | some t =>
    cases latestChange f paths with
    | none => simp
    | some s =>
      simp only [ne_eq, Option.some.injEq, exists_eq_left', forall_eq']
      exact Int.ne_iff_lt_or_gt.trans or_comm

/-! ## Courses of a watcher -/

namespace Watcher

/-- What happens while a watcher is on: it looks at its files and finds them as they are in a tree,
the worker of its evaluator goes a step, or it prints what it has heard. -/
inductive Event where
  | look (f : Files)
  | work (fuel : Nat)
  | print

/-- The tree of a look. -/
def Event.look? : Event → Option Files
  | look f => some f
  | work _ | print => none

section

variable [Engine]

def act (w : Watcher) : Event → Watcher
  | .look f => (w.withFiles f).poll
  | .work fuel => { w with evaluator := w.evaluator.workerStep fuel }
  | .print => w.listen.1

def run (w : Watcher) (as : List Event) : Watcher := as.foldl act w

/-- The last of some trees in which any of the files is there. -/
def lastThere? (paths : List String) (fs : List Files) : Option Files :=
  (fs.filter fun f => paths.any fun path => (f.modified? path).isSome).getLast?

/-- What holds of a watcher at all times: it watches the files it was made for, its evaluator is
not disposed of, and what is in the slot of that was submitted. -/
structure IsOn (input : Input) (w : Watcher) : Prop where
  input : w.input = input
  disposed : w.evaluator.disposed = false
  slot : ∀ k, w.evaluator.slot = some k → (w.evaluator.host.submission? k).isSome = true

/-- The submission that a watcher makes next if it finds the tree `f` and the code in it. -/
def next (w : Watcher) (f : Files) (code : String) : Submission Recorder :=
  { id := UInt32.ofNat (w.ids + 1), code, project := w.input.project, sink := {}
    createdAt := f.now }

/-- A poll of a watcher `u` that found the tree `g` has made the submission with the next id. It is
in the slot, where it takes the place of any other one, and the worker is woken, unless the code
cannot be read. -/
structure Submits (u : Watcher) (g : Files) (v : Watcher) : Prop where
  ids : v.ids = u.ids + 1
  seen : v.seen = latestChange g u.input.watched
  pushed : ∀ code, u.input.readCode g = .ok code → ∃ k,
    u.evaluator.host.submission? k = none ∧ v.evaluator.slot = some k ∧
    v.evaluator.wakeUp = true ∧
    v.evaluator.host.submission? k = some (u.next g code) ∧
    ∀ j, u.evaluator.slot = some j → v.evaluator.host.isCanceled j = true
  skipped : ∀ e, u.input.readCode g = .error e →
    v.evaluator.slot = u.evaluator.slot ∧ v.evaluator.wakeUp = u.evaluator.wakeUp ∧
    v.evaluator.host.submissions = u.evaluator.host.submissions ∧
    ∃ line, v.evaluator.host.log = u.evaluator.host.log ++ [line] ∧ line.level = .warn

variable {input : Input} {u w : Watcher}

/-- A watcher begins with an evaluator of its own, started and with nothing offered, and listens to
it. -/
theorem create_eq_ok {c : EvaluatorConfig} {f₀ f₁ : Files}
    (h : create c input f₀ = (f₁, .ok w)) : ∃ host runner, w = {
      evaluator := { host, runner, started := true, worker := some .waiting, receivers := [{}]
                     subscribers := [0] }
      input } := by
  unfold create Evaluator.create at h
  dsimp only at h
  generalize Runner.create c f₀ = created at h
  obtain ⟨f, e | r⟩ := created
  · exact nomatch congrArg Prod.snd h
  · obtain rfl := Except.ok.inj (congrArg Prod.snd h)
    exact ⟨_, _, rfl⟩

theorem create_isOn {c : EvaluatorConfig} {f₀ f₁ : Files}
    (h : create c input f₀ = (f₁, .ok w)) : w.IsOn input := by
  obtain ⟨host, runner, rfl⟩ := create_eq_ok h
  exact ⟨rfl, rfl, nofun⟩

theorem submit_of_code {code : String} (h : w.input.readCode w.files = .ok code) :
    w.submit = { w with
      ids := w.ids + 1
      evaluator := { w.evaluator with host := { w.evaluator.host with
        submissions := w.evaluator.host.submissions ++ [w.next w.files code] } }.push
          w.evaluator.host.submissions.length } := by
  unfold submit Input.submission
  unfold files at h
  dsimp only
  rw [h]
  rfl

theorem submit_of_error {e : Failure} (h : w.input.readCode w.files = .error e) :
    ∃ text, w.submit = { w with
      ids := w.ids + 1
      evaluator := { w.evaluator with host := w.evaluator.host.warn text } } := by
  unfold submit Input.submission
  unfold files at h
  dsimp only
  rw [h]
  exact ⟨_, rfl⟩

/-- A poll that makes a submission offers it to the evaluator if its code can be read. -/
theorem submit_submits (hu : u.IsOn input) (g : Files) :
    let v := { u.withFiles g with seen := latestChange g input.watched }.submit
    v.IsOn input ∧ Submits u g v := by
  obtain ⟨rfl, hd, hslot⟩ := hu
  intro v
  cases hcode : u.input.readCode g with
  | error e =>
    obtain ⟨text, hv⟩ := submit_of_error
      (w := { u.withFiles g with seen := latestChange g u.input.watched }) hcode
    change v = _ at hv
    rw [hv]
    refine ⟨⟨rfl, hd, hslot⟩, rfl, rfl, fun code h => ?_, fun _ _ => ⟨rfl, rfl, rfl, _, rfl, rfl⟩⟩
    exact nomatch hcode.symm.trans h
  | ok code =>
    have hv := submit_of_code
      (w := { u.withFiles g with seen := latestChange g u.input.watched }) hcode
    obtain ⟨hd', hk, hwake, hlast, hbumped⟩ :=
      Evaluator.push_last (e := (u.withFiles g).evaluator) hd hslot (u.next g code)
    change v = _ at hv
    rw [hv]
    refine ⟨⟨rfl, hd', fun k hslot => ?_⟩, rfl, rfl, fun code' h => ?_, fun e h => ?_⟩
    · obtain rfl := Option.some.inj (hk.symm.trans hslot)
      exact Option.isSome_iff_exists.mpr ⟨_, hlast⟩
    · obtain rfl := Except.ok.inj (hcode.symm.trans h)
      exact ⟨_, List.getElem?_eq_none (Nat.le_refl _), hk, hwake, hlast, hbumped⟩
    · exact nomatch hcode.symm.trans h

/-! ## What is remembered -/

/-- A poll makes a submission if the latest time is there and is another, and otherwise it does
nothing. -/
theorem look_eq (w : Watcher) (f : Files) : w.act (.look f) =
    if isDue w.seen (latestChange f w.input.watched) then
      { w.withFiles f with seen := latestChange f w.input.watched }.submit
    else w.withFiles f := rfl

theorem act_isOn (hw : w.IsOn input) (a : Event) :
    (w.act a).IsOn input ∧ (w.act a).seen =
      ((a.look?.bind fun f => latestChange f input.watched).or w.seen) := by
  cases a with
  | look f =>
    obtain ⟨hon, hsubmits⟩ := submit_submits hw f
    rw [look_eq, hw.input]
    cases hdue : isDue w.seen (latestChange f input.watched) with
    | true =>
      obtain ⟨hsome, -⟩ := Bool.and_eq_true_iff.mp hdue
      refine ⟨hon, (hw.input ▸ hsubmits.seen).trans ?_⟩
      exact (Option.or_of_isSome hsome).symm
    | false =>
      refine ⟨⟨hw.input, hw.disposed, hw.slot⟩, ?_⟩
      change w.seen = (latestChange f input.watched).or w.seen
      cases hlatest : latestChange f input.watched with
      | none => rfl
      | some t =>
        rw [hlatest] at hdue
        exact (by simpa [isDue] using hdue : some t = w.seen).symm
  | work fuel =>
    obtain ⟨hd, hl, hslot⟩ := (w.evaluator.workerStep_effect fuel).keeps
    refine ⟨⟨hw.input, hd.trans hw.disposed, fun k hk => ?_⟩, rfl⟩
    refine (Host.isSome_submission?_of_labels hl k).trans ?_
    rcases hslot with hslot | hslot
    · exact hw.slot k (hslot.symm.trans hk)
    · exact nomatch hslot.symm.trans hk
  | print => exact ⟨⟨hw.input, hw.disposed, hw.slot⟩, rfl⟩

omit [Engine] in
theorem lastThere?_concat (paths : List String) (fs : List Files) (f : Files) :
    lastThere? paths (fs ++ [f]) =
      if (latestChange f paths).isSome then some f else lastThere? paths fs := by
  unfold lastThere?
  rw [List.filter_append, List.filter_cons, List.filter_nil, isSome_latestChange]
  split
  · exact List.getLast?_concat
  · rw [List.append_nil]

/-- A watcher remembers the latest time in the last tree in which it found any of its files. -/
theorem run_seen (hw : w.IsOn input) (as : List Event) :
    (w.run as).IsOn input ∧ (w.run as).seen =
      ((lastThere? input.watched (as.filterMap Event.look?)).bind
        fun f => latestChange f input.watched).or w.seen := by
  induction as using List.reverseRecOn with
  | nil => exact ⟨hw, rfl⟩
  | append_singleton as a ih =>
    obtain ⟨hon, hseen⟩ := act_isOn ih.1 a
    have hrun : w.run (as ++ [a]) = (w.run as).act a := List.foldl_append
    rw [hrun, List.filterMap_append]
    refine ⟨hon, hseen.trans ?_⟩
    cases a with
    | look f =>
      rw [show List.filterMap Event.look? [.look f] = [f] from rfl, lastThere?_concat, ih.2]
      change (latestChange f input.watched).or _ = _
      cases hlatest : latestChange f input.watched with
      | none => rfl
      | some t => exact (congrArg (·.or w.seen) hlatest).symm
    | work _ | print =>
      rw [show List.filterMap Event.look? [_] = [] from rfl, List.append_nil]
      exact ih.2

omit [Engine] in
theorem exists_lastThere {paths : List String} {path : String} (hpath : path ∈ paths) {f : Files}
    (hf : f.modified? path ≠ none) (fs : List Files) :
    ∃ last t, lastThere? paths (f :: fs) = some last ∧ latestChange last paths = some t ∧
      (fs = [] → last = f) := by
  have hthere : (paths.any fun path => (f.modified? path).isSome) = true :=
    List.any_eq_true.mpr ⟨path, hpath, Option.isSome_iff_ne_none.mpr hf⟩
  have hmem : f ∈ (f :: fs).filter fun f => paths.any fun path => (f.modified? path).isSome :=
    List.mem_filter.mpr ⟨List.mem_cons_self, hthere⟩
  obtain ⟨last, hlast⟩ : ∃ last, lastThere? paths (f :: fs) = some last :=
    Option.ne_none_iff_exists'.mp (mt List.getLast?_eq_none_iff.mp (List.ne_nil_of_mem hmem))
  obtain ⟨hin, hsome⟩ := List.mem_filter.mp (List.mem_of_getLast? hlast)
  obtain ⟨t, ht⟩ := Option.isSome_iff_exists.mp ((isSome_latestChange last paths).trans hsome)
  refine ⟨last, t, hlast, ht, ?_⟩
  rintro rfl
  exact List.mem_singleton.mp hin

/-- A watcher that has looked at a tree with some of its files makes a submission at a later look,
while any of them is there, exactly when some file is newer in that tree than all files were in the
last tree with any, or was newer there than all of them are now. So it sees a file that has become
the newest, or is not the newest any more, but no change of other files. The submission is offered
to the evaluator if its code can be read. -/
theorem look_submits_iff (c : EvaluatorConfig) (input : Input) (f₀ f₁ f g : Files) (w : Watcher)
    (before between : List Event) (path : String) (hcreate : create c input f₀ = (f₁, .ok w))
    (hpath : path ∈ input.watched) (hf : f.modified? path ≠ none)
    (hg : g.modified? path ≠ none) :
    let u := w.run (before ++ .look f :: between)
    let v := u.act (.look g)
    ∃ last, lastThere? input.watched (f :: between.filterMap Event.look?) = some last ∧
      (between.filterMap Event.look? = [] → last = f) ∧
      (IsNewer input.watched last g ∨ IsNewer input.watched g last → Submits u g v) ∧
      (¬ (IsNewer input.watched last g ∨ IsNewer input.watched g last) → v = u.withFiles g) := by
  intro u v
  obtain ⟨hon, -⟩ := run_seen (create_isOn hcreate) before
  obtain ⟨hu, hseen⟩ := run_seen hon (.look f :: between)
  rw [show (w.run before).run (.look f :: between) = u from List.foldl_append.symm] at hu hseen
  obtain ⟨last, t, hlast, ht, honly⟩ :=
    exists_lastThere hpath hf (between.filterMap Event.look?)
  have hlooks : (Event.look f :: between).filterMap Event.look? =
      f :: between.filterMap Event.look? := rfl
  rw [hlooks, hlast, Option.bind_some, ht, Option.some_or] at hseen
  obtain ⟨s, hs⟩ := exists_latestChange hpath hg
  have hdue : isDue u.seen (latestChange g u.input.watched) = true ↔
      IsNewer input.watched last g ∨ IsNewer input.watched g last := by
    rw [← latestChange_ne_iff, hu.input, ht, hs, hseen]
    simp [isDue]
  refine ⟨last, hlast, honly, fun hnewer => ?_, fun hnewer => ?_⟩
  · change Submits u g (u.act (.look g))
    rw [look_eq, if_pos (hdue.mpr hnewer), hu.input]
    exact (submit_submits hu g).2
  · change u.act (.look g) = _
    rw [look_eq, if_neg (mt hdue.mp hnewer)]

end

/-- Two files are watched, and the older one is written anew. The watcher has a second submission,
which waits for the worker. -/
theorem look_submits_iff_of_newest :
    let c : EvaluatorConfig := { workspaceRoot := "/runs" }
    let input : Input := { sources := ["/a.wat", "/b.wat"], code := some "nop" }
    let tree (a b : Instant) : Files := {
      entries := [(["runs"], .dir 0), (["a.wat"], .file [] a), (["b.wat"], .file [] b)] }
    let between := [.work 9, .work 9, .work 9, .print]
    ∃ f₁ w, create c input (tree 5 10) = (f₁, .ok w) ∧
      let v := (w.run (.look (tree 5 10) :: between)).act (.look (tree 11 10))
      v.ids = 2 ∧ ∃ k, v.evaluator.slot = some k ∧ v.evaluator.wakeUp = true ∧
        (v.evaluator.host.submission? k).map (·.code) = some "nop" := by
  intro c input tree between
  have hids : ((create c input (tree 5 10)).2.toOption.map fun w =>
      (w.run (.look (tree 5 10) :: between)).ids) = some 1 := by decide +kernel
  generalize hcreate : create c input (tree 5 10) = created at hids
  obtain ⟨f₁, e | w⟩ := created
  · exact nomatch hids
  · obtain ⟨last, -, honly, hsubmits, -⟩ := look_submits_iff c input (tree 5 10) f₁ (tree 5 10)
      (tree 11 10) w [] between "/a.wat" hcreate (by decide) (by decide +kernel) (by decide +kernel)
    obtain rfl := honly rfl
    have hon := (run_seen (create_isOn hcreate) (.look (tree 5 10) :: between)).1
    have hnew := hsubmits (.inl (by decide +kernel))
    have hcode :
        (w.run (.look (tree 5 10) :: between)).input.readCode (tree 11 10) = .ok "nop" := by
      rw [hon.input]
      rfl
    obtain ⟨k, -, hk, hwake, hlast, -⟩ := hnew.pushed "nop" hcode
    exact ⟨f₁, w, rfl, hnew.ids.trans (congrArg (· + 1) (Option.some.inj hids)), k, hk, hwake,
      congrArg (Option.map (·.code)) hlast⟩

/-- Two files are watched, and the older one changes but stays the older one. Nothing is
submitted. -/
theorem unseen_below_latest :
    let c : EvaluatorConfig := { workspaceRoot := "/runs" }
    let input : Input := { sources := ["/a.wat", "/b.wat"], code := some "nop" }
    let tree (a b : Instant) : Files := {
      entries := [(["runs"], .dir 0), (["a.wat"], .file [] a), (["b.wat"], .file [] b)] }
    "/a.wat" ∈ input.watched ∧ (tree 5 10).modified? "/a.wat" = some 5 ∧
      (tree 7 10).modified? "/a.wat" = some 7 ∧
      ∃ f₁ w, create c input (tree 5 10) = (f₁, .ok w) ∧
        (w.run [.look (tree 5 10)]).ids = 1 ∧
        (w.run [.look (tree 5 10), .look (tree 7 10)]).ids = 1 ∧
        (w.run [.look (tree 5 10), .look (tree 7 10)]).evaluator.host.submissions.length = 1 := by
  intro c input tree
  refine ⟨by decide, by decide +kernel, by decide +kernel, ?_⟩
  have hcounts : ((create c input (tree 5 10)).2.toOption.map fun w =>
      let after := w.run [.look (tree 5 10), .look (tree 7 10)]
      ((w.run [.look (tree 5 10)]).ids, after.ids, after.evaluator.host.submissions.length)) =
      some (1, 1, 1) := by decide +kernel
  generalize create c input (tree 5 10) = created at hcounts
  obtain ⟨f₁, e | w⟩ := created
  · exact nomatch hcounts
  · obtain ⟨hfirst, hrest⟩ := Prod.mk.inj (Option.some.inj hcounts)
    obtain ⟨hsecond, hlength⟩ := Prod.mk.inj hrest
    exact ⟨f₁, w, rfl, hfirst, hsecond, hlength⟩

end Watcher

end CommandLine

end LiveTrace
