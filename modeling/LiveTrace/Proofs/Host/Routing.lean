import LiveTrace.Proofs.Host.Calls
import Mathlib.Data.List.Induction

/-
  Which submission the hooks reach. Registrations overlap, are dropped in any order and know of
  each other no more than an id, so what is registered depends on the whole history:
  `current_eq_some_iff` says how. A call goes to the registered submission, if it names that
  one's id, and to nobody else (`hook_routing`).
-/
namespace LiveTrace.Host

variable {σ : Type}

/-- What is done to registered submissions, and through them. -/
inductive Step where
  | load (k : Key)
  /-- Drops a registration of the id `id`, made at any time. -/
  | drop (id : SubmissionId)
  | cancel (k : Key)
  | hook (sid : SubmissionId) (c : HookCall)

/-- The submission `k` was loaded last, and no registration of its id was dropped since then. -/
def IsLatest (h : Host σ) (steps : List Step) (k : Key) : Prop :=
  ∃ before after, steps = before ++ .load k :: after ∧ (∀ j, .load j ∉ after) ∧
    ∀ id, h.idOf? k = some id → .drop id ∉ after

/-! ## Histories -/

section

variable {h : Host σ} {steps : List Step} {k : Key}

theorem not_isLatest_nil (h : Host σ) (k : Key) : ¬ h.IsLatest [] k := by
  rintro ⟨before, after, hsteps, -⟩
  simp at hsteps

theorem isLatest_load_iff (h : Host σ) (steps : List Step) (j k : Key) :
    h.IsLatest (steps ++ [.load j]) k ↔ k = j := by
  constructor
  · rintro ⟨before, after, hsteps, hloads, -⟩
    cases after using List.reverseRecOn with
    | nil =>
      obtain ⟨-, hlast⟩ := List.append_inj' hsteps rfl
      exact (Step.load.inj (List.singleton_inj.mp hlast)).symm
    | append_singleton rest last =>
      -- The load of `j` would come after the one of `k`.
      rw [← List.cons_append, ← List.append_assoc] at hsteps
      obtain ⟨-, hlast⟩ := List.append_inj' hsteps rfl
      obtain rfl := List.singleton_inj.mp hlast
      exact absurd (List.mem_append_right _ List.mem_cons_self) (hloads j)
  · rintro rfl
    exact ⟨steps, [], rfl, fun _ => List.not_mem_nil, fun _ _ => List.not_mem_nil⟩

theorem isLatest_concat_iff (h : Host σ) (steps : List Step) (a : Step) (ha : ∀ j, a ≠ .load j)
    (k : Key) : h.IsLatest (steps ++ [a]) k ↔
      h.IsLatest steps k ∧ ∀ id, h.idOf? k = some id → a ≠ .drop id := by
  constructor
  · rintro ⟨before, after, hsteps, hloads, hdrops⟩
    cases after using List.reverseRecOn with
    | nil =>
      obtain ⟨-, hlast⟩ := List.append_inj' hsteps rfl
      exact absurd (List.singleton_inj.mp hlast) (ha k)
    | append_singleton rest last =>
      rw [← List.cons_append, ← List.append_assoc] at hsteps
      obtain ⟨hbefore, hlast⟩ := List.append_inj' hsteps rfl
      obtain rfl := List.singleton_inj.mp hlast
      refine ⟨⟨before, rest, hbefore, fun j hj => hloads j (List.mem_append_left _ hj),
        fun id hid hd => hdrops id hid (List.mem_append_left _ hd)⟩, fun id hid hd => ?_⟩
      exact hdrops id hid (hd ▸ List.mem_append_right _ List.mem_cons_self)
  · rintro ⟨⟨before, after, rfl, hloads, hdrops⟩, hlast⟩
    refine ⟨before, after ++ [a], by simp, fun j hj => ?_, fun id hid hd => ?_⟩
    · rcases List.mem_append.mp hj with hj | hj
      · exact hloads j hj
      · exact ha j (List.mem_singleton.mp hj).symm
    · rcases List.mem_append.mp hd with hd | hd
      · exact hdrops id hid hd
      · exact hlast id hid (List.mem_singleton.mp hd).symm

theorem isLatest_keep_iff (h : Host σ) (steps : List Step) (a : Step) (ha : ∀ j, a ≠ .load j)
    (hd : ∀ id, a ≠ .drop id) (k : Key) :
    h.IsLatest (steps ++ [a]) k ↔ h.IsLatest steps k := by
  rw [isLatest_concat_iff h steps a ha]
  exact and_iff_left fun id _ => hd id

end

/-! ## The slot -/

theorem current_drop_eq_some_iff (h : Host σ) (id : SubmissionId) (k : Key) :
    (h.drop id).current = some k ↔ h.current = some k ∧ h.idOf? k ≠ some id := by
  unfold drop currentId?
  cases hc : h.current with
  | none => simp [hc]
  | some j =>
    rw [Option.bind_some]
    split <;> rename_i hid
    · rw [Option.some_inj]
      refine iff_of_false (by simp) ?_
      rintro ⟨rfl, hne⟩
      exact hne hid
    · rw [hc, Option.some_inj]
      refine ⟨?_, And.left⟩
      rintro rfl
      exact ⟨rfl, hid⟩

theorem registered?_eq_none_iff {h : Host σ} {sid : SubmissionId} :
    h.registered? sid = none ↔ h.currentId? ≠ some sid := by
  unfold registered? currentId?
  cases h.current <;> simp

/-! ## Following a history -/

section

variable [TraceSink σ]

def step (h : Host σ) : Step → Host σ
  | .load k => h.load k
  | .drop id => h.drop id
  | .cancel k => h.cancel k
  | .hook sid c => (h.hook sid c).1

/-- The host after a history. -/
def follow (h : Host σ) (steps : List Step) : Host σ := steps.foldl step h

theorem follow_concat (h : Host σ) (steps : List Step) (a : Step) :
    h.follow (steps ++ [a]) = (h.follow steps).step a := by
  unfold follow
  rw [List.foldl_append]
  rfl

theorem idOf?_step (h : Host σ) (a : Step) : (h.step a).idOf? = h.idOf? := by
  cases a with
  | load j =>
    obtain ⟨lines, hload⟩ := h.load_host j
    rw [step, hload]
    rfl
  | drop id =>
    obtain ⟨current, hdrop⟩ := h.drop_host id
    rw [step, hdrop]
    rfl
  | cancel j => exact idOf?_update h j fun _ => rfl
  | hook sid c => exact idOf?_hook h sid c

theorem idOf?_follow (h : Host σ) (steps : List Step) : (h.follow steps).idOf? = h.idOf? := by
  induction steps using List.reverseRecOn with
  | nil => rfl
  | append_singleton steps a ih => rw [follow_concat, idOf?_step, ih]

/-- The registered submission, by the history. -/
theorem current_eq_some_iff {h : Host σ} (hnone : h.current = none) (steps : List Step)
    (k : Key) : (h.follow steps).current = some k ↔ h.IsLatest steps k := by
  induction steps using List.reverseRecOn generalizing k with
  | nil =>
    refine iff_of_false ?_ (not_isLatest_nil h k)
    change ¬ h.current = some k
    rw [hnone]
    exact nofun
  | append_singleton steps a ih =>
    rw [follow_concat]
    cases a with
    | load j => rw [isLatest_load_iff, step, current_load, Option.some_inj, eq_comm]
    | drop id =>
      have hload : ∀ j, Step.drop id ≠ .load j := nofun
      rw [isLatest_concat_iff h steps _ hload, step, current_drop_eq_some_iff, ih, idOf?_follow]
      refine and_congr_right fun _ => ⟨fun hne id' hid heq => ?_, fun hne hid => ?_⟩
      · exact hne (hid.trans (congrArg some (Step.drop.inj heq).symm))
      · exact hne id hid rfl
    | cancel j =>
      rw [isLatest_keep_iff h steps (.cancel j) nofun nofun]
      exact ih k
    | hook sid c =>
      rw [isLatest_keep_iff h steps (.hook sid c) nofun nofun, step, hook_current]
      exact ih k

end

/-! ## Calls -/

section

variable [TraceSink σ] {h : Host σ} {sid : SubmissionId}

/-- A call that names no registered submission is refused and changes nothing. -/
theorem hook_unregistered (hsid : h.currentId? ≠ some sid) (c : HookCall) :
    h.hook sid c = (h, .error .aborted) := by
  have hnone := registered?_eq_none_iff.mpr hsid
  cases hc : c.event? with
  | some e =>
    rw [hook_event hc, report_unregistered hnone]
    rfl
  | none =>
    cases c with
    | active =>
      unfold Host.hook isActive
      rw [hnone]
      rfl
    | event | object | returned => contradiction

end

/-- Where calls go, whatever was registered before. After every history the registered submission
is the one loaded last, if no registration of its id was dropped since; and a call that does not
name the id of the registered submission is refused and changes nothing, while any other one
changes no more than the sink of that submission. -/
theorem hook_routing [TraceSink σ] (h : Host σ) (hnone : h.current = none) (steps : List Step) :
    let g := h.follow steps
    (∀ k, g.current = some k ↔ h.IsLatest steps k) ∧
      ∀ sid c, (g.currentId? ≠ some sid → g.hook sid c = (g, .error .aborted)) ∧
        ∀ j s, g.submission? j = some s → ∃ sink,
          (g.hook sid c).1.submission? j = some { s with sink } ∧
            (g.current ≠ some j → sink = s.sink) := by
  intro g
  refine ⟨current_eq_some_iff hnone steps, fun sid c => ⟨fun hsid => hook_unregistered hsid c,
    fun j s hs => ?_⟩⟩
  obtain ⟨sink, hsink⟩ := hook_submission? g sid c hs
  refine ⟨sink, hsink, fun hj => ?_⟩
  have hsame := hsink.symm.trans ((hook_others g sid c hj).trans hs)
  exact (Submission.mk.inj (Option.some.inj hsame)).2.2.2.1

/-- Two submissions of one id, the first of them loaded twice. A registration of that id is dropped
when the second one is registered, and nothing is registered then. -/
theorem hook_routing_of_equal_ids :
    let h : Host Recorder := { submissions := [{ id := 4, sink := {} }, { id := 4, sink := {} }] }
    let steps : List Step := [.load 0, .load 1, .hook 4 (.event (.beginMethod 1 "f" [])), .load 0,
      .cancel 0, .load 1, .drop 4]
    h.current = none ∧ (h.follow steps).current = none ∧
      (h.follow steps).hook 4 (.event (.endMethod 1)) = (h.follow steps, .error .aborted) ∧
      ∀ k, ¬ h.IsLatest steps k := by
  intro h steps
  obtain ⟨hlatest, hcalls⟩ := hook_routing h rfl steps
  have hcurrent : (h.follow steps).current = none := by decide +kernel
  have hid : (h.follow steps).currentId? ≠ some 4 := by
    unfold currentId?
    rw [hcurrent]
    exact nofun
  exact ⟨rfl, hcurrent, (hcalls 4 _).1 hid, fun k hk => nomatch hcurrent.symm.trans
    ((hlatest k).mpr hk)⟩

end LiveTrace.Host
