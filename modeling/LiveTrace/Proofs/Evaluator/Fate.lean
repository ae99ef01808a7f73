import LiveTrace.Proofs.Evaluator.Ledger
import LiveTrace.Proofs.Evaluator.Shutdown
import LiveTrace.Wasm.Engine
import Mathlib.Data.List.Nodup

/-
  What becomes of submissions that are offered. The ledger gives everyone who was swapped into
  the slot one fate; what remains is to say who is refused (`Entrance`), and that a flag is set
  by a cancellation in the history and by nothing else (`Flagged`). Together they tell the fate of
  every offered submission, up to and after the disposal (`fate_of_offered`).
-/
namespace LiveTrace

/-- What can become of a submission that was swapped into the slot. -/
inductive Fate where
  | pending | displaced | taken | removed

namespace System

variable [Engine] {σ : Type}

/-- What has become of a submission. -/
def HasFate (s : System σ) (k : Key) : Fate → Prop
  | .pending => s.evaluator.slot = some k
  | .displaced => k ∈ s.keys .displaced
  | .taken => k ∈ s.keys .taken
  | .removed => k ∈ s.keys .removed

/-- A submission is offered after a disposal has returned. -/
def IsLate (s : System σ) (k : Key) : Prop := [.disposed, .turn .offered k].Sublist s.history

theorem mem_keys_iff (s : System σ) (t : Turn) (k : Key) :
    k ∈ s.keys t ↔ 0 < tally s.history t k := List.count_pos_iff.symm

end System

/-! ## Who is refused -/

theorem Evaluator.OfferEffect.entrance [Engine] {σ : Type} {e e' : Evaluator σ}
    {o o' : Evaluator.Offer} {ds : List Deed} (he : e.OfferEffect o e' o' ds) :
    (∀ k, o' ≠ .called k) ∧ (∀ k, o' = .refused k → o = .called k ∧ e.disposed = true) ∧
      ∀ k ∈ ds.filterMap (Deed.key? .refused), o = .refused k := by
  cases he <;> simp_all [Deed.key?]

theorem map_set_of_getElem? {α β : Type} {l : List α} {i : Nat} {a b : α} {f : α → β}
    (h : l[i]? = some a) (hf : f b = f a) : (l.set i b).map f = l.map f := by
  obtain ⟨hi, rfl⟩ := List.getElem?_eq_some_iff.mp h
  rw [List.map_set, hf, ← List.getElem_map f (h := by simpa using hi), List.set_getElem_self]

namespace System

variable [Engine] {σ : Type}

/-- Offers are in the history, they are about their own submissions until these are in the slot,
and those that are refused came too late. -/
structure Entrance (s : System σ) : Prop where
  offered : s.keys .offered = s.offers.map (·.1)
  own : ∀ o ∈ s.offers, ∀ k, o.2.entering? = some k → k = o.1
  called : s.evaluator.disposed = true → ∀ o ∈ s.offers, ∀ k, o.2 = .called k → s.IsLate k
  refusing : ∀ o ∈ s.offers, ∀ k, o.2 = .refused k → s.IsLate k
  refused : ∀ k ∈ s.keys .refused, s.IsLate k

variable {s s' : System σ}

theorem IsLate.append {e : Evaluator σ} {os : List (Key × Evaluator.Offer)}
    {d : Option Evaluator.Disposal} {ds : List Deed} {k : Key} (hk : s.IsLate k) :
    IsLate ⟨e, os, d, s.history ++ ds⟩ k := hk.trans (List.sublist_append_left ..)

/-- When offers stay where they are, only their being refused could change anything. -/
theorem Entrance.keep (he : s.Entrance) {e : Evaluator σ} {d : Option Evaluator.Disposal}
    {ds : List Deed} (hoffered : ds.filterMap (Deed.key? .offered) = [])
    (hrefused : ds.filterMap (Deed.key? .refused) = [])
    (hd : e.disposed = true → s.evaluator.disposed = true ∨ ∀ o ∈ s.offers, o.2 = .returned) :
    Entrance ⟨e, s.offers, d, s.history ++ ds⟩ := by
  refine ⟨(s.keys_keep hoffered).trans he.offered, he.own, fun h o hmem k ho => ?_,
    fun o hmem k ho => ?_, fun k hk => (he.refused k (s.keys_keep hrefused ▸ hk)).append⟩
  · rcases hd h with hd | hret
    · exact (he.called hd o hmem k ho).append
    · rw [hret o hmem] at ho
      contradiction
  · exact (he.refusing o hmem k ho).append

theorem Entrance.offer (he : s.Entrance) {place : Nat} {k : Key} {o o' : Evaluator.Offer}
    {e : Evaluator σ} {ds : List Deed} (ho : s.offers[place]? = some (k, o))
    (heffect : s.evaluator.OfferEffect o e o' ds) :
    Entrance { s with
      evaluator := e, offers := s.offers.set place (k, o'), history := s.history ++ ds } := by
  obtain ⟨-, -, hentering, -⟩ := heffect.origin
  obtain ⟨hnew, hrefusing, hrefused⟩ := heffect.entrance
  have hbefore := List.mem_of_getElem? ho
  refine ⟨?_, fun x hmem j hj => ?_, fun hd x hmem j hj => ?_, fun x hmem j hj => ?_,
    fun j hj => ?_⟩
  · have hsame := map_set_of_getElem? ho (f := Prod.fst) (b := (k, o')) rfl
    exact (s.keys_keep (heffect.turns .offered rfl)).trans (he.offered.trans hsame.symm)
  · rcases List.mem_or_eq_of_mem_set hmem with hmem | rfl
    · exact he.own x hmem j hj
    · exact he.own (k, o) hbefore j (hentering j hj)
  · rcases List.mem_or_eq_of_mem_set hmem with hmem | rfl
    · exact (he.called (heffect.disposed.symm.trans hd) x hmem j hj).append
    · exact absurd hj (hnew j)
  · rcases List.mem_or_eq_of_mem_set hmem with hmem | rfl
    · exact (he.refusing x hmem j hj).append
    · obtain ⟨hcalled, hd⟩ := hrefusing j hj
      exact (he.called hd (k, o) hbefore j hcalled).append
  · rw [keys_append, List.mem_append] at hj
    rcases hj with hj | hj
    · exact (he.refused j hj).append
    · exact (he.refusing (k, o) hbefore j (hrefused j hj)).append

/-- A new offer is late if the evaluator is disposed already. -/
theorem Entrance.call (he : s.Entrance) (hs : s.Shutdown) (hd : s.isDisposing = false) (k : Key) :
    Entrance { s with
      offers := s.offers ++ [(k, .called k)], history := s.history ++ [.turn .offered k] } := by
  refine ⟨?_, fun o hmem j hj => ?_, fun h o hmem j hj => ?_, fun o hmem j hj => ?_,
    fun j hj => ?_⟩
  · rw [keys_append, he.offered, List.map_append]
    rfl
  · rcases List.mem_append.mp hmem with hmem | hmem
    · exact he.own o hmem j hj
    · obtain rfl := List.mem_singleton.mp hmem
      exact (Option.some.inj hj).symm
  · rcases List.mem_append.mp hmem with hmem | hmem
    · exact (he.called h o hmem j hj).append
    · obtain rfl := List.mem_singleton.mp hmem
      obtain rfl : k = j := by simpa using hj
      exact (List.singleton_sublist.mpr (hs.over h hd).1).append (List.Sublist.refl _)
  · rcases List.mem_append.mp hmem with hmem | hmem
    · exact (he.refusing o hmem j hj).append
    · obtain rfl := List.mem_singleton.mp hmem
      contradiction
  · have hnone : [Deed.turn .offered k].filterMap (Deed.key? .refused) = [] := rfl
    rw [s.keys_keep hnone] at hj
    exact (he.refused j hj).append

theorem Entrance.step [TraceSink σ] (he : s.Entrance) (hd : s.Shutdown) (hs : s.Step s') :
    s'.Entrance := by
  cases hs with
  | still => exact he
  | call k hq => exact he.call hd hq k
  | offer place k ho heffect => exact he.offer ho heffect
  | start | dispose | unsubscribe | outside =>
    exact ⟨he.offered, he.own, he.called, he.refusing, he.refused⟩
  | subscribe | withdraw => exact he.keep rfl rfl .inl
  | work heffect =>
    exact he.keep (heffect.turns .offered nofun) (heffect.turns .refused nofun) fun h =>
      .inl (heffect.disposed.symm.trans h)
  | disposal hdis heffect =>
    refine he.keep (heffect.turns .offered rfl) (heffect.turns .refused rfl) fun h => ?_
    cases heffect with
    | begin => exact .inr (hd.alone (isDisposing_of_ne hdis nofun))
    | again | wake | wait | join | clear | remove | cancel | rest => exact .inl h

theorem entrance_run [TraceSink σ] (h : Host σ) (r : Runner) (as : List Action) :
    ((initial h r).run as).Entrance := by
  have hstart : (initial h r).Entrance := ⟨rfl, nofun, nofun, nofun, nofun⟩
  have hboth := run_invariant (P := fun s : System σ => s.Shutdown ∧ s.Entrance)
    (fun _ _ h hs => ⟨h.1.step hs, h.2.step h.1 hs⟩) ⟨shutdown_run h r [], hstart⟩ as
  exact hboth.2

end System

/-! ## Flags -/

section

variable [Engine] {σ : Type}

namespace Host

omit [Engine] in
theorem isCanceled_of_labels {h h' : Host σ} (hl : h'.labels = h.labels) (k : Key) :
    h'.isCanceled k = h.isCanceled k := by
  rw [isCanceled_eq, hl, isCanceled_eq]

omit [Engine] in
theorem isCanceled_cancel {h : Host σ} {k : Key} (hk : (h.submission? k).isSome = true) (j : Key) :
    (h.cancel j).isCanceled k = true ↔ h.isCanceled k = true ∨ k = j := by
  obtain ⟨s, hs⟩ := Option.isSome_iff_exists.mp hk
  unfold isCanceled cancel
  rw [submission?_update, hs]
  by_cases hj : j = k
  · simp [hj, Submission.cancel]
  · simp [hj, Ne.symm hj]

end Host

namespace System

/-- The flag of a submission is set if it was set in the beginning or if the history tells of a
cancellation, by the evaluator or by its owner. -/
def Flagged (h : Host σ) (s : System σ) (k : Key) : Prop :=
  s.evaluator.host.isCanceled k = true ↔
    h.isCanceled k = true ∨ k ∈ s.keys .canceled ∨ k ∈ s.keys .withdrawn

variable {h : Host σ} {s s' : System σ} {k : Key}

theorem Flagged.keep (hf : s.Flagged h k) {e : Evaluator σ} {os : List (Key × Evaluator.Offer)}
    {d : Option Evaluator.Disposal} {ds : List Deed}
    (hl : e.host.labels = s.evaluator.host.labels)
    (hcanceled : ds.filterMap (Deed.key? .canceled) = [])
    (hwithdrawn : ds.filterMap (Deed.key? .withdrawn) = []) :
    Flagged h ⟨e, os, d, s.history ++ ds⟩ k := by
  unfold Flagged
  rw [s.keys_keep hcanceled, s.keys_keep hwithdrawn, Host.isCanceled_of_labels hl]
  exact hf

/-- A submission is canceled, and the history tells so. -/
theorem Flagged.cancel (hf : s.Flagged h k)
    (hk : (s.evaluator.host.submission? k).isSome = true) (j : Key) {g : Host σ} {e : Evaluator σ}
    {os : List (Key × Evaluator.Offer)} {d : Option Evaluator.Disposal} {ds : List Deed}
    (he : e.host = g.cancel j) (hl : g.labels = s.evaluator.host.labels)
    (hds : ∀ k, k ∈ ds.filterMap (Deed.key? .canceled) ∨
      k ∈ ds.filterMap (Deed.key? .withdrawn) ↔ k = j) :
    Flagged h ⟨e, os, d, s.history ++ ds⟩ k := by
  have hthere := (Host.isSome_submission?_of_labels hl k).trans hk
  unfold Flagged at hf ⊢
  rw [he, Host.isCanceled_cancel hthere, ← hds, Host.isCanceled_of_labels hl]
  rw [keys_append, keys_append, List.mem_append, List.mem_append]
  grind

theorem Flagged.step [TraceSink σ] (hf : s.Flagged h k)
    (hk : (s.evaluator.host.submission? k).isSome = true) (hs : s.Step s') : s'.Flagged h k := by
  cases hs with
  | still => exact hf
  | call | subscribe => exact hf.keep rfl rfl rfl
  | dispose | unsubscribe | outside => exact hf
  | start _ _ g hl =>
    have hkept : Flagged h { s with
        evaluator := { s.evaluator with host := g, started := true, worker := some .waiting }
        history := s.history ++ [] } k := hf.keep hl rfl rfl
    rwa [List.append_nil] at hkept
  | withdraw j => exact hf.cancel hk j rfl rfl (by simp [Deed.key?])
  | offer place i ho he =>
    cases he with
    | refuse | accept | fill | displace | wake | rest => exact hf.keep rfl rfl rfl
    | reject j | bump j => exact hf.cancel hk j rfl rfl (by simp [Deed.key?])
  | disposal hdis he =>
    cases he with
    | again | begin | wake | wait | join | clear | remove | rest => exact hf.keep rfl rfl rfl
    | cancel j => exact hf.cancel hk j rfl rfl (by simp [Deed.key?])
  | work he =>
    cases he with
    | idle | receive | stop | proceed | miss | take | publish => exact hf.keep rfl rfl rfl
    | goOn _ _ _ hl | exhaust _ _ _ hl | conclude _ _ _ hl | die _ _ _ hl =>
      exact hf.keep hl rfl rfl

theorem flagged_run [TraceSink σ] (h : Host σ) (r : Runner) (as : List Action)
    (hk : (h.submission? k).isSome = true) : ((initial h r).run as).Flagged h k := by
  have hstart : (initial h r).Flagged h k := by simp [Flagged, keys, initial]
  have hboth := run_invariant (P := fun s : System σ =>
      (s.evaluator.host.submission? k).isSome = true ∧ s.Flagged h k)
    (fun _ _ hf hs => ⟨(hs.isSome_submission? k).trans hf.1, hf.2.step hf.1 hs⟩) ⟨hk, hstart⟩ as
  exact hboth.2

/-! ## The fate of every offered submission -/

/-- How often a submission met a fate. -/
def times (s : System σ) (k : Key) : Fate → Nat
  | .pending => s.evaluator.slot.toList.count k
  | .displaced => tally s.history .displaced k
  | .taken => tally s.history .taken k
  | .removed => tally s.history .removed k

theorem hasFate_iff (s : System σ) (k : Key) (f : Fate) : s.HasFate k f ↔ 0 < s.times k f := by
  cases f with
  | pending =>
    unfold times
    rw [List.count_pos_iff, Option.mem_toList]
    rfl
  | displaced => exact s.mem_keys_iff .displaced k
  | taken => exact s.mem_keys_iff .taken k
  | removed => exact s.mem_keys_iff .removed k

section

variable (hb : s.Balance k)
include hb

/-- Of a submission that the evaluator cancels, one of three things is true. -/
theorem Balance.cause (hk : k ∈ s.keys .canceled) :
    k ∈ s.keys .displaced ∨ k ∈ s.keys .removed ∨ k ∈ s.keys .refused := by
  have hpos := (s.mem_keys_iff .canceled k).mp hk
  have hcancels := hb.canceled
  have hsome : 0 < tally s.history .displaced k ∨ 0 < tally s.history .removed k ∨
      0 < tally s.history .refused k := by omega
  exact hsome.imp (s.mem_keys_iff .displaced k).mpr
    (Or.imp (s.mem_keys_iff .removed k).mpr (s.mem_keys_iff .refused k).mpr)

/-- When nobody is under way with a submission, it was taken or canceled. -/
theorem Balance.taken_or_canceled (hk : k ∈ s.keys .offered) (hslot : s.evaluator.slot = none)
    (hentering : s.entering k = 0) (hbumping : s.bumping k = 0) (hcanceling : s.canceling k = 0) :
    k ∈ s.keys .taken ∨ k ∈ s.keys .canceled := by
  have hoffered := (s.mem_keys_iff .offered k).mp hk
  obtain ⟨hsum, hfates, hcancels⟩ := hb
  rw [hslot, Option.toList_none, List.count_nil] at hfates
  have hsome : 0 < tally s.history .taken k ∨ 0 < tally s.history .canceled k := by omega
  exact hsome.imp (s.mem_keys_iff .taken k).mpr (s.mem_keys_iff .canceled k).mpr

variable (honce : tally s.history .offered k ≤ 1)
include honce

/-- A submission that was offered once and swapped in has one fate. -/
theorem Balance.exists_fate (hk : k ∈ s.keys .swapped) : ∃! f, s.HasFate k f := by
  have hpos := (s.mem_keys_iff .swapped k).mp hk
  have hsum := hb.offered
  have hone : s.times k .pending + s.times k .displaced + s.times k .taken +
      s.times k .removed = 1 := hb.swapped.symm.trans (by omega)
  have hunique {f f' : Fate} (hf : 0 < s.times k f) (hf' : 0 < s.times k f') : f' = f := by
    cases f <;> cases f' <;> first | rfl | omega
  have hsome : 0 < s.times k .pending ∨ 0 < s.times k .displaced ∨ 0 < s.times k .taken ∨
      0 < s.times k .removed := by omega
  rcases hsome with h | h | h | h <;>
    exact ⟨_, (s.hasFate_iff k _).mpr h, fun f' hf' => hunique h ((s.hasFate_iff k f').mp hf')⟩

theorem Balance.taken_le_one : tally s.history .taken k ≤ 1 := by
  have hsum := hb.offered
  have hfates := hb.swapped
  omega

theorem Balance.notMem_taken (hk : k ∈ s.keys .canceled) : k ∉ s.keys .taken := by
  intro htaken
  have hpos := (s.mem_keys_iff .canceled k).mp hk
  have htaken := (s.mem_keys_iff .taken k).mp htaken
  obtain ⟨hsum, hfates, hcancels⟩ := hb
  omega

end

theorem bumping_eq_zero (k : Key) (h : ∀ o ∈ s.offers, o.2.IsOutside) : s.bumping k = 0 := by
  unfold bumping
  rw [List.count_eq_zero]
  intro hmem
  obtain ⟨o, ho, hbumped⟩ := List.mem_filterMap.mp hmem
  rcases h o ho with hret | ⟨j, hcalled | hrefused⟩
  · rw [hret] at hbumped
    contradiction
  · rw [hcalled] at hbumped
    contradiction
  · rw [hrefused] at hbumped
    contradiction

theorem canceling_eq_zero_of_called (k : Key)
    (h : s.disposal = some .called ∨ s.disposal = some .returned) : s.canceling k = 0 := by
  unfold canceling
  rcases h with h | h <;> rw [h] <;> rfl

/-- Of several offers with submissions of their own, one that has returned is the only one that
brought its submission. -/
theorem Entrance.entering_eq_zero (he : s.Entrance) (hdistinct : (s.offers.map (·.1)).Nodup)
    (hk : (k, .returned) ∈ s.offers) : s.entering k = 0 := by
  unfold entering
  rw [List.count_eq_zero]
  intro hmem
  obtain ⟨o, ho, hentering⟩ := List.mem_filterMap.mp hmem
  obtain rfl := he.own o ho k hentering
  have hsame := List.inj_on_of_nodup_map hdistinct ho hk rfl
  rw [hsame] at hentering
  contradiction

variable [TraceSink σ]

/-- Nothing is taken once a disposal has returned. -/
theorem keys_taken_step (hd : s.Shutdown) (hmem : .disposed ∈ s.history) (hs : s.Step s') :
    .disposed ∈ s'.history ∧ s'.keys .taken = s.keys .taken := by
  cases hs with
  | still | start | dispose | unsubscribe | outside => exact ⟨hmem, rfl⟩
  | call | subscribe | withdraw => exact ⟨List.mem_append_left _ hmem, s.keys_keep rfl⟩
  | offer place k ho he =>
    exact ⟨List.mem_append_left _ hmem, s.keys_keep (he.turns .taken rfl)⟩
  | disposal hdis he =>
    exact ⟨List.mem_append_left _ hmem, s.keys_keep (he.turns .taken rfl)⟩
  | work he =>
    refine ⟨List.mem_append_left _ hmem, ?_⟩
    cases he with
    | take k hw => exact nomatch (hd.gone hmem).2.1.symm.trans hw
    | idle | receive | stop | proceed | miss | goOn | exhaust | conclude | die | publish =>
      exact s.keys_keep rfl

theorem keys_taken_run (hd : s.Shutdown) (hmem : .disposed ∈ s.history) (as : List Action) :
    (s.run as).keys .taken = s.keys .taken := by
  have hkept := run_invariant (P := fun s' : System σ =>
    s'.Shutdown ∧ .disposed ∈ s'.history ∧ s'.keys .taken = s.keys .taken)
    (fun s₁ s₂ h hs => by
      obtain ⟨hd, hmem, htaken⟩ := h
      obtain ⟨hmem', htaken'⟩ := keys_taken_step hd hmem hs
      exact ⟨hd.step hs, hmem', htaken'.trans htaken⟩) ⟨hd, hmem, rfl⟩ as
  exact hkept.2.2

/-- The fate of every offered submission, whatever the schedule, if no two offers are of the same
one. Whoever was swapped into the slot has one fate; submissions are taken once and in the order
of the swaps; the evaluator cancels those that were displaced, removed or offered too late, and
none that was taken; a flag is set by a cancellation and by nothing else. After a disposal the
slot is empty and stays so, and every submission whose offer returned was taken or canceled. -/
theorem fate_of_offered (h : Host σ) (r : Runner) (as : List Action)
    (hdistinct : (((initial h r).run as).offers.map (·.1)).Nodup) :
    let s := (initial h r).run as
    (∀ k ∈ s.keys .swapped, ∃! f, s.HasFate k f) ∧
    (s.keys .taken).Nodup ∧ (s.keys .taken).Sublist (s.keys .swapped) ∧
    (∀ k ∈ s.keys .canceled, k ∉ s.keys .taken ∧
      (k ∈ s.keys .displaced ∨ k ∈ s.keys .removed ∨ s.IsLate k)) ∧
    (∀ k, (h.submission? k).isSome = true → (s.evaluator.host.isCanceled k = true ↔
      h.isCanceled k = true ∨ k ∈ s.keys .canceled ∨ k ∈ s.keys .withdrawn)) ∧
    (.disposed ∈ s.history → s.evaluator.slot = none ∧
      (∀ more, (s.run more).keys .taken = s.keys .taken) ∧
      ∀ k, (k, .returned) ∈ s.offers → k ∈ s.keys .taken ∨ k ∈ s.keys .canceled) := by
  intro s
  have hbalance (k : Key) : s.Balance k := balance_run h r as k
  have hshutdown : s.Shutdown := shutdown_run h r as
  have hentrance : s.Entrance := entrance_run h r as
  -- Nobody is offered twice, and so nobody is swapped in or refused twice, or both.
  have hnodup : (s.keys .offered).Nodup := by
    rw [hentrance.offered]
    exact hdistinct
  have honce (k : Key) : tally s.history .offered k ≤ 1 := List.nodup_iff_count_le_one.mp hnodup k
  refine ⟨fun k => (hbalance k).exists_fate (honce k), ?_, ?_, fun k hk => ⟨?_, ?_⟩,
    fun k hk => flagged_run h r as hk, fun hmem => ?_⟩
  · exact List.nodup_iff_count_le_one.mpr fun k => (hbalance k).taken_le_one (honce k)
  · obtain ⟨earlier, hearlier, hsub⟩ := (order_run h r as).earlier
    rw [hearlier]
    exact hsub.trans (List.sublist_append_left ..)
  · exact (hbalance k).notMem_taken (honce k) hk
  · exact ((hbalance k).cause hk).imp_right (Or.imp_right (hentrance.refused k))
  · obtain ⟨hdisposed, -, hslot, hdisposal⟩ := hshutdown.gone hmem
    refine ⟨hslot, keys_taken_run hshutdown hmem, fun k hk => ?_⟩
    have hoffered : k ∈ s.keys .offered := by
      rw [hentrance.offered]
      exact List.mem_map_of_mem hk
    exact (hbalance k).taken_or_canceled hoffered hslot (hentrance.entering_eq_zero hdistinct hk)
      (bumping_eq_zero k (hshutdown.outside hdisposed)) (canceling_eq_zero_of_called k hdisposal)

end System

end

namespace System

/-- Whether a disposal has returned can be computed. -/
instance (ds : List Deed) : Decidable (.disposed ∈ ds) :=
  decidable_of_iff (ds.any fun | .disposed => true | _ => false) <| by
    rw [List.any_eq_true]
    constructor
    · rintro ⟨d, hmem, hd⟩
      cases d <;> first | exact hmem | contradiction
    · exact fun hmem => ⟨_, hmem, rfl⟩

/-- Two offers race, a third one waits behind the run of the second, and a fourth comes after the
disposal: one is displaced, one taken, one removed and one refused. -/
theorem fate_of_offered_around_disposal :
    let missing : Project := { references := ["a"] }
    let submission : Submission Recorder := { id := 4, project := missing, sink := {} }
    let h : Host Recorder := { submissions := [submission, submission, submission, submission] }
    let r : Runner := ⟨{ workspaceRoot := "w" }⟩
    let racing : List Action := [.start, .call 0, .call 1, .offer 0, .offer 1, .offer 0, .offer 1,
      .offer 0, .offer 1, .offer 1, .work 1, .work 1, .work 1]
    let disposing : List Action := [.call 2, .offer 2, .offer 2, .offer 2, .dispose, .disposal,
      .disposal, .disposal, .work 1, .work 1, .work 1, .disposal, .disposal, .disposal]
    let as := racing ++ disposing ++ [.call 3, .offer 3, .offer 3]
    ((initial h r).run as).keys .swapped = [0, 1, 2] ∧
      (∀ k ∈ [0, 1, 2], ∃! f, ((initial h r).run as).HasFate k f) ∧
      ((initial h r).run as).keys .canceled = [0, 2, 3] ∧ ((initial h r).run as).IsLate 3 ∧
      ∀ more, (((initial h r).run as).run more).keys .taken = [1] := by
  intro missing submission h r racing disposing as
  have hrun : (((initial h r).run as).offers.map (·.1)).Nodup ∧
      .disposed ∈ ((initial h r).run as).history ∧
      ((initial h r).run as).keys .swapped = [0, 1, 2] ∧
      ((initial h r).run as).keys .displaced = [0] ∧
      ((initial h r).run as).keys .taken = [1] ∧ ((initial h r).run as).keys .removed = [2] ∧
      ((initial h r).run as).keys .canceled = [0, 2, 3] := by decide +kernel
  obtain ⟨hdistinct, hmem, hswapped, hdisplaced, htaken, hremoved, hcanceled⟩ := hrun
  obtain ⟨hfate, -, -, hcancels, -, hgone⟩ := fate_of_offered h r as hdistinct
  obtain ⟨-, hlater, -⟩ := hgone hmem
  refine ⟨hswapped, fun k hk => hfate k (by rw [hswapped]; exact hk), hcanceled, ?_,
    fun more => (hlater more).trans htaken⟩
  have hlate := (hcancels 3 (by rw [hcanceled]; decide)).2
  rw [hdisplaced, hremoved] at hlate
  simpa using hlate

end System

end LiveTrace
