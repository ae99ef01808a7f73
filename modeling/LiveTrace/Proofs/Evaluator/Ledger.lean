import LiveTrace.Proofs.Evaluator.System

/-
  Where submissions are. Every turn that a submission takes is entered twice, where it leaves
  and where it comes to, and the entries balance after every step (`Balance`): what was offered
  is on its way in, was swapped into the slot or refused; what was swapped waits in the slot or
  was displaced, taken or removed; what was refused, displaced or removed was canceled or is
  about to be. Submissions are taken in the order they were swapped in (`Order`).
-/
namespace LiveTrace

/-- How often a submission takes a turn among some deeds. -/
def tally (ds : List Deed) (t : Turn) (k : Key) : Nat := (ds.filterMap (Deed.key? t)).count k

theorem tally_append (ds es : List Deed) (t : Turn) (k : Key) :
    tally (ds ++ es) t k = tally ds t k + tally es t k := by
  unfold tally
  rw [List.filterMap_append, List.count_append]

@[simp] theorem tally_nil (t : Turn) (k : Key) : tally [] t k = 0 := rfl

@[simp] theorem tally_cons (d : Deed) (ds : List Deed) (t : Turn) (k : Key) :
    tally (d :: ds) t k = (d.key? t).toList.count k + tally ds t k := by
  unfold tally
  rw [List.filterMap_cons]
  cases d.key? t with
  | none => simp
  | some j => simp [List.count_cons, Nat.add_comm]

theorem tally_eq_zero {ds : List Deed} {t : Turn} (h : ds.filterMap (Deed.key? t) = []) (k : Key) :
    tally ds t k = 0 := by
  unfold tally
  rw [h, List.count_nil]

/-- Replacing one member of a list replaces what it counts for. -/
theorem count_filterMap_set {α : Type} {l : List α} {i : Nat} {a : α} (h : l[i]? = some a)
    (f : α → Option Key) (b : α) (k : Key) :
    ((l.set i b).filterMap f).count k + (f a).toList.count k =
      (l.filterMap f).count k + (f b).toList.count k := by
  obtain ⟨hi, rfl⟩ := List.getElem?_eq_some_iff.mp h
  have hl : l = l.take i ++ l[i] :: l.drop (i + 1) := by simp
  rw [List.set_eq_take_append_cons_drop, if_pos hi]
  conv => rhs; rw [hl]
  simp only [List.filterMap_append, List.count_append]
  have hcons (x : α) : ((x :: l.drop (i + 1)).filterMap f).count k =
      (f x).toList.count k + ((l.drop (i + 1)).filterMap f).count k := by
    rw [List.filterMap_cons]
    cases f x <;> simp [List.count_cons, Nat.add_comm]
  rw [hcons, hcons]
  omega

namespace Evaluator

/-- The submission that an offer is about to cancel because it gave way. -/
def Offer.bumped? : Offer → Option Key
  | bumping k => some k
  | _ => none

/-- The submission that the disposal is about to cancel. -/
def Disposal.canceled? : Disposal → Option Key
  | canceling k => some k
  | _ => none

/-! ## The entries of one step -/

section

variable [Engine] {σ : Type} {e e' : Evaluator σ} {ds : List Deed}

theorem OfferEffect.balance {o o' : Offer} (he : e.OfferEffect o e' o' ds) (k : Key) :
    o.entering?.toList.count k =
        o'.entering?.toList.count k + tally ds .swapped k + tally ds .refused k ∧
      e.slot.toList.count k + tally ds .swapped k =
        e'.slot.toList.count k + tally ds .displaced k ∧
      o.bumped?.toList.count k + tally ds .refused k + tally ds .displaced k =
        o'.bumped?.toList.count k + tally ds .canceled k := by
  cases he <;> simp_all [Deed.key?, Offer.entering?, Offer.bumped?, Nat.add_comm]

theorem DisposalEffect.balance {d d' : Disposal} (he : e.DisposalEffect d e' d' ds) (k : Key) :
    e.slot.toList.count k = e'.slot.toList.count k + tally ds .removed k ∧
      d.canceled?.toList.count k + tally ds .removed k =
        d'.canceled?.toList.count k + tally ds .canceled k := by
  cases he <;> simp_all [Deed.key?, Disposal.canceled?]

theorem WorkerEffect.balance [TraceSink σ] (he : e.WorkerEffect e' ds) (k : Key) :
    e.slot.toList.count k = e'.slot.toList.count k + tally ds .taken k := by
  cases he <;> simp_all [Deed.key?, Evaluator.publish]

end

end Evaluator

namespace System

variable [Engine] {σ : Type}

/-- How many offers are bringing a submission. -/
def entering (s : System σ) (k : Key) : Nat := (s.offers.filterMap (·.2.entering?)).count k

/-- How many offers are about to cancel a submission. -/
def bumping (s : System σ) (k : Key) : Nat := (s.offers.filterMap (·.2.bumped?)).count k

/-- Whether the disposal is about to cancel a submission. -/
def canceling (s : System σ) (k : Key) : Nat := (s.disposal.bind (·.canceled?)).toList.count k

/-- The entries of a submission balance. -/
structure Balance (s : System σ) (k : Key) : Prop where
  offered : tally s.history .offered k =
    s.entering k + tally s.history .swapped k + tally s.history .refused k
  swapped : tally s.history .swapped k = s.evaluator.slot.toList.count k +
    tally s.history .displaced k + tally s.history .taken k + tally s.history .removed k
  canceled : tally s.history .canceled k + s.bumping k + s.canceling k =
    tally s.history .refused k + tally s.history .displaced k + tally s.history .removed k

variable {s s' : System σ} {k : Key}

theorem canceling_eq_zero (hd : s.isDisposing = false) : s.canceling k = 0 := by
  unfold isDisposing at hd
  unfold canceling
  split at hd
  case h_1 h => rw [h]; rfl
  case h_2 h => rw [h]; rfl
  case h_3 => contradiction

theorem Balance.step [TraceSink σ] (hb : s.Balance k) (hs : s.Step s') : s'.Balance k := by
  obtain ⟨hoffered, hswapped, hcanceled⟩ := hb
  cases hs with
  | still | start | unsubscribe | outside => exact ⟨hoffered, hswapped, hcanceled⟩
  | call j =>
    refine ⟨?_, ?_, ?_⟩ <;>
      simp_all [tally_append, Deed.key?, entering, bumping, canceling, Evaluator.Offer.entering?,
        Evaluator.Offer.bumped?, List.filterMap_append]
    omega
  | @offer place j o o' e ds ho he =>
    obtain ⟨hentered, hslot, hbumped⟩ := he.balance k
    have hentering := count_filterMap_set ho (·.2.entering?) (j, o') k
    have hbumping := count_filterMap_set ho (·.2.bumped?) (j, o') k
    dsimp only at hentering hbumping
    have h₁ := tally_eq_zero (he.turns .offered rfl) k
    have h₂ := tally_eq_zero (he.turns .taken rfl) k
    have h₃ := tally_eq_zero (he.turns .removed rfl) k
    unfold entering at hoffered
    unfold bumping canceling at hcanceled
    refine ⟨?_, ?_, ?_⟩ <;> simp only [tally_append, entering, bumping, canceling] <;> omega
  | dispose hd =>
    have hnone := canceling_eq_zero (k := k) hd
    rw [hnone] at hcanceled
    exact ⟨hoffered, hswapped, hcanceled⟩
  | @disposal d d' e ds hd he =>
    obtain ⟨hslot, hclear⟩ := he.balance k
    have h₁ := tally_eq_zero (he.turns .offered rfl) k
    have h₂ := tally_eq_zero (he.turns .swapped rfl) k
    have h₃ := tally_eq_zero (he.turns .refused rfl) k
    have h₄ := tally_eq_zero (he.turns .displaced rfl) k
    have h₅ := tally_eq_zero (he.turns .taken rfl) k
    unfold canceling at hcanceled
    rw [hd, Option.bind_some] at hcanceled
    unfold entering at hoffered
    unfold bumping at hcanceled
    refine ⟨?_, ?_, ?_⟩ <;>
      simp only [tally_append, entering, bumping, canceling, Option.bind_some] <;> omega
  | @work e ds he =>
    have hslot := he.balance k
    have h₁ := tally_eq_zero (he.turns .offered (by decide)) k
    have h₂ := tally_eq_zero (he.turns .swapped (by decide)) k
    have h₃ := tally_eq_zero (he.turns .refused (by decide)) k
    have h₄ := tally_eq_zero (he.turns .displaced (by decide)) k
    have h₅ := tally_eq_zero (he.turns .removed (by decide)) k
    have h₆ := tally_eq_zero (he.turns .canceled (by decide)) k
    unfold entering at hoffered
    unfold bumping canceling at hcanceled
    refine ⟨?_, ?_, ?_⟩ <;> simp only [tally_append, entering, bumping, canceling] <;> omega
  | subscribe | withdraw =>
    refine ⟨?_, ?_, ?_⟩ <;> simpa [tally_append, Deed.key?]

theorem balance_run [TraceSink σ] (h : Host σ) (r : Runner) (as : List Action) (k : Key) :
    ((initial h r).run as).Balance k := by
  have hstart : (initial h r).Balance k := ⟨rfl, rfl, rfl⟩
  exact run_invariant (fun _ _ => Balance.step) hstart as

/-- Submissions are taken in the order they were swapped in, and unless the disposal empties the
slot, what was swapped in last is what was taken last once the slot is empty. -/
structure Order (s : System σ) : Prop where
  earlier : ∃ earlier, s.keys .swapped = earlier ++ s.evaluator.slot.toList ∧
    (s.keys .taken).Sublist earlier
  last : s.evaluator.slot = none → s.keys .removed = [] →
    (s.keys .swapped).getLast? = (s.keys .taken).getLast?

theorem Order.keep (ho : s.Order) {e : Evaluator σ} {os : List (Key × Evaluator.Offer)}
    {d : Option Evaluator.Disposal} {ds : List Deed} (hslot : e.slot = s.evaluator.slot)
    (hswapped : ds.filterMap (Deed.key? .swapped) = [])
    (htaken : ds.filterMap (Deed.key? .taken) = [])
    (hremoved : ds.filterMap (Deed.key? .removed) = []) : Order ⟨e, os, d, s.history ++ ds⟩ := by
  refine ⟨?_, ?_⟩ <;> dsimp only
  · rw [hslot, s.keys_keep hswapped, s.keys_keep htaken]
    exact ho.earlier
  · rw [hslot, s.keys_keep hswapped, s.keys_keep htaken, s.keys_keep hremoved]
    exact ho.last

/-- Whatever was in the slot, swapping fills it with the latest submission. -/
theorem Order.swap (ho : s.Order) {k : Key} {e : Evaluator σ}
    {os : List (Key × Evaluator.Offer)} {d : Option Evaluator.Disposal} {ds : List Deed}
    (hslot : e.slot = some k) (hswapped : ds.filterMap (Deed.key? .swapped) = [k])
    (htaken : ds.filterMap (Deed.key? .taken) = []) : Order ⟨e, os, d, s.history ++ ds⟩ := by
  obtain ⟨earlier, hearlier, hsub⟩ := ho.earlier
  refine ⟨⟨s.keys .swapped, ?_, ?_⟩, fun hnone => nomatch hslot.symm.trans hnone⟩
  · rw [keys_append, hswapped, hslot]
    rfl
  · rw [s.keys_keep htaken, hearlier]
    exact hsub.trans (List.sublist_append_left ..)

/-- Emptying the slot adds to what came earlier. -/
theorem Order.empty (ho : s.Order) (taken : List Key) {e : Evaluator σ}
    {os : List (Key × Evaluator.Offer)} {d : Option Evaluator.Disposal} {ds : List Deed}
    (hslot : e.slot = none) (hswapped : ds.filterMap (Deed.key? .swapped) = [])
    (htaken : ds.filterMap (Deed.key? .taken) = taken)
    (hsub : taken.Sublist s.evaluator.slot.toList)
    (hlast : ds.filterMap (Deed.key? .removed) = [] → taken = s.evaluator.slot.toList) :
    Order ⟨e, os, d, s.history ++ ds⟩ := by
  obtain ⟨earlier, hearlier, hbefore⟩ := ho.earlier
  refine ⟨⟨earlier ++ s.evaluator.slot.toList, ?_, ?_⟩, fun _ hremoved => ?_⟩
  · rw [s.keys_keep hswapped, hearlier, hslot, Option.toList_none, List.append_nil]
  · rw [keys_append, htaken]
    exact hbefore.append hsub
  · rw [keys_append, List.append_eq_nil_iff] at hremoved
    obtain rfl := hlast hremoved.2
    rw [s.keys_keep hswapped, keys_append, htaken]
    cases hs : s.evaluator.slot with
    | none =>
      rw [Option.toList_none, List.append_nil]
      exact ho.last hs hremoved.1
    | some k =>
      rw [hearlier, hs, Option.toList_some, List.getLast?_concat, List.getLast?_concat]

theorem Order.step [TraceSink σ] (ho : s.Order) (hs : s.Step s') : s'.Order := by
  cases hs with
  | still | start | dispose | unsubscribe | outside => exact ⟨ho.earlier, ho.last⟩
  | call | subscribe | withdraw => exact ho.keep rfl rfl rfl rfl
  | offer place k hoffer he =>
    cases he with
    | refuse | accept | reject | bump | wake | rest => exact ho.keep rfl rfl rfl rfl
    | fill k => exact ho.swap rfl rfl rfl
    | displace j k => exact ho.swap rfl rfl rfl
  | disposal hd he =>
    cases he with
    | again | begin | wake | wait | join | cancel | rest => exact ho.keep rfl rfl rfl rfl
    | clear h => exact ho.keep h.symm rfl rfl rfl
    | remove k h => exact ho.empty [] rfl rfl rfl (List.nil_sublist _) nofun
  | work he =>
    cases he with
    | idle | receive | stop | proceed | miss | goOn | exhaust | conclude | die | publish =>
      exact ho.keep rfl rfl rfl rfl
    | take k hw h =>
      have hslot : [k] = s.evaluator.slot.toList := by rw [h, Option.toList_some]
      exact ho.empty [k] rfl rfl rfl (hslot ▸ List.Sublist.refl _) fun _ => hslot

theorem order_run [TraceSink σ] (h : Host σ) (r : Runner) (as : List Action) :
    ((initial h r).run as).Order := by
  have hstart : (initial h r).Order := ⟨⟨[], rfl, .slnil⟩, fun _ _ => rfl⟩
  exact run_invariant (fun _ _ => Order.step) hstart as

end System

end LiveTrace
