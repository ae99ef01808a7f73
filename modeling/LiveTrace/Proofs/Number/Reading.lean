import LiveTrace.Number.Power
import LiveTrace.Proofs.Number.Digits
import Mathlib.Data.Nat.Digits.Defs

/-
  Which texts are read as numbers. Decimal digits are read as the number that they denote, leading
  zeros and all (`decimal?_eq_some_iff`); an unsigned number may have a plus sign in front and has
  to be below the bound, however long it is (`unsigned?_eq_some_iff`).
-/
namespace LiveTrace.Number

/-- Characters are one or more decimal digits and denote a number. -/
def Denotes (cs : List Char) (n : Nat) : Prop :=
  ∃ ds : List Nat, ds ≠ [] ∧ (∀ d ∈ ds, d < 10) ∧ cs = ds.map Nat.digitChar ∧
    n = Nat.ofDigits 10 ds.reverse

theorem digit?_eq_some_iff {c : Char} {d : Nat} :
    digit? c = some d ↔ d < 10 ∧ c = d.digitChar := by
  constructor
  · intro h
    unfold digit? at h
    split at h
    · rename_i hrange
      have hlow : 48 ≤ c.toNat := hrange.1
      have hhigh : c.toNat ≤ 57 := hrange.2
      have hd : c.toNat - 48 = d := Option.some.inj h
      have hchar : ∀ d < 10, Char.ofNat (d + 48) = d.digitChar := by decide
      refine ⟨by omega, ?_⟩
      rw [← hchar d (by omega), show d + 48 = c.toNat by omega, Char.ofNat_toNat]
    · contradiction
  · rintro ⟨hd, rfl⟩
    exact digit?_digitChar hd

theorem foldDigits_eq_some_iff {acc n : Nat} {cs : List Char} :
    foldDigits 10 digit? acc cs = some n ↔ ∃ ds : List Nat, (∀ d ∈ ds, d < 10) ∧
      cs = ds.map Nat.digitChar ∧ n = acc * 10 ^ ds.length + Nat.ofDigits 10 ds.reverse := by
  induction cs generalizing acc with
  | nil =>
    constructor
    · intro h
      exact ⟨[], nofun, rfl, by simpa [foldDigits] using h.symm⟩
    · rintro ⟨ds, -, hds, hn⟩
      obtain rfl := List.map_eq_nil_iff.mp hds.symm
      simpa [foldDigits] using hn.symm
  | cons c cs ih =>
    have hvalue (d : Nat) (ds : List Nat) :
        acc * 10 ^ (d :: ds).length + Nat.ofDigits 10 (d :: ds).reverse =
          (acc * 10 + d) * 10 ^ ds.length + Nat.ofDigits 10 ds.reverse := by
      rw [List.reverse_cons, Nat.ofDigits_append, Nat.ofDigits_singleton, List.length_reverse,
        List.length_cons]
      ring
    rw [foldDigits]
    constructor
    · intro h
      split at h
      · rename_i d hd
        obtain ⟨hlt, rfl⟩ := digit?_eq_some_iff.mp hd
        obtain ⟨ds, hds, rfl, rfl⟩ := ih.mp h
        exact ⟨d :: ds, List.forall_mem_cons.mpr ⟨hlt, hds⟩, rfl, (hvalue d ds).symm⟩
      · contradiction
    · rintro ⟨ds, hds, hcs, rfl⟩
      obtain ⟨d, ds, rfl, rfl, rfl⟩ := List.map_eq_cons_iff.mp hcs.symm
      obtain ⟨hlt, hds⟩ := List.forall_mem_cons.mp hds
      rw [digit?_digitChar hlt]
      exact ih.mpr ⟨ds, hds, rfl, hvalue d ds⟩

theorem decimal?_eq_some_iff {cs : List Char} {n : Nat} :
    decimal? cs = some n ↔ Denotes cs n := by
  unfold decimal? Denotes
  cases cs with
  | nil => simp
  | cons c cs =>
    rw [List.isEmpty_cons, if_neg Bool.false_ne_true, foldDigits_eq_some_iff]
    refine exists_congr fun ds => ?_
    have hne : c :: cs = ds.map Nat.digitChar → ds ≠ [] := by
      rintro h rfl
      contradiction
    simp only [Nat.zero_mul, Nat.zero_add]
    tauto

theorem Denotes.digit_of_mem {cs : List Char} {n : Nat} (h : Denotes cs n) {c : Char}
    (hc : c ∈ cs) : ∃ d < 10, c = d.digitChar := by
  obtain ⟨ds, -, hds, rfl, -⟩ := h
  obtain ⟨d, hd, rfl⟩ := List.mem_map.mp hc
  exact ⟨d, hds d hd, rfl⟩

theorem unsigned?_plus (bound : Nat) (digits : List Char) :
    unsigned? bound ('+' :: digits) = (decimal? digits).filter (· < bound) := by
  simp only [unsigned?]
  cases decimal? digits with
  | none => rfl
  | some n => simp [Option.filter_some]

theorem unsigned?_of_head {cs : List Char} (h : cs.head? ≠ some '+') (bound : Nat) :
    unsigned? bound cs = (decimal? cs).filter (· < bound) := by
  unfold unsigned?
  extract_lets digits
  have hdigits : digits = cs := by
    unfold digits
    split
    · exact absurd rfl h
    · rfl
  rw [hdigits]
  cases decimal? cs with
  | none => rfl
  | some n => simp [Option.filter_some]

theorem unsigned?_eq_some_iff {bound n : Nat} {cs : List Char} :
    unsigned? bound cs = some n ↔
      n < bound ∧ ∃ sign digits, (sign = [] ∨ sign = ['+']) ∧ cs = sign ++ digits ∧
        Denotes digits n := by
  have hread (digits : List Char) : (decimal? digits).filter (· < bound) = some n ↔
      n < bound ∧ Denotes digits n := by
    rw [Option.filter_eq_some_iff, decimal?_eq_some_iff, decide_eq_true_iff, and_comm]
  by_cases hplus : cs.head? = some '+'
  · obtain ⟨digits, rfl⟩ := List.head?_eq_some_iff.mp hplus
    rw [unsigned?_plus, hread]
    refine and_congr_right fun _ => ⟨fun h => ⟨['+'], digits, .inr rfl, rfl, h⟩, ?_⟩
    rintro ⟨_, digits', rfl | rfl, hcs, h⟩
    · -- A plus sign is no digit.
      obtain rfl : '+' :: digits = digits' := hcs
      obtain ⟨d, hd, hplus⟩ := h.digit_of_mem List.mem_cons_self
      have hno : ∀ d < 10, '+' ≠ d.digitChar := by decide
      exact absurd hplus (hno d hd)
    · exact (List.cons.inj hcs).2 ▸ h
  · rw [unsigned?_of_head hplus, hread]
    refine and_congr_right fun _ => ⟨fun h => ⟨[], cs, .inl rfl, rfl, h⟩, ?_⟩
    rintro ⟨_, digits, rfl | rfl, rfl, h⟩
    · exact h
    · exact absurd rfl hplus

end LiveTrace.Number
