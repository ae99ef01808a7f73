import LiveTrace.Json.Reading
import LiveTrace.Proofs.Number.Binary
import LiveTrace.Proofs.Number.Digits
import Mathlib.Data.List.TakeWhile

/-
  Whole numbers in JSON. The digits of a number are a number word (`isNumber_digits`), read as the
  number (`uint32?_ofNat`), and a number of thirty-two bits is not too large for a floating-point
  number (`isFinite_digits`).
-/
namespace LiveTrace.Json

open Number (digits pow2)

theorem isDigit_of_mem_digits {n : Nat} {c : Char} (h : c ∈ digits n) : isDigit c = true := by
  have hrange := Number.range_of_mem_digits h
  simp [isDigit, hrange]

theorem isWordChar_of_mem_digits {n : Nat} {c : Char} (h : c ∈ digits n) :
    isWordChar c = true := by
  have hrange := Number.range_of_mem_digits h
  simp [isWordChar, hrange]

/-- The characters that are no digits but have a meaning in numbers. -/
theorem ne_of_mem_digits {n : Nat} {c d : Char} (h : c ∈ digits n) (hd : isDigit d = false) :
    c ≠ d := by
  rintro rfl
  exact Bool.false_ne_true (hd.symm.trans (isDigit_of_mem_digits h))

theorem skipDigits_eq_nil {cs : List Char} (h : ∀ c ∈ cs, isDigit c = true) :
    skipDigits cs = [] := by
  unfold skipDigits
  exact List.dropWhile_eq_nil_iff.mpr h

theorem isNumber_digits (n : Nat) : isNumber (digits n) = true := by
  obtain ⟨c, cs, hdigits, hzero⟩ := Number.digits_head n
  have hmem {d : Char} (hd : d ∈ c :: cs) : isDigit d = true :=
    isDigit_of_mem_digits (hdigits ▸ hd)
  have hsign : c ≠ '-' := ne_of_mem_digits (n := n) (by rw [hdigits]; simp) (by decide)
  have hwhole : afterWhole (c :: cs) = some [] := by
    unfold afterWhole
    split
    · rename_i heq
      cases heq
      rw [hzero rfl]
    · rename_i heq
      cases heq
      rw [if_pos (hmem List.mem_cons_self),
        skipDigits_eq_nil fun d hd => hmem (List.mem_cons_of_mem _ hd)]
    · rename_i heq
      exact nomatch heq
  rw [hdigits]
  unfold isNumber
  split
  · rename_i heq
    cases heq
    contradiction
  · simp [hwhole, afterFraction, afterExponent]

theorem natBelow?_ofNat {bound n : Nat} (h : n < bound) : natBelow? bound (ofNat n) = some n := by
  simp [natBelow?, ofNat, Number.decimal?_digits, h]

theorem uint32?_ofNat (n : UInt32) : uint32? (ofNat n.toNat) = some n := by
  have hlt : n.toNat < pow2 32 := n.toNat_lt
  simp [uint32?, natBelow?_ofNat hlt]

/-! ## Size -/

theorem le_of_foldDigits {acc n : Nat} {cs : List Char}
    (h : Number.foldDigits 10 Number.digit? acc cs = some n) : acc ≤ n := by
  induction cs generalizing acc with
  | nil => exact Nat.le_of_eq (Option.some.inj h)
  | cons c cs ih =>
    unfold Number.foldDigits at h
    split at h
    · have hle := ih h
      omega
    · exact nomatch h

/-- The significand has room for all digits of a number below 2 ^ 64. -/
theorem takeDigits_of_foldDigits {acc n : Nat} {cs : List Char}
    (h : Number.foldDigits 10 Number.digit? acc cs = some n) (hn : n < pow2 64) :
    takeDigits acc cs = (n, 0) := by
  induction cs generalizing acc with
  | nil =>
    cases h
    rfl
  | cons c cs ih =>
    unfold Number.foldDigits at h
    split at h
    · rename_i d hd
      have hle := le_of_foldDigits h
      have hnext : acc * 10 + d < pow2 64 := by omega
      simp only [takeDigits, hd, Option.getD_some, if_pos hnext]
      exact ih h
    · exact nomatch h

theorem keptParts_digits {n : Nat} (hn : n < pow2 64) : keptParts (digits n) = (n, 0) := by
  have hunsigned {rest : List Char} (h : digits n = '-' :: rest) : False :=
    ne_of_mem_digits (n := n) (c := '-') (by rw [h]; simp) (by decide) rfl
  have hmark : ∀ c ∈ digits n, (!(c == 'e' || c == 'E')) = true := by
    intro c hc
    have he : c ≠ 'e' := ne_of_mem_digits hc (by decide)
    have hE : c ≠ 'E' := ne_of_mem_digits hc (by decide)
    simp [he, hE]
  have hpoint : ∀ c ∈ digits n, (c != '.') = true := by
    intro c hc
    have hne : c ≠ '.' := ne_of_mem_digits hc (by decide)
    simpa using hne
  have hmantissa : (digits n).takeWhile (fun c => !(c == 'e' || c == 'E')) = digits n :=
    List.takeWhile_eq_self_iff.mpr hmark
  have hexponent : (digits n).dropWhile (fun c => !(c == 'e' || c == 'E')) = [] :=
    List.dropWhile_eq_nil_iff.mpr hmark
  have hwhole : (digits n).takeWhile (· != '.') = digits n := List.takeWhile_eq_self_iff.mpr hpoint
  have hfraction : (digits n).dropWhile (· != '.') = [] := List.dropWhile_eq_nil_iff.mpr hpoint
  unfold keptParts
  split
  · rename_i rest heq
    exact (hunsigned heq).elim
  · simp only [hmantissa, hexponent, hwhole, hfraction, List.drop_nil,
      takeDigits_of_foldDigits (Number.foldDigits_digits n) hn]
    rfl

theorem isFinite_digits {n : Nat} (hn : n < pow2 32) : isFinite (digits n) = true := by
  have hbelow : n < pow2 64 := Nat.lt_trans hn (by decide)
  unfold isFinite
  rw [keptParts_digits hbelow]
  dsimp only
  by_cases hzero : n = 0
  · rw [hzero]
    rfl
  · have hlog : n.log2 < 52 := by
      have hlt : n.log2 < 32 := (Nat.log2_lt hzero).mpr hn
      omega
    have hround : Number.binary64.round? false n 1 = some (Number.wholePattern n) := by
      have h := Number.round?_whole hzero hlog 0
      rwa [show pow2 0 = 1 from rfl, Nat.mul_one] at h
    have hone : Number.binary64.ofDecimal? false 1 0 = some (Number.wholePattern 1) := rfl
    rw [hround, hone]
    dsimp only
    rw [Number.product?_one hzero hlog]
    simp [maxPower]

end LiveTrace.Json
