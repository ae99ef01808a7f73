import LiveTrace.Number.Binary

/-
  Whole numbers of few bits as sixty-four-bit floating-point numbers. Such a number is rounded to
  itself, whatever power of two it is written over (`round?_whole`), its pattern stands for it
  (`value_whole`), and so its product with one can be written too (`product?_one`).
-/
namespace LiveTrace.Number

theorem pow2_add (m n : Nat) : pow2 (m + n) = pow2 m * pow2 n := Nat.pow_add 2 m n

theorem pow2_ne_zero (n : Nat) : pow2 n ≠ 0 := Nat.ne_of_gt (pow2_pos n)

theorem log2_pow2 (n : Nat) : (pow2 n).log2 = n := Nat.log2_two_pow

theorem pow2_log2_le {n : Nat} (hn : n ≠ 0) : pow2 n.log2 ≤ n := Nat.log2_self_le hn

theorem lt_pow2_log2 (n : Nat) : n < pow2 (n.log2 + 1) := Nat.lt_log2_self

theorem log2_mul_pow2 {n : Nat} (hn : n ≠ 0) (q : Nat) : (n * pow2 q).log2 = n.log2 + q := by
  refine (Nat.log2_eq_iff (Nat.mul_ne_zero hn (pow2_ne_zero q))).mpr ⟨?_, ?_⟩
  · change pow2 (n.log2 + q) ≤ _
    rw [pow2_add]
    exact Nat.mul_le_mul_right _ (pow2_log2_le hn)
  · change _ < pow2 (n.log2 + q + 1)
    rw [Nat.add_right_comm, pow2_add]
    exact Nat.mul_lt_mul_of_pos_right (lt_pow2_log2 n) (pow2_pos q)

theorem roundQuotient_mul (n : Nat) {d : Nat} (hd : 0 < d) : roundQuotient (n * d) d = n := by
  unfold roundQuotient
  simp [Nat.mul_div_cancel n hd, hd]

/-! ## Rounding in steps -/

/-- A quotient in units of two to the power of `e`. -/
def scaled (num den : Nat) (e : Int) : Nat × Nat :=
  if 0 ≤ e then (num, den * pow2 e.toNat) else (num * pow2 (-e).toNat, den)

namespace BinaryFormat

variable (f : BinaryFormat)

/-- The power of two that the last bit of a quotient's significand is worth, or twice that. -/
def guess (num den : Nat) : Int := (num.log2 : Int) - den.log2 - f.fractionBits

/-- The power of two that the last bit of the rounded quotient is worth. -/
def unit (num den : Nat) : Int :=
  let e := f.guess num den
  max (if (scaled num den e).1 < (scaled num den e).2 * pow2 f.fractionBits then e - 1 else e)
    f.leastExponent

/-- The exponent field and the fraction field of the rounded quotient, as one number. -/
def field (num den : Nat) : Nat :=
  let e := f.unit num den
  (e - f.leastExponent).toNat * pow2 f.fractionBits +
    roundQuotient (scaled num den e).1 (scaled num den e).2

theorem round?_eq (negative : Bool) {num : Nat} (hnum : num ≠ 0) (den : Nat) :
    f.round? negative num den =
      if f.field num den < f.specialExponent * pow2 f.fractionBits then
        some ((if negative then pow2 f.signBit else 0) + f.field num den)
      else none := by
  unfold round?
  rw [beq_false_of_ne hnum]
  rfl

theorem product?_of_finite {f : BinaryFormat} {a b s t : Nat} {negative negative' : Bool}
    {x y : Int} {lowest lowest' : Bool} (ha : f.value a = .finite negative s x lowest)
    (hb : f.value b = .finite negative' t y lowest') :
    f.product? a b =
      if 0 ≤ x + y then f.round? (negative != negative') (s * t * pow2 (x + y).toNat) 1
      else f.round? (negative != negative') (s * t) (pow2 (-(x + y)).toNat) := by
  unfold product?
  rw [ha, hb]

end BinaryFormat

/-! ## Whole numbers -/

/-- The significand of a whole number, with its first bit in place. -/
def significand (n : Nat) : Nat := n * pow2 (52 - n.log2)

/-- The pattern of a whole number of fewer than fifty-three bits. -/
def wholePattern (n : Nat) : Nat := (n.log2 + 1022) * pow2 52 + significand n

theorem fractionBits_binary64 : binary64.fractionBits = 52 := rfl

theorem leastExponent_binary64 : binary64.leastExponent = -1074 := rfl

theorem specialExponent_binary64 : binary64.specialExponent = 2047 := rfl

section

variable {n : Nat} (hn : n ≠ 0) (hlog : n.log2 < 52)
include hn hlog

theorem significand_range : pow2 52 ≤ significand n ∧ significand n < 2 * pow2 52 := by
  have hlow : pow2 52 = pow2 n.log2 * pow2 (52 - n.log2) := by
    rw [← pow2_add, Nat.add_sub_of_le (by omega)]
  have hhigh : 2 * pow2 52 = pow2 (n.log2 + 1) * pow2 (52 - n.log2) := by
    rw [hlow, ← Nat.mul_assoc, pow2_add, Nat.mul_comm (pow2 n.log2) (pow2 1)]
    rfl
  rw [hhigh, hlow]
  exact ⟨Nat.mul_le_mul_right _ (pow2_log2_le hn),
    Nat.mul_lt_mul_of_pos_right (lt_pow2_log2 n) (pow2_pos _)⟩

omit hn in
theorem scaled_whole (q : Nat) :
    scaled (n * pow2 q) (pow2 q) (n.log2 - 52) = (significand n * pow2 q, pow2 q) := by
  have hplaces : (-((n.log2 : Int) - 52)).toNat = 52 - n.log2 := by omega
  rw [scaled, if_neg (by omega), hplaces, significand, Nat.mul_right_comm]

theorem unit_whole (q : Nat) : binary64.unit (n * pow2 q) (pow2 q) = n.log2 - 52 := by
  have hguess : binary64.guess (n * pow2 q) (pow2 q) = n.log2 - 52 := by
    rw [BinaryFormat.guess, log2_mul_pow2 hn, log2_pow2, fractionBits_binary64]
    omega
  have hfits : ¬significand n * pow2 q < pow2 q * pow2 52 := by
    rw [Nat.mul_comm (pow2 q)]
    exact Nat.not_lt.mpr (Nat.mul_le_mul_right _ (significand_range hn hlog).1)
  unfold BinaryFormat.unit
  rw [hguess]
  dsimp only
  rw [scaled_whole hlog, leastExponent_binary64, fractionBits_binary64, if_neg hfits]
  omega

/-- A whole number is rounded to itself, whatever power of two it is written over. -/
theorem round?_whole (q : Nat) :
    binary64.round? false (n * pow2 q) (pow2 q) = some (wholePattern n) := by
  have hfield : binary64.field (n * pow2 q) (pow2 q) = wholePattern n := by
    unfold BinaryFormat.field
    rw [unit_whole hn hlog]
    dsimp only
    rw [scaled_whole hlog, leastExponent_binary64, fractionBits_binary64,
      roundQuotient_mul _ (pow2_pos q), wholePattern]
    congr 2
    omega
  have hfits : wholePattern n < 2047 * pow2 52 := by
    have hbits : (n.log2 + 1022) * pow2 52 ≤ 1073 * pow2 52 := Nat.mul_le_mul_right _ (by omega)
    have hhigh := (significand_range hn hlog).2
    unfold wholePattern
    omega
  rw [BinaryFormat.round?_eq _ _ (Nat.mul_ne_zero hn (pow2_ne_zero q)), hfield,
    specialExponent_binary64, fractionBits_binary64, if_pos hfits, if_neg Bool.false_ne_true,
    Nat.zero_add]

/-- The fraction, the exponent and the sign in the pattern of a whole number. -/
theorem wholePattern_fields :
    wholePattern n % pow2 52 = significand n - pow2 52 ∧
      wholePattern n / pow2 52 % pow2 11 = n.log2 + 1023 ∧ wholePattern n / pow2 63 % 2 = 0 := by
  have hrange := significand_range hn hlog
  have hfraction : pow2 52 = 4503599627370496 := rfl
  have hexponent : pow2 11 = 2048 := rfl
  have hsign : pow2 63 = 9223372036854775808 := rfl
  unfold wholePattern
  rw [hfraction] at hrange ⊢
  rw [hexponent, hsign]
  omega

/-- The pattern of a whole number stands for it. -/
theorem value_whole :
    ∃ lowest, binary64.value (wholePattern n) =
      .finite false (significand n) (n.log2 - 52) lowest := by
  obtain ⟨hfraction, hexponent, hsign⟩ := wholePattern_fields hn hlog
  have hpositive : (wholePattern n / pow2 63 % 2 == 1) = false := by
    rw [hsign]
    rfl
  have hspecial : (n.log2 + 1023 == 2047) = false := beq_false_of_ne (by omega)
  have hnormal : (n.log2 + 1023 == 0) = false := beq_false_of_ne (by omega)
  have hplace : (-1074 : Int) + (n.log2 + 1023 : Nat) - 1 = n.log2 - 52 := by omega
  have hvalue : binary64.value (wholePattern n) =
      if (wholePattern n / pow2 52 % pow2 11 == binary64.specialExponent) = true then
        if (wholePattern n % pow2 52 == 0) = true then
          .infinity (wholePattern n / pow2 63 % 2 == 1)
        else .nan
      else if (wholePattern n / pow2 52 % pow2 11 == 0) = true then
        .finite (wholePattern n / pow2 63 % 2 == 1) (wholePattern n % pow2 52)
          binary64.leastExponent false
      else .finite (wholePattern n / pow2 63 % 2 == 1) (wholePattern n % pow2 52 + pow2 52)
        (binary64.leastExponent + (wholePattern n / pow2 52 % pow2 11 : Nat) - 1)
        (wholePattern n % pow2 52 == 0 && decide (wholePattern n / pow2 52 % pow2 11 > 1)) := rfl
  rw [hvalue, hfraction, hexponent, hpositive, specialExponent_binary64, hspecial, hnormal,
    leastExponent_binary64, if_neg Bool.false_ne_true, if_neg Bool.false_ne_true,
    Nat.sub_add_cancel (significand_range hn hlog).1]
  exact ⟨_, by rw [hplace]⟩

/-- The product of a whole number with one is not too large. -/
theorem product?_one :
    binary64.product? (wholePattern n) (wholePattern 1) = some (wholePattern n) := by
  obtain ⟨lowest, hvalue⟩ := value_whole hn hlog
  obtain ⟨lowest', hone⟩ := value_whole (n := 1) (by decide) (by decide)
  have hproduct : significand n * significand 1 = n * pow2 (104 - n.log2) := by
    have hsplit : 104 - n.log2 = 52 - n.log2 + 52 := by omega
    have hfirst : significand 1 = pow2 52 := rfl
    rw [hsplit, pow2_add, ← Nat.mul_assoc, hfirst, significand]
  have hpower : -((n.log2 : Int) - 52 + (Nat.log2 1 - 52)) = (104 - n.log2 : Nat) := by
    have hzero : Nat.log2 1 = 0 := rfl
    omega
  rw [BinaryFormat.product?_of_finite hvalue hone, if_neg (by omega), hpower, Int.toNat_natCast,
    hproduct]
  exact round?_whole hn hlog _

end

end LiveTrace.Number
