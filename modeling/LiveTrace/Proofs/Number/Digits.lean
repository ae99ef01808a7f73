import LiveTrace.Number.Digits

/-
  The digits of a number. Its last digit stands for the remainder by ten and those before it for
  the quotient, so a fold over all of them gives the number back (`decimal?_digits`); only zero
  starts with a zero (`digits_head`).
-/
namespace LiveTrace.Number

theorem digits_of_lt {n : Nat} (h : n < 10) : digits n = [n.digitChar] :=
  Nat.toDigits_of_lt_base h

theorem digits_of_le {n : Nat} (h : 10 ≤ n) :
    digits n = digits (n / 10) ++ [(n % 10).digitChar] :=
  Nat.toDigits_of_base_le (by decide) h

/-- What holds of one digit, and goes on from the digits of a number to one digit more, holds of
the digits of every number. -/
theorem digits_induction {motive : Nat → List Char → Prop}
    (one : ∀ n < 10, motive n [n.digitChar])
    (more : ∀ n d, 0 < n → d < 10 → motive n (digits n) →
      motive (n * 10 + d) (digits n ++ [d.digitChar])) (n : Nat) : motive n (digits n) := by
  induction n using Nat.strongRecOn with
  | ind n ih =>
    by_cases h : n < 10
    · rw [digits_of_lt h]
      exact one n h
    · have hmore := more (n / 10) (n % 10) (by omega) (Nat.mod_lt n (by decide))
        (ih (n / 10) (by omega))
      rw [Nat.mul_comm, Nat.div_add_mod] at hmore
      rw [digits_of_le (Nat.not_lt.mp h)]
      exact hmore

theorem digit?_digitChar {d : Nat} (h : d < 10) : digit? d.digitChar = some d := by
  have hall : ∀ d < 10, digit? d.digitChar = some d := by decide
  exact hall d h

theorem digitChar_range {d : Nat} (h : d < 10) : '0' ≤ d.digitChar ∧ d.digitChar ≤ '9' := by
  have hall : ∀ d < 10, '0' ≤ d.digitChar ∧ d.digitChar ≤ '9' := by decide
  exact hall d h

theorem foldDigits_append (base : Nat) (digit : Char → Option Nat) (acc : Nat)
    (cs ds : List Char) :
    foldDigits base digit acc (cs ++ ds) =
      (foldDigits base digit acc cs).bind (foldDigits base digit · ds) := by
  induction cs generalizing acc with
  | nil => rfl
  | cons c cs ih =>
    rw [List.cons_append, foldDigits, foldDigits]
    cases digit c with
    | none => rfl
    | some d => exact ih _

/-- A fold over digits that gives a number has met nothing else. -/
theorem exists_digit_of_foldDigits {base acc n : Nat} {digit : Char → Option Nat} {cs : List Char}
    (h : foldDigits base digit acc cs = some n) {c : Char} (hc : c ∈ cs) :
    ∃ d, digit c = some d := by
  induction cs generalizing acc with
  | nil => exact nomatch hc
  | cons b bs ih =>
    unfold foldDigits at h
    split at h
    · rename_i d hd
      rcases List.mem_cons.mp hc with rfl | hc
      · exact ⟨d, hd⟩
      · exact ih h hc
    · exact nomatch h

theorem foldDigits_digits (n : Nat) : foldDigits 10 digit? 0 (digits n) = some n := by
  refine digits_induction (motive := fun n cs => foldDigits 10 digit? 0 cs = some n)
    (fun d hd => ?_) (fun n d _ hd ih => ?_) n
  · simp [foldDigits, digit?_digitChar hd]
  · simp [foldDigits_append, ih, foldDigits, digit?_digitChar hd]

/-- The digits of a number are read as it. -/
theorem decimal?_digits (n : Nat) : decimal? (digits n) = some n := by
  have hne : (digits n).isEmpty = false := by
    simp [digits]
  rw [decimal?, hne, if_neg Bool.false_ne_true, foldDigits_digits]

theorem range_of_mem_digits {n : Nat} {c : Char} (h : c ∈ digits n) : '0' ≤ c ∧ c ≤ '9' := by
  revert c
  refine digits_induction (motive := fun _ cs => ∀ {c}, c ∈ cs → '0' ≤ c ∧ c ≤ '9')
    (fun d hd c hc => ?_) (fun n d _ hd ih c hc => ?_) n
  · rw [List.mem_singleton.mp hc]
    exact digitChar_range hd
  · rcases List.mem_append.mp hc with hc | hc
    · exact ih hc
    · rw [List.mem_singleton.mp hc]
      exact digitChar_range hd

/-- The digits of a number start with a zero only if it is zero. -/
theorem digits_head (n : Nat) :
    ∃ c cs, digits n = c :: cs ∧ (c = '0' → cs = []) := by
  have hpositive : 0 < n → ∃ c cs, digits n = c :: cs ∧ c ≠ '0' := by
    refine digits_induction (motive := fun n ds => 0 < n → ∃ c cs, ds = c :: cs ∧ c ≠ '0')
      (fun d hd hpos => ?_) (fun n d hn _ ih _ => ?_) n
    · exact ⟨_, [], rfl, fun hzero => absurd (Nat.digitChar_eq_zero.mp hzero) (by omega)⟩
    · obtain ⟨c, cs, hcs, hc⟩ := ih hn
      exact ⟨c, _, by rw [hcs, List.cons_append], hc⟩
  by_cases hn : 0 < n
  · obtain ⟨c, cs, hcs, hc⟩ := hpositive hn
    exact ⟨c, cs, hcs, fun hzero => absurd hzero hc⟩
  · rw [Nat.eq_zero_of_not_pos hn]
    exact ⟨'0', [], rfl, fun _ => rfl⟩

end LiveTrace.Number
