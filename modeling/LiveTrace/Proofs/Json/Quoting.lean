import LiveTrace.Json.Text

/-
  Texts inside quotes. What is written of a character is read back as it, whatever follows
  (`unescape?_escapeChar`); so the escaped form of a text stands for that text
  (`unescape?_escape`).
-/
namespace LiveTrace.Json

/-! ## Escapes -/

theorem unescape?_not_hex {a b c d : Char} (hex : hex4? a b c d = none) (rest : List Char) :
    unescape? ('\\' :: 'u' :: a :: b :: c :: d :: rest) = none := by
  by_cases hnext : ∃ e f g h rest', rest = '\\' :: 'u' :: e :: f :: g :: h :: rest'
  · obtain ⟨e, f, g, h, rest', rfl⟩ := hnext
    rw [unescape?, hex]
  · rw [unescape?, hex]
    exact fun e f g h rest' heq => hnext ⟨e, f, g, h, rest', heq⟩

/-- An escape of four hexadecimal digits stands for its character, unless that is half of a
surrogate pair. -/
theorem unescape?_hex {a b c d : Char} {n : Nat} (hex : hex4? a b c d = some n) (hn : n < 0xD800)
    (rest : List Char) :
    unescape? ('\\' :: 'u' :: a :: b :: c :: d :: rest) =
      (unescape? rest).map (Char.ofNat n :: ·) := by
  have hhigh : isHighSurrogate n = false := by
    have h : ¬0xD800 ≤ n := by omega
    simp [isHighSurrogate, h]
  have hlow : isLowSurrogate n = false := by
    have h : ¬0xDC00 ≤ n := by omega
    simp [isLowSurrogate, h]
  -- two such escapes in a row are looked at together
  by_cases hnext : ∃ e f g h rest', rest = '\\' :: 'u' :: e :: f :: g :: h :: rest'
  · obtain ⟨e, f, g, h, rest', rfl⟩ := hnext
    rw [unescape?, hex]
    cases hsecond : hex4? e f g h with
    | none => rw [unescape?_not_hex hsecond, Option.map_none]
    | some m => simp only [hhigh, hlow, Bool.false_eq_true, if_false]
  · rw [unescape?, hex]
    · simp only [hhigh, hlow, Bool.or_false, Bool.false_eq_true, if_false]
    · exact fun e f g h rest' heq => hnext ⟨e, f, g, h, rest', heq⟩

theorem unescape?_short {c d : Char} (hshort : shortEscape? c = some d) (hu : c ≠ 'u')
    (rest : List Char) : unescape? ('\\' :: c :: rest) = (unescape? rest).map (d :: ·) := by
  rw [unescape?, hshort]
  · exact fun _ _ _ _ _ _ _ _ _ h _ => hu h
  · exact fun _ _ _ _ _ h _ => hu h

theorem unescape?_plain {c : Char} (hc : c ≠ '\\') (rest : List Char) :
    unescape? (c :: rest) = (unescape? rest).map (c :: ·) := by
  rw [unescape?]
  · exact fun _ _ _ _ _ _ _ _ _ h _ => hc h
  · exact fun _ _ _ _ _ h _ => hc h
  · exact fun _ _ h _ => hc h
  · exact fun h _ => hc h

/-! ## Characters and texts -/

theorem hexPadded_control {n : Nat} (h : n < 0x20) :
    ∃ a b c d, Number.hexPadded 4 n = [a, b, c, d] ∧ hex4? a b c d = some n := by
  have hall : ∀ n < 0x20, (Number.hexPadded 4 n).length = 4 ∧
      Number.hexadecimal? (Number.hexPadded 4 n) = some n := by decide
  obtain ⟨hlength, hvalue⟩ := hall n h
  generalize Number.hexPadded 4 n = ds at hlength hvalue
  match ds, hlength with
  | [a, b, c, d], _ => exact ⟨a, b, c, d, rfl, hvalue⟩

/-- What is written of a character inside quotes stands for it, whatever follows. -/
theorem unescape?_escapeChar (c : Char) (rest : List Char) :
    unescape? (escapeChar c ++ rest) = (unescape? rest).map (c :: ·) := by
  fun_cases escapeChar c with
  | case8 h1 h2 h3 h4 h5 h6 h7 hcontrol =>
    obtain ⟨a, b, x, d, hdigits, hvalue⟩ := hexPadded_control hcontrol
    rw [hdigits]
    refine (unescape?_hex hvalue (by omega) rest).trans ?_
    rw [Char.ofNat_toNat]
  | case9 h1 h2 =>
    exact unescape?_plain (by simpa using h2) rest
  | _ =>
    rename_i heq
    obtain rfl := eq_of_beq heq
    exact unescape?_short (by decide) (by decide) rest

theorem unescape?_escape (cs : List Char) : unescape? (escape cs) = some cs := by
  induction cs with
  | nil => rfl
  | cons c cs ih =>
    have hcons : escape (c :: cs) = escapeChar c ++ escape cs := List.flatMap_cons
    rw [hcons, unescape?_escapeChar, ih, Option.map_some]

end LiveTrace.Json
