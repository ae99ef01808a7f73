import LiveTrace.Text.Blank

/-
  The words of a text. A text may be cut at any blank, and its words are those of the two parts
  (`words_append_blank`); all else follows from this. `words_eq_iff`: the words are just the runs of
  other characters that have a blank or an end of the text on either side, in order.
-/
namespace LiveTrace.Text

variable {c : Char} {text before w after : List Char}

/-! ## Cutting at a blank -/

theorem wordsFrom_append_blank (hc : isBlank c = true) (word xs ys : List Char) :
    wordsFrom word (xs ++ c :: ys) = wordsFrom word xs ++ wordsFrom [] ys := by
  induction xs generalizing word with
  | nil => cases word <;> simp [wordsFrom, hc]
  | cons x xs ih =>
    rw [List.cons_append, wordsFrom, wordsFrom, ih, ih]
    cases isBlank x <;> cases word <;> simp

theorem words_append_blank (hc : isBlank c = true) (xs ys : List Char) :
    words (xs ++ c :: ys) = words xs ++ words ys := wordsFrom_append_blank hc [] xs ys

theorem words_cons_blank (hc : isBlank c = true) (xs : List Char) : words (c :: xs) = words xs :=
  words_append_blank hc [] xs

theorem words_of_blanks {cs : List Char} (h : ∀ c ∈ cs, isBlank c = true) : words cs = [] := by
  induction cs with
  | nil => rfl
  | cons c cs ih =>
    rw [words_cons_blank (h c List.mem_cons_self)]
    exact ih fun x hx => h x (List.mem_cons_of_mem c hx)

theorem wordsFrom_of_plain (hw : ∀ c ∈ w, isBlank c = false) (word : List Char) :
    wordsFrom word w = wordsFrom (w.reverse ++ word) [] := by
  induction w generalizing word with
  | nil => rfl
  | cons c cs ih =>
    have hc : isBlank c = false := hw c List.mem_cons_self
    rw [List.reverse_cons, List.append_assoc, List.singleton_append]
    refine (if_neg (by simp [hc])).trans ?_
    exact ih (fun x hx => hw x (List.mem_cons_of_mem c hx)) (c :: word)

theorem words_of_plain (hne : w ≠ []) (hw : ∀ c ∈ w, isBlank c = false) : words w = [w] := by
  have hempty : w.reverse.isEmpty = false := by simpa using hne
  rw [words, wordsFrom_of_plain hw, List.append_nil, wordsFrom, hempty, List.reverse_reverse]
  rfl

@[simp] theorem words_nil : words [] = [] := rfl

theorem words_append_of_last (h : ∀ c, before.getLast? = some c → isBlank c = true)
    (cs : List Char) : words (before ++ cs) = words before ++ words cs := by
  rcases List.eq_nil_or_concat before with rfl | ⟨xs, c, rfl⟩
  · rfl
  · have hc : isBlank c = true := h c (by simp)
    rw [List.concat_eq_append, List.append_assoc, List.singleton_append, words_append_blank hc,
      words_append_blank hc, words_nil, List.append_nil]

theorem words_append_of_head (h : ∀ c, after.head? = some c → isBlank c = true) (cs : List Char) :
    words (cs ++ after) = words cs ++ words after := by
  cases after with
  | nil => rw [List.append_nil, words_nil, List.append_nil]
  | cons c xs =>
    have hc : isBlank c = true := h c rfl
    rw [words_append_blank hc, words_cons_blank hc]

/-! ## Words where they stand -/

/-- `w` is a word between `before` and `after`: it has no blanks, and it goes on until a blank or
the end of the text on either side. -/
structure Delimited (before w after : List Char) : Prop where
  ne_nil : w ≠ []
  plain : ∀ c ∈ w, isBlank c = false
  left : ∀ c, before.getLast? = some c → isBlank c = true
  right : ∀ c, after.head? = some c → isBlank c = true

theorem Delimited.words_eq (h : Delimited before w after) :
    words (before ++ w ++ after) = words before ++ w :: words after := by
  rw [words_append_of_head h.right, words_append_of_last h.left, words_of_plain h.ne_nil h.plain,
    List.append_assoc, List.singleton_append]

theorem Delimited.words_around (h : Delimited before w after) :
    words (before ++ after) = words before ++ words after := words_append_of_last h.left after

theorem exists_span (p : Char → Bool) (cs : List Char) :
    ∃ xs ys, cs = xs ++ ys ∧ (∀ c ∈ xs, p c = true) ∧ ∀ c, ys.head? = some c → p c = false := by
  refine ⟨cs.takeWhile p, cs.dropWhile p, List.takeWhile_append_dropWhile.symm,
    List.all_eq_true.mp List.all_takeWhile, fun c hc => ?_⟩
  have hnot := List.head?_dropWhile_not p cs
  rwa [hc] at hnot

/-- The first word stands behind blanks. -/
theorem exists_first_word {ws : List (List Char)} (h : words text = w :: ws) :
    ∃ before after, text = before ++ w ++ after ∧ Delimited before w after ∧
      words before = [] ∧ words after = ws := by
  obtain ⟨blanks, rest, rfl, hblanks, hrest⟩ := exists_span isBlank text
  obtain ⟨first, after, rfl, hfirst, hafter⟩ := exists_span (fun c => !isBlank c) rest
  have hdelimited (hne : first ≠ []) : Delimited blanks first after :=
    ⟨hne, fun c hc => by simpa using hfirst c hc, fun c hc => hblanks c (List.mem_of_getLast? hc),
      fun c hc => by simpa using hafter c hc⟩
  cases first with
  | nil =>
    -- Nothing comes behind the blanks.
    have hnil : after = [] := by
      cases after with
      | nil => rfl
      | cons c cs => simpa [hrest c rfl] using hafter c rfl
    subst hnil
    rw [List.append_nil, List.append_nil, words_of_blanks hblanks] at h
    exact absurd h.symm (List.cons_ne_nil w ws)
  | cons c cs =>
    have hwords := (hdelimited (List.cons_ne_nil c cs)).words_eq
    rw [words_of_blanks hblanks, List.append_assoc, h] at hwords
    obtain ⟨rfl, rfl⟩ := List.cons.inj hwords
    exact ⟨blanks, after, (List.append_assoc ..).symm, hdelimited (List.cons_ne_nil c cs),
      words_of_blanks hblanks, rfl⟩

/-- What stands between a word and the next one is not nothing. -/
theorem Delimited.after_word {before' first : List Char}
    (h : Delimited before' first (before ++ w ++ after)) (hw : Delimited before w after) :
    Delimited (before' ++ first ++ before) w after ∧ Delimited before' first before := by
  cases before with
  | nil =>
    obtain ⟨c, cs, rfl⟩ := List.exists_cons_of_ne_nil hw.ne_nil
    exact nomatch (hw.plain c List.mem_cons_self).symm.trans (h.right c rfl)
  | cons b bs =>
    refine ⟨⟨hw.ne_nil, hw.plain, fun c hc => hw.left c ?_, hw.right⟩,
      ⟨h.ne_nil, h.plain, h.left, fun c hc => h.right c hc⟩⟩
    rw [← hc, List.getLast?_append, List.getLast?_eq_some_getLast (List.cons_ne_nil b bs),
      Option.some_or]

/-- A text has a word among its words exactly when it stands somewhere in it, between the words that
come before and those that come after. -/
theorem words_eq_iff {ws vs : List (List Char)} :
    words text = ws ++ w :: vs ↔ ∃ before after, text = before ++ w ++ after ∧
      Delimited before w after ∧ words before = ws ∧ words after = vs := by
  constructor
  · intro h
    induction ws generalizing text with
    | nil => exact exists_first_word h
    | cons first ws ih =>
      obtain ⟨before', rest, rfl, hfirst, hbefore', hrest⟩ := exists_first_word h
      obtain ⟨before, after, rfl, hw, rfl, rfl⟩ := ih hrest
      obtain ⟨hdelimited, hbetween⟩ := hfirst.after_word hw
      refine ⟨before' ++ first ++ before, after, by simp only [List.append_assoc], hdelimited, ?_,
        rfl⟩
      rw [hbetween.words_eq, hbefore', List.nil_append]
  · rintro ⟨before, after, rfl, hw, rfl, rfl⟩
    exact hw.words_eq

end LiveTrace.Text
