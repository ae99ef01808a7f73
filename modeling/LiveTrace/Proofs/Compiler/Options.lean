import LiveTrace.Compiler.Options
import LiveTrace.Proofs.Number.Reading
import LiveTrace.Proofs.Text.Words

/-
  What a text of options asks for. Each setting is the last one of its kind (`foldl_apply`), so the
  options of two texts in a row are those of the second over those of the first. A word is about the
  stack size when it begins with the flag, and then the rest of it is a size or an error
  (`ofWord_stackFlag`); `parse_composes` says so of the words where they stand in the text.
-/
namespace LiveTrace.CompilerOptions

open LiveTrace.Text (Delimited words)

/-! ## Settings -/

/-- The level that a flag sets. -/
def Flag.level? : Flag → Option OptLevel
  | level l => some l
  | _ => none

/-- The stack size that a flag sets. -/
def Flag.stack? : Flag → Option Nat
  | stack n => some n
  | _ => none

/-- Flags set the last level and the last stack size among them. -/
theorem foldl_apply (o : CompilerOptions) (fs : List Flag) :
    fs.foldl apply o =
      ⟨(fs.filterMap Flag.level?).getLast?.or o.optLevel, o.debugInfo || fs.contains .debug,
        (fs.filterMap Flag.stack?).getLast?.or o.maxStack⟩ := by
  induction fs generalizing o with
  | nil => simp
  | cons f fs ih =>
    rw [List.foldl_cons, ih]
    cases f <;> simp [apply, Flag.level?, Flag.stack?, List.getLast?_cons, List.filterMap_cons]

theorem parse_eq (text : String) :
    parse text =
      (⟨((flags text.toList).filterMap Flag.level?).getLast?, (flags text.toList).contains .debug,
        ((flags text.toList).filterMap Flag.stack?).getLast?⟩,
      (flags text.toList).filterMap Flag.diagnostic?) := by
  unfold parse
  dsimp only
  rw [foldl_apply, Option.or_none, Option.or_none, Bool.false_or]

/-! ## Words about the stack size -/

/-- A text of characters is a stack size: a plus sign or none, and then decimal digits that denote
a positive number of sixty-four bits. -/
def IsStackSize (value : List Char) (n : Nat) : Prop :=
  0 < n ∧ n < 2 ^ 64 ∧ ∃ sign digits, (sign = [] ∨ sign = ['+']) ∧ value = sign ++ digits ∧
    Number.Denotes digits n

theorem stackSize?_eq_some_iff {value : List Char} {n : Nat} :
    stackSize? value = some n ↔ IsStackSize value n := by
  have hread := @Number.unsigned?_eq_some_iff (Number.pow2 64) n value
  unfold stackSize? IsStackSize
  constructor
  · intro h
    split at h
    · rename_i m hm
      obtain rfl := Option.some.inj h
      exact ⟨Nat.succ_pos m, hread.mp hm⟩
    · contradiction
  · rintro ⟨hpos, h⟩
    obtain ⟨m, rfl⟩ := Nat.exists_eq_succ_of_ne_zero (Nat.ne_of_gt hpos)
    rw [hread.mpr h]

theorem ofWord_stackFlag (value : List Char) :
    Flag.ofWord (stackFlag ++ value) = match stackSize? value with
      | some n => .stack n
      | none => .badStack value := by
  have hlevel : (stackFlag ++ value == "-O0".toList) = false ∧
      (stackFlag ++ value == "-O1".toList || stackFlag ++ value == "-O2".toList) = false ∧
      (stackFlag ++ value == "-Os".toList) = false := ⟨rfl, rfl, rfl⟩
  have hdebug : (stackFlag ++ value == "-g".toList) = false := rfl
  have hstack : stackFlag.isPrefixOf (stackFlag ++ value) = true := by simp
  unfold Flag.ofWord
  rw [hlevel.1, hlevel.2.1, hlevel.2.2, hdebug, hstack, List.drop_left]
  rfl

/-- A word that does not begin with the flag of the stack size is not about it. -/
theorem ofWord_of_no_size {word : List Char} (h : ¬ stackFlag <+: word) :
    (Flag.ofWord word).stack? = none ∧ ∀ value, Flag.ofWord word ≠ .badStack value := by
  have hno : stackFlag.isPrefixOf word = false :=
    Bool.eq_false_iff.mpr (mt List.isPrefixOf_iff_prefix.mp h)
  unfold Flag.ofWord
  simp only [hno, Bool.false_eq_true, if_false]
  split_ifs <;> exact ⟨rfl, nofun⟩

theorem stack?_ofWord_eq_some_iff {word : List Char} {n : Nat} :
    (Flag.ofWord word).stack? = some n ↔
      ∃ value, word = stackFlag ++ value ∧ IsStackSize value n := by
  constructor
  · intro h
    by_cases hprefix : stackFlag <+: word
    · obtain ⟨value, rfl⟩ := hprefix
      rw [ofWord_stackFlag] at h
      cases hsize : stackSize? value with
      | none =>
        rw [hsize] at h
        contradiction
      | some m =>
        rw [hsize] at h
        obtain rfl := Option.some.inj h
        exact ⟨value, rfl, stackSize?_eq_some_iff.mp hsize⟩
    · exact nomatch (ofWord_of_no_size hprefix).1.symm.trans h
  · rintro ⟨value, rfl, hsize⟩
    rw [ofWord_stackFlag, stackSize?_eq_some_iff.mpr hsize]
    rfl

theorem ofWord_eq_badStack_iff {word value : List Char} :
    Flag.ofWord word = .badStack value ↔
      word = stackFlag ++ value ∧ ∀ n, ¬ IsStackSize value n := by
  constructor
  · intro h
    by_cases hprefix : stackFlag <+: word
    · obtain ⟨value', rfl⟩ := hprefix
      rw [ofWord_stackFlag] at h
      cases hsize : stackSize? value' with
      | none =>
        rw [hsize] at h
        obtain rfl := Flag.badStack.inj h
        exact ⟨rfl, fun n hn => nomatch hsize.symm.trans (stackSize?_eq_some_iff.mpr hn)⟩
      | some m =>
        rw [hsize] at h
        contradiction
    · exact absurd h ((ofWord_of_no_size hprefix).2 value)
  · rintro ⟨rfl, hsize⟩
    have hnone : stackSize? value = none :=
      Option.eq_none_iff_forall_ne_some.mpr fun n hn => hsize n (stackSize?_eq_some_iff.mp hn)
    rw [ofWord_stackFlag, hnone]

/-! ## Texts -/

/-- A text gives the stack size `value` in a word that stands between `before` and `after`. -/
structure GivesStack (text before value after : List Char) : Prop where
  text_eq : text = before ++ (stackFlag ++ value) ++ after
  delimited : Delimited before (stackFlag ++ value) after

section

variable {text before value after : List Char}

theorem flags_of_delimited {w : List Char} (h : Delimited before w after) :
    flags (before ++ w ++ after) = flags before ++ Flag.ofWord w :: flags after := by
  unfold flags
  rw [h.words_eq, List.map_append, List.map_cons]

theorem GivesStack.flags_eq (h : GivesStack text before value after) :
    flags text = flags before ++ Flag.ofWord (stackFlag ++ value) :: flags after := by
  rw [h.text_eq]
  exact flags_of_delimited h.delimited

/-- Each flag of a text is a word of it, between the words that the flags around it are. -/
theorem exists_word_of_flags {f : Flag} {fs gs : List Flag} (h : flags text = fs ++ f :: gs) :
    ∃ before w after, text = before ++ w ++ after ∧ Delimited before w after ∧
      Flag.ofWord w = f ∧ flags before = fs ∧ flags after = gs := by
  unfold flags at h
  obtain ⟨ws, rest, hwords, rfl, hrest⟩ := List.map_eq_append_iff.mp h
  obtain ⟨w, vs, rfl, rfl, rfl⟩ := List.map_eq_cons_iff.mp hrest
  obtain ⟨before, after, rfl, hw, rfl, rfl⟩ := Text.words_eq_iff.mp hwords
  exact ⟨before, w, after, rfl, hw, rfl, rfl, rfl⟩

theorem hasErrors_iff (text : String) :
    hasErrors (parse text).2 = true ↔ ∃ value, .badStack value ∈ flags text.toList := by
  rw [parse_eq, hasErrors, List.any_eq_true]
  constructor
  · rintro ⟨d, hd, herror⟩
    obtain ⟨f, hf, hdiagnostic⟩ := List.mem_filterMap.mp hd
    cases f with
    | badStack value => exact ⟨value, hf⟩
    | unknown word =>
      obtain rfl := Option.some.inj hdiagnostic
      contradiction
    | level l | debug | stack n => contradiction
  · rintro ⟨value, hvalue⟩
    exact ⟨_, List.mem_filterMap.mpr ⟨.badStack value, hvalue, rfl⟩, rfl⟩

/-- The last flag that sets a stack size decides. -/
theorem maxStack_eq_some_iff (text : String) (n : Nat) :
    (parse text).1.maxStack = some n ↔ ∃ fs f gs, flags text.toList = fs ++ f :: gs ∧
      f.stack? = some n ∧ ∀ g ∈ gs, g.stack? = none := by
  rw [parse_eq, List.getLast?_eq_some_iff]
  constructor
  · rintro ⟨sizes, hsizes⟩
    obtain ⟨fs, rest, hflags, -, hrest⟩ := List.filterMap_eq_append_iff.mp hsizes
    obtain ⟨gs, f, hs, rfl, -, hf, hnone⟩ := List.filterMap_eq_cons_iff.mp hrest
    exact ⟨fs ++ gs, f, hs, by rw [hflags, List.append_assoc], hf,
      List.filterMap_eq_nil_iff.mp hnone⟩
  · rintro ⟨fs, f, gs, hflags, hf, hnone⟩
    refine ⟨fs.filterMap Flag.stack?, ?_⟩
    rw [hflags, List.filterMap_append, List.filterMap_cons, hf,
      List.filterMap_eq_nil_iff.mpr hnone]

/-- No word of a text gives a stack size that is one exactly when no flag sets one. -/
theorem forall_stack?_eq_none_iff : (∀ g ∈ flags text, g.stack? = none) ↔
    ∀ before value after, GivesStack text before value after → ∀ n, ¬ IsStackSize value n := by
  constructor
  · intro h before value after hgives n hsize
    have hset := stack?_ofWord_eq_some_iff.mpr ⟨value, rfl, hsize⟩
    have hmem : Flag.ofWord (stackFlag ++ value) ∈ flags text := by
      rw [hgives.flags_eq]
      exact List.mem_append_right _ List.mem_cons_self
    exact nomatch hset.symm.trans (h _ hmem)
  · intro h g hg
    obtain ⟨fs, gs, hflags⟩ := List.mem_iff_append.mp hg
    obtain ⟨before, w, after, htext, hw, rfl, -⟩ := exists_word_of_flags hflags
    refine Option.eq_none_iff_forall_ne_some.mpr fun n hn => ?_
    obtain ⟨value, rfl, hsize⟩ := stack?_ofWord_eq_some_iff.mp hn
    exact h before value after ⟨htext, hw⟩ n hsize

end

/-- Options of two texts with a blank in between: what is said is what is said of the first and then
of the second, and each setting is that of the second text if it makes one. Of any text: there is an
error exactly when some word gives a stack size that is none, such a word sets nothing, and the
stack size is the one in the last word that gives one properly. -/
theorem parse_composes (a b : String) {c : Char} (hc : Text.isBlank c = true) (text : String) :
    let first := parse a
    let second := parse b
    let both := parse (a ++ String.singleton c ++ b)
    (both.2 = first.2 ++ second.2 ∧ both.1.optLevel = second.1.optLevel.or first.1.optLevel ∧
      both.1.maxStack = second.1.maxStack.or first.1.maxStack ∧
      both.1.debugInfo = (first.1.debugInfo || second.1.debugInfo)) ∧
    (hasErrors (parse text).2 = true ↔ ∃ before value after,
      GivesStack text.toList before value after ∧ ∀ n, ¬ IsStackSize value n) ∧
    (∀ n, (parse text).1.maxStack = some n ↔ ∃ before value after,
      GivesStack text.toList before value after ∧ IsStackSize value n ∧
      ∀ before' value' after', GivesStack after before' value' after' →
        ∀ m, ¬ IsStackSize value' m) ∧
    ∀ before value after, GivesStack text.toList before value after →
      (∀ n, ¬ IsStackSize value n) →
      (parse text).1 = (parse (String.ofList (before ++ after))).1 := by
  intro first second both
  refine ⟨?_, ?_, fun n => ?_, fun before value after hgives hsize => ?_⟩
  · have hboth :
        flags (a ++ String.singleton c ++ b).toList = flags a.toList ++ flags b.toList := by
      unfold flags
      rw [String.toList_append, String.toList_append, String.toList_singleton, List.append_assoc,
        List.singleton_append, Text.words_append_blank hc, List.map_append]
    simp only [first, second, both, parse_eq, hboth, List.filterMap_append, List.getLast?_append,
      List.contains_append, and_self]
  · rw [hasErrors_iff]
    constructor
    · rintro ⟨value, hvalue⟩
      obtain ⟨fs, gs, hflags⟩ := List.mem_iff_append.mp hvalue
      obtain ⟨before, w, after, htext, hw, hflag, -⟩ := exists_word_of_flags hflags
      obtain ⟨rfl, hsize⟩ := ofWord_eq_badStack_iff.mp hflag
      exact ⟨before, value, after, ⟨htext, hw⟩, hsize⟩
    · rintro ⟨before, value, after, hgives, hsize⟩
      refine ⟨value, ?_⟩
      rw [hgives.flags_eq, ofWord_eq_badStack_iff.mpr ⟨rfl, hsize⟩]
      exact List.mem_append_right _ List.mem_cons_self
  · rw [maxStack_eq_some_iff]
    constructor
    · rintro ⟨fs, f, gs, hflags, hf, hnone⟩
      obtain ⟨before, w, after, htext, hw, rfl, -, rfl⟩ := exists_word_of_flags hflags
      obtain ⟨value, rfl, hsize⟩ := stack?_ofWord_eq_some_iff.mp hf
      exact ⟨before, value, after, ⟨htext, hw⟩, hsize, forall_stack?_eq_none_iff.mp hnone⟩
    · rintro ⟨before, value, after, hgives, hsize, hlast⟩
      exact ⟨_, _, _, hgives.flags_eq, stack?_ofWord_eq_some_iff.mpr ⟨value, rfl, hsize⟩,
        forall_stack?_eq_none_iff.mpr hlast⟩
  · have haround : flags (before ++ after) = flags before ++ flags after := by
      unfold flags
      rw [hgives.delimited.words_around, List.map_append]
    rw [parse_eq, parse_eq, hgives.flags_eq, String.toList_ofList, haround,
      ofWord_eq_badStack_iff.mpr ⟨rfl, hsize⟩]
    simp [List.filterMap_cons, Flag.level?, Flag.stack?]

/-- A size with a plus sign and zeros, an em space, and a size just out of range, which is an error
and leaves the first size as it is. -/
theorem parse_composes_of_overflow :
    let a := "-g --max-wasm-stack=+007"
    let b := "-Os --max-wasm-stack=18446744073709551616"
    let text := a ++ String.singleton '\u2003' ++ b
    Text.isBlank '\u2003' = true ∧ (parse text).1.optLevel = some .speedAndSize ∧
      (parse text).1.debugInfo = true ∧ (parse text).1.maxStack = some 7 ∧
      (parse text).2 =
        [⟨.error, "invalid value `18446744073709551616` for --max-wasm-stack"⟩] ∧
      ∃ before value after, GivesStack text.toList before value after ∧
        ∀ n, ¬ IsStackSize value n := by
  intro a b text
  have hblank : Text.isBlank '\u2003' = true := by decide
  have hfirst : parse a = (⟨none, true, some 7⟩, []) := by decide +kernel
  have hsecond : parse b = (⟨some .speedAndSize, false, none⟩,
      [⟨.error, "invalid value `18446744073709551616` for --max-wasm-stack"⟩]) := by
    decide +kernel
  obtain ⟨⟨hdiagnostics, hlevel, hstack, hdebug⟩, herrors, -, -⟩ :=
    parse_composes a b hblank text
  rw [hfirst, hsecond] at hdiagnostics hlevel hstack hdebug
  refine ⟨hblank, hlevel, hdebug, hstack, hdiagnostics, herrors.mp ?_⟩
  rw [hdiagnostics]
  rfl

end LiveTrace.CompilerOptions
