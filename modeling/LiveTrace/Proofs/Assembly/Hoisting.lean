import LiveTrace.Proofs.Assembly.Unit

/-
  Which fields of the sources come first in a unit. The first token of a field is what stands
  behind its parenthesis once blanks and comments are passed over (`FirstToken`). A field is moved
  in front of the others only if its first token is `import`, with nothing but blanks before it and
  a blank or a string right behind it (`isImport_iff`, `isImport_cases`); so these fields come
  before all whose first token is another one, and before those where a comment hides the keyword
  (`assemble_imports_first`, `assemble_commented_import_last`).
-/
namespace LiveTrace.Assembly

open Text (isBlank trimStart)

/-! ## The first token of a field -/

/-- What may stand before a token inside a field: blanks and comments. A line comment goes up to
the end of its line. -/
inductive Spacing : List Char → Prop where
  | nil : Spacing []
  | blank {c : Char} {t : List Char} (hc : isBlank c = true) (ht : Spacing t) : Spacing (c :: t)
  | line {l t : List Char} (hl : '\n' ∉ l) (hend : ['\n'] <+: t) (ht : Spacing t) :
    Spacing (';' :: ';' :: l ++ t)
  | block {b t : List Char} (hb : Commented b) (ht : Spacing t) :
    Spacing ('(' :: ';' :: b ++ ';' :: ')' :: t)

/-- The characters that tokens are made of. -/
def isTokenChar (c : Char) : Bool := !isBlank c && !(['(', ')', '"', ';'].contains c)

/-- The first token of a field, with what stands between the parenthesis and the token, and with
what follows the token. -/
structure FirstToken (f space token rest : List Char) : Prop where
  eq : f = '(' :: (space ++ token ++ rest)
  spacing : Spacing space
  isToken : ∀ c ∈ token, isTokenChar c = true
  ends : ∀ c ∈ rest.head?, isTokenChar c = false

/-- The keyword of an import. -/
def importWord : List Char := ['i', 'm', 'p', 'o', 'r', 't']

theorem isTokenChar_importWord : ∀ c ∈ importWord, isTokenChar c = true := List.all_eq_true.mp rfl

/-- Whether a keyword is set off by blanks alone from the parenthesis, and by a blank or a quote
from what follows. -/
def IsSetOff (space rest : List Char) : Prop :=
  (∀ c ∈ space, isBlank c = true) ∧ ∃ c ∈ rest.head?, isBlank c = true ∨ c = '"'

/-! ## The import test -/

theorem after?_eq_some_iff {word cs rest : List Char} :
    after? word cs = some rest ↔ cs = word ++ rest := by
  induction word generalizing cs with
  | nil => simp [after?]
  | cons w ws ih =>
    cases cs with
    | nil => simp [after?]
    | cons c cs =>
      unfold after?
      by_cases hw : w = c
      · simp [hw, ih]
      · simp [hw, Ne.symm hw]

theorem isImport_eq_true_iff {g : List Char} :
    isImport ('(' :: g) = true ↔
      ∃ c rest, trimStart g = importWord ++ c :: rest ∧ (isBlank c = true ∨ c = '"') := by
  unfold isImport
  rw [List.drop_one, List.tail_cons]
  constructor
  · intro h
    split at h
    · rename_i c rest hafter
      have hc : isBlank c = true ∨ c = '"' := by simpa using h
      exact ⟨c, rest, after?_eq_some_iff.mp hafter, hc⟩
    · contradiction
  · rintro ⟨c, rest, htrim, hc⟩
    have hafter : after? ['i', 'm', 'p', 'o', 'r', 't'] (trimStart g) = some (c :: rest) :=
      after?_eq_some_iff.mpr htrim
    rw [hafter]
    simpa using hc

/-- Spacing is made of blanks alone, or a comment begins behind the first blanks of it. -/
theorem Spacing.blanks_or_comment {s : List Char} (h : Spacing s) :
    (∀ c ∈ s, isBlank c = true) ∨
      ∃ blanks c rest, s = blanks ++ c :: rest ∧ (∀ b ∈ blanks, isBlank b = true) ∧
        c ∈ [';', '('] := by
  induction h with
  | nil => exact .inl (by simp)
  | @blank c t hc _ ih =>
    rcases ih with hall | ⟨blanks, d, rest, rfl, hblanks, hd⟩
    · exact .inl (List.forall_mem_cons.mpr ⟨hc, hall⟩)
    · exact .inr ⟨c :: blanks, d, rest, rfl, List.forall_mem_cons.mpr ⟨hc, hblanks⟩, hd⟩
  | line => exact .inr ⟨[], ';', _, rfl, by simp, by simp⟩
  | block => exact .inr ⟨[], '(', _, rfl, by simp, by simp⟩

theorem spacing_of_blanks {s : List Char} (h : ∀ c ∈ s, isBlank c = true) : Spacing s := by
  induction s with
  | nil => exact .nil
  | cons c s ih =>
    obtain ⟨hc, hs⟩ := List.forall_mem_cons.mp h
    exact .blank hc (ih hs)

theorem trimStart_blanks {blanks : List Char} (h : ∀ c ∈ blanks, isBlank c = true)
    (t : List Char) : trimStart (blanks ++ t) = trimStart t := List.dropWhile_append_of_pos h

theorem trimStart_cons {c : Char} (hc : isBlank c = false) (t : List Char) :
    trimStart (c :: t) = c :: t := List.dropWhile_cons_of_neg (by simp [hc])

/-- A field whose first token is the keyword passes for an import exactly if the keyword is set
off. -/
theorem isImport_iff {f space rest : List Char} (h : FirstToken f space importWord rest) :
    isImport f = true ↔ IsSetOff space rest := by
  obtain ⟨rfl, hspacing, -, -⟩ := h
  rw [isImport_eq_true_iff, List.append_assoc]
  rcases hspacing.blanks_or_comment with hblanks | ⟨blanks, c, more, rfl, hblanks, hc⟩
  · have hkeyword : trimStart (space ++ (importWord ++ rest)) = importWord ++ rest := by
      rw [trimStart_blanks hblanks]
      exact trimStart_cons (by decide) _
    rw [hkeyword]
    constructor
    · rintro ⟨c, tail, heq, hc⟩
      obtain rfl := List.append_cancel_left heq
      exact ⟨hblanks, c, rfl, hc⟩
    · rintro ⟨-, c, hhead, hc⟩
      obtain ⟨tail, rfl⟩ := List.head?_eq_some_iff.mp hhead
      exact ⟨c, tail, rfl, hc⟩
  -- The test stops at the comment, which is not the keyword.
  · have hcomment : isBlank c = false ∧ c ≠ 'i' := by
      rcases List.mem_pair.mp hc with rfl | rfl <;> decide
    have hstop : trimStart (blanks ++ c :: more ++ (importWord ++ rest)) =
        c :: (more ++ (importWord ++ rest)) := by
      rw [List.append_assoc, trimStart_blanks hblanks]
      exact trimStart_cons hcomment.1 _
    rw [hstop]
    constructor
    · rintro ⟨d, tail, heq, -⟩
      exact absurd (List.cons.inj heq).1 hcomment.2
    · rintro ⟨hall, -⟩
      have hblank : isBlank c = true := hall c (by simp)
      exact absurd hblank (by simp [hcomment.1])

/-- What passes for an import has the keyword as its first token. -/
theorem isImport_cases {g : List Char} (h : isImport ('(' :: g) = true) :
    ∃ space rest, FirstToken ('(' :: g) space importWord rest := by
  obtain ⟨c, rest, htrim, hc⟩ := isImport_eq_true_iff.mp h
  have hsplit : g = g.takeWhile isBlank ++ (importWord ++ c :: rest) := by
    rw [← htrim]
    exact List.takeWhile_append_dropWhile.symm
  refine ⟨g.takeWhile isBlank, c :: rest, ?_, ?_, ?_, ?_⟩
  · rw [List.append_assoc, ← hsplit]
  · exact spacing_of_blanks fun d hd => List.mem_takeWhile_imp hd
  · exact isTokenChar_importWord
  · intro d hd
    obtain rfl : c = d := by simpa using hd
    rcases hc with hblank | rfl
    · simp [isTokenChar, hblank]
    · decide

/-! ## The unit -/

theorem IsField.exists_cons {f : List Char} (h : IsField f) : ∃ g, f = '(' :: g := by
  obtain ⟨hg, -⟩ := h
  exact ⟨_, rfl⟩

/-- The fields that pass for imports come first, then the others, each as it was written. -/
theorem assemble_hoisted {sources : List String} (h : ∀ s ∈ sources, (splitFields s).isSome)
    (code : String) :
    assemble sources code =
      "(module\n" ++ prelude ++
        String.join (((splitSources sources).filter fun f => isImport f.toList).map line) ++
        String.join (((splitSources sources).filter fun f => !isImport f.toList).map line) ++
        entry code ++ line memoryField ++ ")\n" := by
  have hlines : (imports sources ++ definitions sources).map fieldLine =
      ((splitSources sources).filter fun f => isImport f.toList).map line ++
        ((splitSources sources).filter fun f => !isImport f.toList).map line := by
    rw [imports_eq h, definitions_eq h, ← List.map_append]
    have hisField : ∀ f ∈ splitSources sources, IsField f.toList := isField_of_mem_splitSources
    refine List.map_congr_left fun f hf => fieldLine_eq_line (hisField f ?_)
    rcases List.mem_append.mp hf with hf | hf <;> exact List.mem_of_mem_filter hf
  rw [assemble, hlines, String.join_append]
  simp only [String.append_assoc]

/-- The imports of the sources come first, then their other fields, each as it was written. A field
is among the first ones only if its first token is the keyword of an import, and if it is, exactly
if the keyword is set off by blanks, or by a string behind it. -/
theorem assemble_imports_first (sources : List String) (code : String)
    (h : ∀ s ∈ sources, (splitFields s).isSome) :
    let fields := splitSources sources
    let first := fields.filter fun f => isImport f.toList
    let others := fields.filter fun f => !isImport f.toList
    assemble sources code =
        "(module\n" ++ prelude ++ String.join (first.map line) ++ String.join (others.map line) ++
          entry code ++ line memoryField ++ ")\n" ∧
      ∀ f ∈ fields,
        (f ∈ first → ∃ space rest, FirstToken f.toList space importWord rest) ∧
        ∀ space rest, FirstToken f.toList space importWord rest →
          (f ∈ first ↔ IsSetOff space rest) := by
  intro fields first others
  refine ⟨assemble_hoisted h code,
    fun f hf => ⟨fun hfirst => ?_, fun space rest htoken => ?_⟩⟩
  · have himport : isImport f.toList = true := (List.mem_filter.mp hfirst).2
    obtain ⟨g, hg⟩ := (isField_of_mem_splitSources f hf).exists_cons
    rw [hg] at himport ⊢
    exact isImport_cases himport
  · rw [← isImport_iff htoken]
    exact List.mem_filter.trans (and_iff_right hf)

/-- An import behind a definition, with a line comment between blanks behind its keyword. -/
theorem assemble_imports_first_spaced :
    let sources := ["(func $a)", "(\n import ;; (\n \"m\" \"n\" (func))"]
    (∀ s ∈ sources, (splitFields s).isSome) ∧
      assemble sources "nop" = "(module\n" ++ prelude ++
        line "(\n import ;; (\n \"m\" \"n\" (func))" ++ line "(func $a)" ++ entry "nop" ++
        line memoryField ++ ")\n" := by
  intro sources
  have hsources : ∀ s ∈ sources, (splitFields s).isSome := by decide +kernel
  have hfields : splitSources sources = sources := by decide +kernel
  obtain ⟨hunit, -⟩ := assemble_imports_first sources "nop" hsources
  refine ⟨hsources, hunit.trans ?_⟩
  rw [hfields]
  rfl

/-- A comment between the parenthesis and the keyword hides an import: it comes behind a definition
of an earlier source. -/
theorem assemble_commented_import_last :
    let sources := ["(func $a)", "((; c ;) import \"m\" \"n\" (func))"]
    (∀ s ∈ sources, (splitFields s).isSome) ∧ splitSources sources = sources ∧
      (∃ space rest,
        FirstToken "((; c ;) import \"m\" \"n\" (func))".toList space importWord rest) ∧
      (¬ ∃ space rest, FirstToken "(func $a)".toList space importWord rest) ∧
      assemble sources "nop" = "(module\n" ++ prelude ++ line "(func $a)" ++
        line "((; c ;) import \"m\" \"n\" (func))" ++ entry "nop" ++ line memoryField ++ ")\n" := by
  intro sources
  have hsources : ∀ s ∈ sources, (splitFields s).isSome := by decide +kernel
  have hfields : splitSources sources = sources := by decide +kernel
  refine ⟨hsources, hfields, ?_, ?_, ?_⟩
  · have hcomment : Commented [' ', 'c', ' '] :=
      .char ' ' (by decide) (by decide) (.char 'c' (by decide) (by decide)
        (.char ' ' (by decide) (by decide) .nil))
    have hspacing : Spacing "(; c ;) ".toList := .block hcomment (.blank rfl .nil)
    have hends : ∀ c ∈ (' ' :: "\"m\" \"n\" (func))".toList).head?, isTokenChar c = false := by
      intro c hc
      obtain rfl : ' ' = c := by simpa using hc
      decide
    exact ⟨_, _, by decide +kernel, hspacing, isTokenChar_importWord, hends⟩
  · rintro ⟨space, rest, htoken⟩
    have hlist : "(func $a)".toList = '(' :: 'f' :: "unc $a)".toList := by decide
    have hfirst := htoken.eq
    rw [hlist] at hfirst
    cases htoken.spacing with
    | nil => simp [importWord] at hfirst
    | @blank c t hc =>
      obtain rfl : 'f' = c := by
        simp at hfirst
        exact hfirst.1
      exact absurd hc (by decide)
    | line => simp at hfirst
    | block => simp at hfirst
  · have hfirst : sources.filter (fun f => isImport f.toList) = [] := by decide +kernel
    have hothers : sources.filter (fun f => !isImport f.toList) = sources := by decide +kernel
    rw [assemble_hoisted hsources, hfields, hfirst, hothers]
    simp [sources, String.join, String.append_assoc]

end LiveTrace.Assembly
