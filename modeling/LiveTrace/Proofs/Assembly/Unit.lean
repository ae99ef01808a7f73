import LiveTrace.Assembly.Basic
import LiveTrace.Proofs.Assembly.Recognition
import Mathlib.Data.List.Basic

/-
  Splitting undoes assembling. Fields on lines of their own are a source with just these fields,
  and they may stand inside a pair of parentheses (`source_lines`, `inside_lines`); so a unit of
  sources that can be split is one field, and what stands inside it is cut into the fields it was
  made of, one by one (`splitFields_assemble`). The entry is such a field if it is cut into one at
  all, whatever comments and strings the evaluation code leaves open: what follows the code ends
  in a line that no gap ends in (`Gap.not_closingLine_suffix`).
-/
namespace LiveTrace.Assembly

open Text (isAsciiBlank isBlank trim trimStart trimEnd)

/-! ## Fields -/

theorem Source.isField {fields : List (List Char)} {text : List Char} (h : Source fields text) :
    ∀ f ∈ fields, IsField f := by
  induction h with
  | gap | comment => simp
  | field _ hf _ ih => exact List.forall_mem_cons.mpr ⟨hf, ih⟩

theorem isField_of_splitChars {f : List Char} (h : splitChars f = some [f]) : IsField f :=
  (splitChars_eq_some_iff.mp h).isField f List.mem_cons_self

/-- A field begins and ends with a character that is no blank. -/
theorem IsField.trim {f : List Char} (hf : IsField f) : Text.trim f = f := by
  obtain ⟨hg, -⟩ := hf
  rename_i g
  have hopen : isBlank '(' = false := by decide
  have hclose : isBlank ')' = false := by decide
  simp [Text.trim, trimStart, trimEnd, hopen, hclose]

theorem IsField.inside {f t : List Char} (hf : IsField f) (ht : Inside t) : Inside (f ++ t) := by
  obtain ⟨hg, hopen⟩ := hf
  simpa using hg.group hopen ht

theorem inside_blank {c : Char} (hc : isAsciiBlank c = true) {t : List Char} (ht : Inside t) :
    Inside (c :: t) := by
  refine .char ?_ (not_prefix_of_ne (ne_of_isAsciiBlank hc rfl) t) ht
  simp only [List.mem_cons, List.not_mem_nil, or_false, not_or]
  exact ⟨ne_of_isAsciiBlank hc rfl, ne_of_isAsciiBlank hc rfl, ne_of_isAsciiBlank hc rfl⟩

/-! ## Fields on lines of their own -/

/-- A field on a line of its own, as characters. -/
def lineChars (f : List Char) : List Char := ' ' :: ' ' :: f ++ ['\n']

theorem toList_line (f : String) : (line f).toList = lineChars f.toList := by
  simp [line, lineChars]

variable {fields : List (List Char)}

/-- Fields on lines of their own are a source of just these fields. -/
theorem source_lines (h : ∀ f ∈ fields, IsField f) : Source fields (fields.flatMap lineChars) := by
  induction fields with
  | nil => exact .gap .nil
  | cons f fields ih =>
    rw [List.forall_mem_cons] at h
    have hspaces : Gap [' ', ' '] := .blank rfl (.blank rfl .nil)
    have hrest := (ih h.2).prepend (a := ['\n']) fun g hg => .blank rfl hg
    simpa [lineChars] using Source.field hspaces h.1 hrest

/-- Fields on lines of their own may stand in a pair of parentheses. -/
theorem inside_lines (h : ∀ f ∈ fields, IsField f) : Inside (fields.flatMap lineChars) := by
  induction fields with
  | nil => exact .nil
  | cons f fields ih =>
    rw [List.forall_mem_cons] at h
    have hinside := h.1.inside (inside_blank (c := '\n') rfl (ih h.2))
    simpa [lineChars] using inside_blank (c := ' ') rfl (inside_blank (c := ' ') rfl hinside)

/-! ## Words -/

/-- Characters that stand for themselves, inside a field and inside a string. -/
def IsWord (w : List Char) : Prop := ∀ c ∈ w, c ∉ ['(', ')', '"', '\\', ';']

instance (w : List Char) : Decidable (IsWord w) :=
  List.decidableBAll (fun c => c ∉ ['(', ')', '"', '\\', ';']) w

theorem inside_word {w t : List Char} (hw : IsWord w) (ht : Inside t) : Inside (w ++ t) := by
  induction w with
  | nil => exact ht
  | cons c w ih =>
    obtain ⟨hc, hw⟩ := List.forall_mem_cons.mp hw
    simp only [List.mem_cons, List.not_mem_nil, or_false, not_or] at hc
    obtain ⟨hopen, hclose, hquote, -, hsemicolon⟩ := hc
    exact .char (by simp [hopen, hclose, hquote]) (not_prefix_of_ne hsemicolon _) (ih hw)

theorem quoted_word {w : List Char} (hw : IsWord w) : Quoted w := by
  induction w with
  | nil => exact .nil
  | cons c w ih =>
    obtain ⟨hc, hw⟩ := List.forall_mem_cons.mp hw
    exact .char (by rintro rfl; simp at hc) (by rintro rfl; simp at hc) (ih hw)

/-- A word and what stands behind it, in a pair of parentheses. -/
theorem isField_word {w t : List Char} (hne : w ≠ []) (hw : IsWord w) (ht : Inside t) :
    IsField ('(' :: (w ++ t) ++ [')']) := by
  refine .mk (inside_word hw ht) fun hp => ?_
  obtain ⟨c, w, rfl⟩ := List.exists_cons_of_ne_nil hne
  obtain rfl : ';' = c := by simpa using hp
  simp [IsWord] at hw

/-- A module of fields on lines of their own is a field. -/
theorem isField_module (h : ∀ f ∈ fields, IsField f) :
    IsField ("(module".toList ++ '\n' :: fields.flatMap lineChars ++ [')']) := by
  have hbody : Inside ('\n' :: fields.flatMap lineChars) := inside_blank rfl (inside_lines h)
  have hfield := isField_word (w := "module".toList) (by decide) (by decide) hbody
  simpa using hfield

/-! ## Where the entry ends -/

/-- The end of a line and the line that closes the entry. -/
def closingLine : List Char := ['\n', ' ', ' ', ')', '\n']

/-- What a text ends in begins in the second part of it or in the first one. -/
theorem suffix_append_cases {w a t : List Char} (h : w <:+ a ++ t) :
    w <:+ t ∨ ∃ x, x ≠ [] ∧ x <:+ a ∧ w = x ++ t := by
  obtain ⟨v, hv⟩ := h
  rcases List.append_eq_append_iff.mp hv with ⟨x, rfl, rfl⟩ | ⟨y, rfl, rfl⟩
  · cases x with
    | nil => exact .inl List.suffix_rfl
    | cons c x => exact .inr ⟨c :: x, by simp, List.suffix_append v _, rfl⟩
  · exact .inl (List.suffix_append y w)

/-- What begins in a part without a new line does not end as the entry does. -/
theorem newline_mem_of_closingLine {x t : List Char} (hx : x ≠ []) (h : closingLine = x ++ t) :
    '\n' ∈ x := by
  obtain ⟨c, x, rfl⟩ := List.exists_cons_of_ne_nil hx
  obtain ⟨rfl, -⟩ := List.cons.inj h
  exact List.mem_cons_self

/-- No gap ends as the entry does: a line comment ends before the closing line begins, and what
ends a block comment is not on it. -/
theorem Gap.not_closingLine_suffix {g : List Char} (hg : Gap g) : ¬ closingLine <:+ g := by
  induction hg with
  | nil => decide
  | @blank c t _ ht ih =>
    intro h
    rw [List.suffix_cons_iff] at h
    rcases h with h | h
    · obtain ⟨rfl, rfl⟩ := List.cons.inj h
      exact absurd (Source.gap ht).splitChars (by decide)
    · exact ih h
  | @line l t hl _ _ ih =>
    intro h
    rcases suffix_append_cases h with h | ⟨x, hx, hsuffix, hsplit⟩
    · exact ih h
    · have hmem := hsuffix.subset (newline_mem_of_closingLine hx hsplit)
      simp [hl] at hmem
  | @block b t _ _ ih =>
    intro h
    have heq : '(' :: ';' :: b ++ ';' :: ')' :: t = '(' :: ';' :: b ++ ([';', ')'] ++ t) := by simp
    rw [heq, ← List.append_assoc] at h
    rcases suffix_append_cases h with h | ⟨x, hx, hsuffix, hsplit⟩
    · exact ih h
    have hmem : '\n' ∈ x := newline_mem_of_closingLine hx hsplit
    rcases suffix_append_cases hsuffix with h | ⟨y, -, -, rfl⟩
    · exact absurd (h.subset hmem) (by decide)
    · have hsemicolon : ';' ∈ closingLine := by simp [hsplit]
      exact absurd hsemicolon (by decide)

/-- A source without a field that ends in a new line is a gap. -/
theorem Source.gap_of_nil {t : List Char} (h : Source [] t) (hend : ['\n'] <:+ t) : Gap t := by
  cases h with
  | gap hg => exact hg
  | @comment g l hg hl =>
    rcases suffix_append_cases hend with h | ⟨x, hx, -, hsplit⟩
    · have hmem : '\n' ∈ ';' :: ';' :: l := h.subset (List.mem_singleton_self _)
      simp [hl] at hmem
    · obtain ⟨c, x, rfl⟩ := List.exists_cons_of_ne_nil hx
      simp at hsplit

/-- A gap in front of a field whose parenthesis comes first is empty. -/
theorem Gap.eq_nil {g t cs : List Char} {c : Char} (hg : Gap g) (hc : c ≠ ';')
    (h : g ++ t = '(' :: c :: cs) : g = [] := by
  cases hg with
  | nil => rfl
  | blank hblank =>
    obtain ⟨rfl, -⟩ := List.cons.inj h
    exact absurd hblank (by decide)
  | line => simp at h
  | block =>
    simp only [List.cons_append, List.cons.injEq, true_and] at h
    exact absurd h.1.symm hc

/-- If a text that begins with a parenthesis and ends in the closing line has one field, then this
field goes from that parenthesis to the one of the closing line. -/
theorem eq_of_splitChars_closingLine {f cs : List Char} {c : Char} (hc : c ≠ ';')
    (h : splitChars ('(' :: c :: cs ++ closingLine) = some [f]) :
    f = '(' :: c :: cs ++ ['\n', ' ', ' ', ')'] := by
  generalize htext : '(' :: c :: cs ++ closingLine = text at h
  obtain _ | _ | ⟨hg, hf, ht⟩ := splitChars_eq_some_iff.mp h
  rename_i g t
  rw [List.append_assoc] at htext
  obtain rfl : g = [] := hg.eq_nil hc htext.symm
  rw [List.nil_append] at htext
  have hsuffix : closingLine <:+ f ++ t := htext ▸ List.suffix_append _ _
  rcases suffix_append_cases hsuffix with hsuffix | ⟨x, hx, hxf, hsplit⟩
  · have hend : ['\n'] <:+ t := (by decide : ['\n'] <:+ closingLine).trans hsuffix
    exact absurd hsuffix (ht.gap_of_nil hend).not_closingLine_suffix
  -- The field ends in a parenthesis, and there is one on the closing line.
  · have hparen : [')'] <:+ x := by
      obtain ⟨hg', -⟩ := hf
      refine List.suffix_of_suffix_length_le (List.suffix_append _ _) hxf ?_
      exact List.length_pos_iff.mpr hx
    obtain ⟨y, rfl⟩ := hparen
    have ht : t = ['\n'] := by
      rcases y with _ | ⟨_, _ | ⟨_, _ | ⟨_, _ | ⟨_, _ | ⟨_, y⟩⟩⟩⟩⟩ <;>
        simp [closingLine] at hsplit
      exact hsplit.2.2.2.symm
    subst ht
    have hline : closingLine = ['\n', ' ', ' ', ')'] ++ ['\n'] := rfl
    rw [hline, ← List.append_assoc] at htext
    exact (List.append_cancel_right htext).symm

/-! ## The fields of a unit -/

theorem inside_quoted {w t : List Char} (hw : IsWord w) (ht : Inside t) :
    Inside ('"' :: w ++ '"' :: ' ' :: t) :=
  .string (quoted_word hw) (inside_blank rfl ht)

/-- An import from a module, where what it is imported as is a field itself. -/
theorem isField_import {m n item : List Char} (hm : IsWord m) (hn : IsWord n)
    (hitem : IsField item) :
    IsField ('(' :: ("import ".toList ++
      ('"' :: m ++ '"' :: ' ' :: ('"' :: n ++ '"' :: ' ' :: item))) ++ [')']) := by
  have hinside := hitem.inside .nil
  rw [List.append_nil] at hinside
  exact isField_word (by decide) (by decide) (inside_quoted hm (inside_quoted hn hinside))

theorem toList_import : "(import \"".toList = '(' :: "import ".toList ++ ['"'] := by decide

theorem toList_between : "\" \"".toList = ['"', ' ', '"'] := by decide

theorem isWord_append {v w : List Char} (hv : IsWord v) (hw : IsWord w) : IsWord (v ++ w) :=
  List.forall_mem_append.mpr ⟨hv, hw⟩

theorem isWord_hookModule : IsWord hookModule.toList := by decide

theorem isWord_name (h : Hook) : IsWord h.name.toList := by cases h <;> decide +kernel

theorem isWord_params (h : Hook) :
    IsWord (" ".intercalate (h.params.map (·.name))).toList := by
  cases h <;> decide +kernel

theorem isField_hookImport (h : Hook) : IsField (hookImport h).toList := by
  have hparams : IsWord ("param ".toList ++ (" ".intercalate (h.params.map (·.name))).toList) :=
    isWord_append (by decide) (isWord_params h)
  have hname : IsWord ("func $".toList ++ hookModule.toList ++ ".".toList ++ h.name.toList ++
      " ".toList) :=
    isWord_append (isWord_append (isWord_append (isWord_append (by decide) isWord_hookModule)
      (by decide)) (isWord_name h)) (by decide)
  have hgroup := isField_word (List.append_ne_nil_of_left_ne_nil (by decide) _) hparams .nil
  have hitem := isField_word (List.append_ne_nil_of_right_ne_nil _ (by decide)) hname
    (hgroup.inside .nil)
  have hfield := isField_import isWord_hookModule (isWord_name h) hitem
  have hfunc : "\" (func $".toList = '"' :: ' ' :: '(' :: "func $".toList := by decide
  have hparam : " (param ".toList = " ".toList ++ '(' :: "param ".toList := by decide
  have hclose : ")))".toList = [')', ')', ')'] := by decide
  unfold hookImport
  simp only [String.toList_append]
  rw [toList_import, toList_between, hfunc, hparam, hclose]
  simpa only [List.append_assoc, List.cons_append, List.nil_append, List.append_nil] using hfield

theorem isField_submissionImport : IsField submissionImport.toList := by
  have hname : IsWord ("global $".toList ++ hookModule.toList ++ ".".toList ++
      submissionGlobal.toList ++ " i32".toList) := by decide
  have hfield := isField_import isWord_hookModule (n := submissionGlobal.toList) (by decide)
    (isField_word (List.append_ne_nil_of_right_ne_nil _ (by decide)) hname .nil)
  have hglobal : "\" (global $".toList = '"' :: ' ' :: '(' :: "global $".toList := by decide
  have hclose : " i32))".toList = " i32".toList ++ [')', ')'] := by decide
  unfold submissionImport
  simp only [String.toList_append]
  rw [toList_import, toList_between, hglobal, hclose]
  simpa only [List.append_assoc, List.cons_append, List.nil_append, List.append_nil] using hfield

theorem isField_of_mem_preludeFields : ∀ f ∈ preludeFields, IsField f.toList := by
  simp only [preludeFields, List.forall_mem_append, List.forall_mem_map]
  exact ⟨fun h _ => isField_hookImport h, by simpa using isField_submissionImport⟩

theorem isField_memoryField : IsField memoryField.toList :=
  isField_of_splitChars (by decide +kernel)

/-- The entry function, with exactly `code` as its body. -/
def entryField (code : String) : String :=
  "(func " ++ entryFunction ++ " (export \"" ++ entryExport ++ "\")\n" ++ code ++ "\n  )"

theorem entry_eq_line (code : String) : entry code = line (entryField code) := by
  have hopen : "  (func " = "  " ++ "(func " := by decide
  have hclose : "\n  )\n" = "\n  )" ++ "\n" := by decide
  simp only [entry, line, entryField, hopen, hclose, String.append_assoc]

theorem toList_entryField (code : String) :
    ∃ cs, (entryField code).toList = '(' :: 'f' :: cs ++ ['\n', ' ', ' ', ')'] := by
  have hopen : "(func ".toList = '(' :: 'f' :: "unc ".toList := by decide
  have hclose : "\n  )".toList = ['\n', ' ', ' ', ')'] := by decide
  unfold entryField
  simp only [String.toList_append]
  rw [hopen, hclose]
  simp only [List.cons_append]
  exact ⟨_, rfl⟩

/-- An entry that has one field is the entry function on a line of its own. -/
theorem splitFields_entry {code f : String} (h : splitFields (entry code) = some [f]) :
    f = entryField code := by
  obtain ⟨cs, hcs⟩ := toList_entryField code
  rw [splitFields, entry_eq_line, toList_line, Option.map_eq_some_iff] at h
  obtain ⟨fields, h, hf⟩ := h
  obtain ⟨f, rfl, rfl⟩ := List.map_eq_singleton_iff.mp hf
  have hspaces : Gap [' ', ' '] := .blank rfl (.blank rfl .nil)
  have hline : lineChars (entryField code).toList =
      [' ', ' '] ++ ('(' :: 'f' :: cs ++ closingLine) := by
    simp [lineChars, hcs, closingLine]
  rw [hline, splitChars, hspaces.cut] at h
  have heq := eq_of_splitChars_closingLine (by decide) h
  rw [heq, ← hcs, String.ofList_toList]

/-! ## The fields of a source -/

/-- The fields of all sources. -/
def splitSources (sources : List String) : List String :=
  sources.flatMap fun s => (splitFields s).getD []

theorem isField_of_splitFields {source : String} {fields : List String}
    (h : splitFields source = some fields) : ∀ f ∈ fields, IsField f.toList := by
  rw [splitFields, Option.map_eq_some_iff] at h
  obtain ⟨cut, h, rfl⟩ := h
  intro f hf
  obtain ⟨g, hg, rfl⟩ := List.mem_map.mp hf
  rw [String.toList_ofList]
  exact (splitChars_eq_some_iff.mp h).isField g hg

theorem isField_of_mem_splitSources {sources : List String} :
    ∀ f ∈ splitSources sources, IsField f.toList := by
  intro f hf
  obtain ⟨source, -, hf⟩ := List.mem_flatMap.mp hf
  cases h : splitFields source with
  | none => simp [h] at hf
  | some fields => exact isField_of_splitFields h f (by simpa [h] using hf)

theorem sourceFields_eq {source : String} (h : (splitFields source).isSome) :
    sourceFields source =
      ((((splitFields source).getD []).filter fun f => isImport f.toList),
        ((splitFields source).getD []).filter fun f => !isImport f.toList) := by
  rw [splitFields, Option.isSome_map] at h
  obtain ⟨fields, h⟩ := Option.isSome_iff_exists.mp h
  simp [sourceFields, splitFields, h, List.partition_eq_filter_filter, List.filter_map,
    Function.comp_def]

theorem imports_eq {sources : List String} (h : ∀ s ∈ sources, (splitFields s).isSome) :
    imports sources = (splitSources sources).filter fun f => isImport f.toList := by
  rw [imports, splitSources, List.filter_flatMap]
  exact List.flatMap_congr fun s hs => congrArg Prod.fst (sourceFields_eq (h s hs))

theorem definitions_eq {sources : List String} (h : ∀ s ∈ sources, (splitFields s).isSome) :
    definitions sources = (splitSources sources).filter fun f => !isImport f.toList := by
  rw [definitions, splitSources, List.filter_flatMap]
  exact List.flatMap_congr fun s hs => congrArg Prod.snd (sourceFields_eq (h s hs))

/-! ## The unit -/

theorem toList_join_map_line (fields : List String) :
    (String.join (fields.map line)).toList = (fields.map String.toList).flatMap lineChars := by
  induction fields with
  | nil => rfl
  | cons f fields ih => simp [toList_line, ih]

theorem fieldLine_eq_line {f : String} (h : IsField f.toList) : fieldLine f = line f := by
  rw [fieldLine, h.trim, String.ofList_toList]

/-- Behind a gap, fields on lines of their own are cut into just these fields. -/
theorem splitFields_lines {gap : String} (hgap : Gap gap.toList) {fields : List String}
    (h : ∀ f ∈ fields, IsField f.toList) :
    splitFields (gap ++ String.join (fields.map line)) = some fields := by
  have hfields : ∀ f ∈ fields.map String.toList, IsField f := by simpa using h
  rw [splitFields, String.toList_append, toList_join_map_line, splitChars, hgap.cut,
    (source_lines hfields).cut]
  simp

theorem splitFields_prelude : splitFields prelude = some preludeFields := by
  have hgap : Gap "".toList := .nil
  have hlines := splitFields_lines hgap isField_of_mem_preludeFields
  rwa [String.empty_append] at hlines

/-- A module of fields on lines of their own is cut into one field, up to its last parenthesis. -/
theorem splitFields_module {fields : List String} (h : ∀ f ∈ fields, IsField f.toList) :
    splitFields ("(module" ++ ("\n" ++ String.join (fields.map line)) ++ ")\n") =
      some ["(module" ++ ("\n" ++ String.join (fields.map line)) ++ ")"] := by
  have hfields : ∀ f ∈ fields.map String.toList, IsField f := by simpa using h
  generalize hunit : "(module" ++ ("\n" ++ String.join (fields.map line)) ++ ")" = unit
  have hlist : unit.toList =
      "(module".toList ++ '\n' :: (fields.map String.toList).flatMap lineChars ++ [')'] := by
    rw [← hunit, String.toList_append, String.toList_append, String.toList_append,
      toList_join_map_line]
    rfl
  have hclose : ")\n" = ")" ++ "\n" := by decide
  have hfield : IsField unit.toList := hlist ▸ isField_module hfields
  have hsource : Source [unit.toList] (unit ++ "\n").toList := by
    rw [String.toList_append]
    exact .field .nil hfield (.gap (.blank rfl .nil))
  rw [hclose, ← String.append_assoc, hunit, splitFields, hsource.splitChars]
  simp

/-- The fields of a unit. -/
def unitFields (sources : List String) (code : String) : List String :=
  preludeFields ++ (imports sources ++ definitions sources) ++ [entryField code, memoryField]

theorem assemble_eq {sources : List String} (code : String)
    (h : ∀ f ∈ imports sources ++ definitions sources, IsField f.toList) :
    assemble sources code =
      "(module" ++ ("\n" ++ String.join ((unitFields sources code).map line)) ++ ")\n" := by
  have hlines : (imports sources ++ definitions sources).map fieldLine =
      (imports sources ++ definitions sources).map line :=
    List.map_congr_left fun f hf => fieldLine_eq_line (h f hf)
  have hopen : "(module\n" = "(module" ++ "\n" := by decide
  rw [assemble, hlines, hopen, entry_eq_line, prelude, unitFields]
  simp only [List.map_append, String.join_append, List.map_cons, List.map_nil, String.join_cons,
    String.join_nil, String.append_empty, String.append_assoc]

theorem unitFields_eq {sources : List String} (h : ∀ s ∈ sources, (splitFields s).isSome)
    (code : String) :
    unitFields sources code = preludeFields ++
      ((splitSources sources).filter fun f => isImport f.toList) ++
      ((splitSources sources).filter fun f => !isImport f.toList) ++
      [entryField code, memoryField] := by
  rw [unitFields, imports_eq h, definitions_eq h, ← List.append_assoc preludeFields]

theorem isField_of_mem_unitFields {sources : List String} {code : String}
    (hsources : ∀ f ∈ imports sources ++ definitions sources, IsField f.toList)
    (hentry : IsField (entryField code).toList) :
    ∀ f ∈ unitFields sources code, IsField f.toList := by
  simp only [unitFields, List.forall_mem_append, List.forall_mem_cons]
  exact ⟨⟨isField_of_mem_preludeFields, List.forall_mem_append.mp hsources⟩, hentry,
    isField_memoryField, by simp⟩

/-- Splitting undoes assembling. If every source can be split, and the entry around `code` is one
field, then the unit is one field, and between its word and its last parenthesis stand the hooks'
imports, the imports of all sources, their other fields, the entry and the memory, each as it was
written and in this order. -/
theorem splitFields_assemble (sources : List String) (code : String)
    (hsources : ∀ s ∈ sources, (splitFields s).isSome)
    (hentry : ∃ f, splitFields (entry code) = some [f]) :
    ∃ body, assemble sources code = "(module" ++ body ++ ")\n" ∧
      splitFields (assemble sources code) = some ["(module" ++ body ++ ")"] ∧
      splitFields prelude = some preludeFields ∧
      splitFields body = some (preludeFields ++
        ((splitSources sources).filter fun f => isImport f.toList) ++
        ((splitSources sources).filter fun f => !isImport f.toList) ++
        [entryField code, memoryField]) := by
  obtain ⟨f, hf⟩ := hentry
  have hentry : IsField (entryField code).toList :=
    splitFields_entry hf ▸ isField_of_splitFields hf f List.mem_cons_self
  have hsplit : ∀ f ∈ imports sources ++ definitions sources, IsField f.toList := by
    rw [imports_eq hsources, definitions_eq hsources, List.forall_mem_append]
    exact ⟨fun f hf => isField_of_mem_splitSources f (List.mem_of_mem_filter hf),
      fun f hf => isField_of_mem_splitSources f (List.mem_of_mem_filter hf)⟩
  have hfields := isField_of_mem_unitFields hsplit hentry
  have hnewline : Gap "\n".toList := .blank rfl .nil
  refine ⟨"\n" ++ String.join ((unitFields sources code).map line), assemble_eq code hsplit, ?_,
    splitFields_prelude, ?_⟩
  · exact (congrArg splitFields (assemble_eq code hsplit)).trans (splitFields_module hfields)
  · exact (splitFields_lines hnewline hfields).trans (congrArg some (unitFields_eq hsources code))

/-- A source with a comment and a string, a source with an import, and a call. -/
theorem splitFields_assemble_helper :
    ∃ body, assemble ["(func $helper) ;; (", "(import \"math\" \"(\" (func))"] "    call $helper" =
        "(module" ++ body ++ ")\n" ∧
      splitFields body = some (preludeFields ++ ["(import \"math\" \"(\" (func))"] ++
        ["(func $helper)"] ++ [entryField "    call $helper", memoryField]) := by
  have hsources : ∀ s ∈ ["(func $helper) ;; (", "(import \"math\" \"(\" (func))"],
      (splitFields s).isSome := by decide +kernel
  have hentry : splitFields (entry "    call $helper") = some [entryField "    call $helper"] := by
    decide +kernel
  obtain ⟨body, hbody, -, -, hsplit⟩ := splitFields_assemble _ _ hsources ⟨_, hentry⟩
  have hall : splitSources ["(func $helper) ;; (", "(import \"math\" \"(\" (func))"] =
      ["(func $helper)", "(import \"math\" \"(\" (func))"] := by decide +kernel
  refine ⟨body, hbody, ?_⟩
  rw [hsplit, hall]
  decide +kernel

end LiveTrace.Assembly
