import LiveTrace.Proofs.Files.Paths
import Mathlib.Data.Nat.Digits.Defs
import Mathlib.Tactic.SplitIfs

/-
  Run ids and the names that pass for one. An id is written in lower-case digits, in groups with
  hyphens between them (`IsWritten`), and so are the ids given out (`isWritten_ofIndex`). Reading
  is wider than writing: it takes a name in any mix of cases, and besides an id alone it takes one
  in braces, one behind the schema, and the digits without hyphens (`isId_iff`). Whatever is read,
  the name is one that an entry of a directory can have (`isName_of_isId`).
-/
namespace LiveTrace.RunId

/-- Groups of so many digits each, with hyphens between them. -/
inductive Grouped (digit : Char → Prop) : List Nat → List Char → Prop where
  | last {n : Nat} {cs : List Char} (hlength : cs.length = n) (hdigits : ∀ c ∈ cs, digit c) :
    Grouped digit [n] cs
  | more {n m : Nat} {ns : List Nat} {cs rest : List Char} (hlength : cs.length = n)
    (hdigits : ∀ c ∈ cs, digit c) (hrest : Grouped digit (m :: ns) rest) :
    Grouped digit (n :: m :: ns) (cs ++ '-' :: rest)

/-- How many characters groups take, with a hyphen behind each of them. -/
def extent : List Nat → Nat
  | [] => 0
  | n :: ns => n + 1 + extent ns

/-- The lengths of the groups of an id. -/
def groups : List Nat := [8, 4, 4, 4, 12]

/-- A hexadecimal digit, and no capital letter. -/
def IsDigit (c : Char) : Prop := ('0' ≤ c ∧ c ≤ '9') ∨ ('a' ≤ c ∧ c ≤ 'f')

instance : DecidablePred IsDigit := fun _ => inferInstanceAs (Decidable (_ ∨ _))

/-- An id as it is written. -/
def IsWritten (id : List Char) : Prop := Grouped IsDigit groups id

/-- The forms that an id is read in, without capital letters. -/
inductive HasForm : List Char → Prop where
  | written {id : List Char} (h : IsWritten id) : HasForm id
  | bare {id : List Char} (h : Grouped IsDigit [32] id) : HasForm id
  | braced {id : List Char} (h : IsWritten id) : HasForm ('{' :: (id ++ ['}']))
  | schema {id : List Char} (h : IsWritten id) : HasForm (schema ++ id)

/-! ## Groups -/

section
variable {digit : Char → Prop} {ns : List Nat} {cs : List Char}

theorem Grouped.length_succ (h : Grouped digit ns cs) : cs.length + 1 = extent ns := by
  induction h with
  | last hlength => rw [hlength]; rfl
  | more hlength _ _ ih =>
    rw [extent, ← ih, List.length_append, List.length_cons, hlength]
    omega

theorem Grouped.notMem (h : Grouped digit ns cs) {c : Char} (hc : ¬ digit c) (hne : c ≠ '-') :
    c ∉ cs := by
  induction h with
  | last _ hdigits => exact fun hmem => hc (hdigits c hmem)
  | more _ hdigits _ ih =>
    rw [List.mem_append, List.mem_cons, not_or, not_or]
    exact ⟨fun hmem => hc (hdigits c hmem), hne, ih⟩

theorem Grouped.mem_hyphen {n m : Nat} (h : Grouped digit (n :: m :: ns) cs) : '-' ∈ cs := by
  cases h
  simp

theorem grouped_map_iff {g : Char → Char} (hg : ∀ c, g c = '-' ↔ c = '-') :
    Grouped digit ns (cs.map g) ↔ Grouped (fun c => digit (g c)) ns cs := by
  constructor
  · generalize hds : cs.map g = ds
    intro h
    induction h generalizing cs with
    | last hlength hdigits =>
      subst hds
      exact .last ((List.length_map g).symm.trans hlength) (List.forall_mem_map.mp hdigits)
    | more hlength hdigits _ ih =>
      obtain ⟨as, bs, rfl, rfl, hbs⟩ := List.map_eq_append_iff.mp hds
      obtain ⟨b, bs, rfl, hb, hrest⟩ := List.map_eq_cons_iff.mp hbs
      obtain rfl := (hg b).mp hb
      exact .more ((List.length_map g).symm.trans hlength) (List.forall_mem_map.mp hdigits)
        (ih hrest)
  · intro h
    induction h with
    | last hlength hdigits =>
      exact .last ((List.length_map g).trans hlength) (List.forall_mem_map.mpr hdigits)
    | more hlength hdigits _ ih =>
      rw [List.map_append, List.map_cons, (hg '-').mpr rfl]
      exact .more ((List.length_map g).trans hlength) (List.forall_mem_map.mpr hdigits) ih

end

/-! ## Reading the groups -/

/-- Whether a hyphen is due at an index. -/
def isBreak (i : Nat) : Bool := i == 8 || i == 13 || i == 18 || i == 23

/-- Whether a character may stand at its index. -/
def fits (x : Char × Nat) : Bool := if isBreak x.2 then x.1 == '-' else isHex x.1

theorem isHyphenated_iff_fits {cs : List Char} :
    isHyphenated cs = true ↔ cs.length = 36 ∧ cs.zipIdx.all fits = true := by
  change (cs.length == 36 && cs.zipIdx.all fits) = true ↔ _
  rw [Bool.and_eq_true, beq_iff_eq]

/-- Where no hyphen is due there are digits only. -/
theorem all_fits_iff {k : Nat} {cs : List Char} (h : ∀ i < cs.length, isBreak (k + i) = false) :
    (cs.zipIdx k).all fits = true ↔ ∀ c ∈ cs, isHex c = true := by
  induction cs generalizing k with
  | nil => simp
  | cons c cs ih =>
    have hk : isBreak k = false := h 0 (Nat.succ_pos _)
    have hhere : fits (c, k) = isHex c := by
      unfold fits
      rw [hk]
      rfl
    have hrest : ∀ i < cs.length, isBreak (k + 1 + i) = false := fun i hi => by
      rw [Nat.add_right_comm]
      exact h (i + 1) (Nat.succ_lt_succ hi)
    rw [List.zipIdx_cons, List.all_cons, Bool.and_eq_true, hhere, ih hrest, List.forall_mem_cons]

/-- Up to the next hyphen that is due there is a group. -/
theorem all_fits_append_iff {k : Nat} {cs rest : List Char} {c : Char}
    (h : ∀ i < cs.length, isBreak (k + i) = false) (hbreak : isBreak (k + cs.length) = true) :
    ((cs ++ c :: rest).zipIdx k).all fits = true ↔
      (∀ c ∈ cs, isHex c = true) ∧ c = '-' ∧ (rest.zipIdx (k + cs.length + 1)).all fits = true := by
  have hhere : fits (c, k + cs.length) = (c == '-') := by
    unfold fits
    rw [hbreak]
    rfl
  rw [List.zipIdx_append, List.zipIdx_cons, List.all_append, List.all_cons, Bool.and_eq_true,
    Bool.and_eq_true, hhere, beq_iff_eq, all_fits_iff h]

/-- Groups that begin at an index end where the hyphens are due. -/
def Placed (k : Nat) : List Nat → Prop
  | [] => False
  | [n] => ∀ i < n, isBreak (k + i) = false
  | n :: ns => (∀ i < n, isBreak (k + i) = false) ∧ isBreak (k + n) = true ∧ Placed (k + n + 1) ns

instance decPlaced : (k : Nat) → (ns : List Nat) → Decidable (Placed k ns)
  | _, [] => isFalse id
  | k, [n] => inferInstanceAs (Decidable (∀ i < n, isBreak (k + i) = false))
  | k, n :: m :: ns =>
    @instDecidableAnd _ _ inferInstance
      (@instDecidableAnd _ _ inferInstance (decPlaced (k + n + 1) (m :: ns)))

theorem all_fits_iff_grouped {ns : List Nat} {k : Nat} {cs : List Char} (hplaced : Placed k ns)
    (hlength : cs.length + 1 = extent ns) :
    (cs.zipIdx k).all fits = true ↔ Grouped (isHex · = true) ns cs := by
  induction ns generalizing k cs with
  | nil => exact hplaced.elim
  | cons n ns ih =>
    cases ns with
    | nil =>
      have hn : cs.length = n := Nat.succ.inj hlength
      subst hn
      rw [all_fits_iff hplaced]
      exact ⟨fun h => .last rfl h, fun h => by cases h; assumption⟩
    | cons m ns =>
      obtain ⟨hdigits, hbreak, hplaced⟩ := hplaced
      rw [extent] at hlength
      constructor
      · intro h
        -- The characters are cut where the first hyphen is due.
        have hlt : n < cs.length := by
          rw [extent] at hlength
          omega
        have hcut : cs = cs.take n ++ cs[n] :: cs.drop (n + 1) := by simp
        have htake : (cs.take n).length = n := List.length_take_of_le (Nat.le_of_lt hlt)
        rw [hcut, all_fits_append_iff (by rwa [htake]) (by rwa [htake]), htake] at h
        obtain ⟨hgroup, hhyphen, hrest⟩ := h
        rw [hcut, hhyphen]
        refine .more htake hgroup ((ih hplaced ?_).mp hrest)
        rw [List.length_drop]
        omega
      · intro h
        cases h with
        | more hn hgroup hrest =>
          subst hn
          rw [List.length_append, List.length_cons] at hlength
          exact (all_fits_append_iff hdigits hbreak).mpr
            ⟨hgroup, rfl, (ih hplaced (by omega)).mpr hrest⟩

theorem isHyphenated_iff {cs : List Char} :
    isHyphenated cs = true ↔ Grouped (isHex · = true) groups cs := by
  have hplaced : Placed 0 groups := by decide
  rw [isHyphenated_iff_fits]
  constructor
  · rintro ⟨hlength, h⟩
    exact (all_fits_iff_grouped hplaced (congrArg (· + 1) hlength)).mp h
  · intro h
    exact ⟨Nat.succ.inj h.length_succ, (all_fits_iff_grouped hplaced h.length_succ).mpr h⟩

/-! ## Cases -/

theorem le_iff_toNat_le {c d : Char} : c ≤ d ↔ c.toNat ≤ d.toNat := UInt32.le_iff_toNat_le

theorem toNat_toLower (c : Char) :
    c.toLower.toNat = if 'A' ≤ c ∧ c ≤ 'Z' then c.toNat + 32 else c.toNat := by
  unfold Char.toLower
  split
  · rename_i h
    have hle : c.val.toNat ≤ 90 := le_iff_toNat_le.mp h.2
    rw [if_pos (show 'A' ≤ c ∧ c ≤ 'Z' from h)]
    change (c.val.toNat + 32) % 2 ^ 32 = c.val.toNat + 32
    omega
  · rename_i h
    rw [if_neg (show ¬ ('A' ≤ c ∧ c ≤ 'Z') from h)]

/-- Only a character itself has it as its small letter, unless it is a letter. -/
theorem toLower_eq_iff {c d : Char} (hd : d < 'A' ∨ 'z' < d) : c.toLower = d ↔ c = d := by
  rw [← Char.toNat_inj, ← Char.toNat_inj, toNat_toLower]
  simp only [← Char.not_le, le_iff_toNat_le, Char.reduceToNat] at hd ⊢
  split <;> omega

/-- Digits are read in either case. -/
theorem isHex_iff (c : Char) : isHex c = true ↔ IsDigit c.toLower := by
  unfold IsDigit
  simp only [le_iff_toNat_le, toNat_toLower, Char.reduceToNat]
  unfold isHex Number.hexDigit?
  simp only [le_iff_toNat_le, Char.reduceToNat]
  split_ifs <;> simp <;> omega

/-! ## Reading -/

theorem isHyphenated_iff_isWritten {cs : List Char} :
    isHyphenated cs = true ↔ IsWritten (cs.map Char.toLower) := by
  unfold IsWritten
  rw [isHyphenated_iff, grouped_map_iff fun c => toLower_eq_iff (by decide)]
  simp only [isHex_iff]

theorem bare_iff {cs : List Char} :
    (cs.length == 32 && cs.all isHex) = true ↔ Grouped IsDigit [32] (cs.map Char.toLower) := by
  rw [grouped_map_iff fun c => toLower_eq_iff (by decide), Bool.and_eq_true, beq_iff_eq,
    List.all_eq_true]
  simp only [isHex_iff]
  exact ⟨fun h => .last h.1 h.2, fun h => by cases h; constructor <;> assumption⟩

theorem braced_iff {cs : List Char} :
    (cs.head? == some '{' && cs.getLast? == some '}' && isHyphenated (cs.drop 1).dropLast) = true ↔
      ∃ id, IsWritten id ∧ cs.map Char.toLower = '{' :: (id ++ ['}']) := by
  rw [Bool.and_eq_true, Bool.and_eq_true, beq_iff_eq, beq_iff_eq, isHyphenated_iff_isWritten]
  constructor
  · rintro ⟨⟨hopen, hclose⟩, h⟩
    obtain ⟨ds, rfl⟩ := List.head?_eq_some_iff.mp hopen
    obtain ⟨es, hes⟩ := List.getLast?_eq_some_iff.mp hclose
    cases es with
    | nil => exact absurd (List.cons.inj hes).1 (by decide)
    | cons e es =>
      have hds : ds = es ++ ['}'] := (List.cons.inj hes).2
      subst hds
      rw [List.drop_one, List.tail_cons, List.dropLast_concat] at h
      refine ⟨_, h, ?_⟩
      rw [List.map_cons, List.map_append]
      rfl
  · rintro ⟨id, h, heq⟩
    obtain ⟨c, ds, rfl, hopen, hds⟩ := List.map_eq_cons_iff.mp heq
    obtain ⟨es, ends, rfl, rfl, hends⟩ := List.map_eq_append_iff.mp hds
    obtain ⟨d, ends, rfl, hclose, hnil⟩ := List.map_eq_cons_iff.mp hends
    obtain rfl := List.map_eq_nil_iff.mp hnil
    obtain rfl := (toLower_eq_iff (by decide)).mp hopen
    obtain rfl := (toLower_eq_iff (by decide)).mp hclose
    rw [List.drop_one, List.tail_cons, List.dropLast_concat]
    exact ⟨⟨rfl, List.getLast?_concat (l := '{' :: es)⟩, h⟩

theorem hasSchema_iff {cs : List Char} :
    hasSchema cs = true ↔ ∃ id, IsWritten id ∧ cs.map Char.toLower = schema ++ id := by
  unfold hasSchema
  rw [Bool.and_eq_true, beq_iff_eq, isHyphenated_iff_isWritten]
  constructor
  · rintro ⟨hschema, h⟩
    refine ⟨_, h, ?_⟩
    calc cs.map Char.toLower
        = (cs.take schema.length ++ cs.drop schema.length).map Char.toLower := by
          rw [List.take_append_drop]
      _ = schema ++ (cs.drop schema.length).map Char.toLower := by rw [List.map_append, hschema]
  · rintro ⟨id, h, heq⟩
    obtain ⟨as, bs, rfl, hschema, rfl⟩ := List.map_eq_append_iff.mp heq
    have hlength : schema.length = as.length := by rw [← hschema, List.length_map]
    rw [hlength, List.take_left, List.drop_left]
    exact ⟨hschema, h⟩

/-- There are no capital letters in an id as it is written. -/
theorem map_toLower_of_isWritten {id : List Char} (h : IsWritten id) :
    id.map Char.toLower = id := by
  have hsame : ∀ c ∈ id, c.toLower = c := by
    intro c hc
    by_cases hdigit : IsDigit c
    · rw [← Char.toNat_inj, toNat_toLower, if_neg]
      unfold IsDigit at hdigit
      simp only [le_iff_toNat_le, Char.reduceToNat] at hdigit ⊢
      omega
    · obtain rfl : c = '-' := Decidable.byContradiction fun hne => h.notMem hdigit hne hc
      rfl
  exact (List.map_congr_left hsame).trans (List.map_id' id)

/-- A name passes for an id exactly when it has one of the forms, capital letters aside. -/
theorem isId_iff {name : String} :
    isId name = true ↔ HasForm (name.toList.map Char.toLower) := by
  unfold isId
  dsimp only
  rw [Bool.or_eq_true, Bool.or_eq_true, Bool.or_eq_true, bare_iff, isHyphenated_iff_isWritten,
    braced_iff, hasSchema_iff]
  constructor
  · rintro (((h | h) | ⟨id, h, heq⟩) | ⟨id, h, heq⟩)
    · exact .bare h
    · exact .written h
    · exact heq ▸ .braced h
    · exact heq ▸ .schema h
  · generalize hcs : name.toList.map Char.toLower = cs
    intro h
    cases h with
    | written h => exact .inl (.inl (.inr h))
    | bare h => exact .inl (.inl (.inl h))
    | braced h => exact .inl (.inr ⟨_, h, rfl⟩)
    | schema h => exact .inr ⟨_, h, rfl⟩

theorem isId_of_isWritten {name : String} (h : IsWritten name.toList) : isId name = true := by
  rw [isId_iff, map_toLower_of_isWritten h]
  exact .written h

theorem HasForm.notMem_slash {cs : List Char} (h : HasForm cs) : '/' ∉ cs := by
  cases h with
  | written h | bare h => exact h.notMem (by decide) (by decide)
  | braced h => simpa using h.notMem (c := '/') (by decide) (by decide)
  | schema h =>
    rw [List.mem_append, not_or]
    exact ⟨by decide, h.notMem (by decide) (by decide)⟩

theorem HasForm.length_le {cs : List Char} (h : HasForm cs) : 32 ≤ cs.length := by
  have hwritten {id : List Char} (h : IsWritten id) : id.length = 36 :=
    Nat.succ.inj h.length_succ
  cases h with
  | written h => rw [hwritten h]; decide
  | bare h => exact Nat.le_of_eq (Nat.succ.inj h.length_succ).symm
  | braced h => rw [List.length_cons, List.length_append, hwritten h]; decide
  | schema h => rw [List.length_append, hwritten h]; decide

theorem length_le_of_isId {name : String} (h : isId name = true) : 32 ≤ name.toList.length := by
  have hlength := (isId_iff.mp h).length_le
  rwa [List.length_map] at hlength

theorem isName_of_isId {name : String} (h : isId name = true) : Path.IsName name := by
  have hlength := length_le_of_isId h
  refine ⟨fun heq => ?_, fun hmem => ?_, fun heq => ?_, fun heq => ?_⟩
  · exact absurd (heq ▸ hlength) (by decide)
  · exact (isId_iff.mp h).notMem_slash (List.mem_map.mpr ⟨'/', hmem, by decide⟩)
  · exact absurd (heq ▸ hlength) (by decide)
  · exact absurd (heq ▸ hlength) (by decide)

/-! ## Writing -/

theorem isDigit_of_mem_hexDigits {c : Char} {n : Nat} (h : c ∈ Number.hexDigits n) : IsDigit c := by
  have hdigits : ∀ d < 16, IsDigit (Nat.digitChar d) := by decide
  refine Decidable.byContradiction fun hc => ?_
  refine Number.notMem_hexDigits (fun d hd heq => ?_) n h
  exact hc (heq ▸ hdigits d hd)

/-- The ids given out are written as ids are, as long as their last group has room. -/
theorem isWritten_ofIndex {n : Nat} (hn : n < 16 ^ 12) : IsWritten (ofIndex n).toList := by
  have hlength : (Number.hexDigits n).length ≤ 12 :=
    (Nat.length_toDigits_le_iff (by decide) (by decide)).mpr hn
  have hlast : Grouped IsDigit [12] (Number.hexPadded 12 n) := by
    unfold Number.hexPadded
    refine .last ?_ fun c hc => ?_
    · rw [List.length_append, List.length_replicate]
      omega
    · rcases List.mem_append.mp hc with hc | hc
      · rw [(List.mem_replicate.mp hc).2]
        decide
      · exact isDigit_of_mem_hexDigits hc
  have hstem : stem.toList = "6f1d2c3b".toList ++ '-' :: ("58a7".toList ++ '-' ::
      ("4e09".toList ++ '-' :: ("9c41".toList ++ ['-']))) := by decide +kernel
  rw [toList_ofIndex, hstem]
  simp only [List.append_assoc, List.cons_append, List.nil_append]
  have hdigits {cs : List Char} (h : cs.all (decide <| IsDigit ·) = true) : ∀ c ∈ cs, IsDigit c :=
    fun c hc => of_decide_eq_true (List.all_eq_true.mp h c hc)
  exact .more rfl (hdigits (by decide)) (.more rfl (hdigits (by decide))
    (.more rfl (hdigits (by decide)) (.more rfl (hdigits (by decide)) hlast)))

end LiveTrace.RunId
