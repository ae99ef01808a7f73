import LiveTrace.Assembly.Fields

/-
  The language of sources. A source is a row of fields with gaps around them; a gap is made of
  blanks and comments, and a field is a pair of parentheses around comments, strings, groups and
  other characters (`Source`). Where two readings of a character are possible, a comment comes
  first. Every source is cut into its fields (`Source.cut`).
-/
namespace LiveTrace.Assembly

open Text (isAsciiBlank)

/-! ## Comments, strings and fields -/

/-- What stands inside a block comment: characters, and block comments, which nest. A character
that would open or close a comment with the next one, or with the end of this comment, does not
stand for itself. -/
inductive Commented : List Char → Prop where
  | nil : Commented []
  | nested {b t : List Char} (hb : Commented b) (ht : Commented t) :
    Commented ('(' :: ';' :: b ++ ';' :: ')' :: t)
  | char (c : Char) {t : List Char} (hopen : ¬ ['(', ';'] <+: c :: t ++ [';', ')'])
    (hclose : ¬ [';', ')'] <+: c :: t ++ [';', ')']) (ht : Commented t) : Commented (c :: t)

/-- What stands inside a string. A backslash takes the next character with it. -/
inductive Quoted : List Char → Prop where
  | nil : Quoted []
  | escape (c : Char) {t : List Char} (ht : Quoted t) : Quoted ('\\' :: c :: t)
  | char {c : Char} {t : List Char} (hquote : c ≠ '"') (hescape : c ≠ '\\') (ht : Quoted t) :
    Quoted (c :: t)

/-- What stands inside a pair of parentheses. A line comment in it goes up to the end of the
line. -/
inductive Inside : List Char → Prop where
  | nil : Inside []
  | line {l t : List Char} (hl : '\n' ∉ l) (hend : ['\n'] <+: t) (ht : Inside t) :
    Inside (';' :: ';' :: l ++ t)
  | block {b t : List Char} (hb : Commented b) (ht : Inside t) :
    Inside ('(' :: ';' :: b ++ ';' :: ')' :: t)
  | string {q t : List Char} (hq : Quoted q) (ht : Inside t) : Inside ('"' :: q ++ '"' :: t)
  | group {g t : List Char} (hg : Inside g) (hopen : ¬ ['(', ';'] <+: '(' :: g) (ht : Inside t) :
    Inside ('(' :: g ++ ')' :: t)
  | char {c : Char} {t : List Char} (hc : c ∉ ['(', ')', '"']) (hline : ¬ [';', ';'] <+: c :: t)
    (ht : Inside t) : Inside (c :: t)

/-- A pair of parentheses and what stands inside it; the first one begins no comment. -/
inductive IsField : List Char → Prop where
  | mk {g : List Char} (hg : Inside g) (hopen : ¬ ['(', ';'] <+: '(' :: g) :
    IsField ('(' :: g ++ [')'])

/-- What stands between two fields. -/
inductive Gap : List Char → Prop where
  | nil : Gap []
  | blank {c : Char} {t : List Char} (hc : isAsciiBlank c = true) (ht : Gap t) : Gap (c :: t)
  | line {l t : List Char} (hl : '\n' ∉ l) (hend : ['\n'] <+: t) (ht : Gap t) :
    Gap (';' :: ';' :: l ++ t)
  | block {b t : List Char} (hb : Commented b) (ht : Gap t) :
    Gap ('(' :: ';' :: b ++ ';' :: ')' :: t)

/-- A text and its fields. Behind the last gap the text may end in a line comment. -/
inductive Source : List (List Char) → List Char → Prop where
  | gap {g : List Char} (hg : Gap g) : Source [] g
  | comment {g l : List Char} (hg : Gap g) (hl : '\n' ∉ l) : Source [] (g ++ ';' :: ';' :: l)
  | field {g f t : List Char} {fields : List (List Char)} (hg : Gap g) (hf : IsField f)
    (ht : Source fields t) : Source (f :: fields) (g ++ f ++ t)

/-! ## The parts of a pass -/

namespace Cut

theorem keep_depth (s : Cut) (cs : List Char) : (s.keep cs).depth = s.depth := by
  unfold keep
  split <;> rfl

theorem keep_done (s : Cut) (cs : List Char) : (s.keep cs).done = s.done := by
  unfold keep
  split <;> rfl

theorem keep_nil (s : Cut) : s.keep [] = s := by
  unfold keep
  split <;> rfl

theorem keep_keep (s : Cut) (as bs : List Char) : (s.keep as).keep bs = s.keep (as ++ bs) := by
  by_cases h : s.depth = 0 <;> simp [keep, h]

/-- Between fields nothing is kept. -/
theorem keep_of_depth_eq_zero {s : Cut} (h : s.depth = 0) (cs : List Char) : s.keep cs = s := by
  simp [keep, h]

theorem keep_of_depth_ne_zero {s : Cut} (h : s.depth ≠ 0) (cs : List Char) :
    s.keep cs = { s with field := cs.reverse ++ s.field } := by
  simp [keep, h]

/-- A group inside a field is kept. -/
theorem closeParen_openParen_keep {s : Cut} (h : s.depth ≠ 0) (g : List Char) :
    (s.openParen.keep g).closeParen = some (s.keep ('(' :: g ++ [')'])) := by
  obtain ⟨depth, field, done⟩ := s
  cases depth with
  | zero => contradiction
  | succ d => simp [keep, openParen, closeParen]

/-- A pair of parentheses with nothing open around it is a field. -/
theorem closeParen_openParen_field (done : List (List Char)) (g : List Char) :
    ((Cut.mk 0 [] done).openParen.keep g).closeParen =
      some ⟨0, [], ('(' :: g ++ [')']) :: done⟩ := by
  simp [keep, openParen, closeParen]

end Cut

/-! Equations of a pass. -/

attribute [local simp] cut

theorem cut_plain_line (s : Cut) (cs : List Char) :
    cut .plain s (';' :: ';' :: cs) = cut .line (s.keep [';', ';']) cs := by
  rw [cut]

theorem cut_plain_block (s : Cut) (cs : List Char) :
    cut .plain s ('(' :: ';' :: cs) = cut (.block 1) (s.keep ['(', ';']) cs := by
  rw [cut]

theorem cut_plain_char (s : Cut) {c : Char} {cs : List Char} (hline : ¬ [';', ';'] <+: c :: cs)
    (hblock : ¬ ['(', ';'] <+: c :: cs) :
    cut .plain s (c :: cs) =
      if c == '"' && s.depth != 0 then cut .string (s.keep ['"']) cs
      else if c == '(' then cut .plain s.openParen cs
      else if c == ')' then
        match s.closeParen with
        | some s => cut .plain s cs
        | none => none
      else if isAsciiBlank c then cut .plain (s.keep [c]) cs
      else if s.depth == 0 then none
      else cut .plain (s.keep [c]) cs := by
  have hnoLine : ∀ rest, c = ';' → cs = ';' :: rest → False := by
    rintro rest rfl rfl
    exact hline (by simp)
  have hnoBlock : ∀ rest, c = '(' → cs = ';' :: rest → False := by
    rintro rest rfl rfl
    exact hblock (by simp)
  rw [cut]
  all_goals first | rfl | assumption

/-- A text that begins with another character does not begin with these two. -/
theorem not_prefix_of_ne {a b c : Char} (h : c ≠ a) (cs : List Char) : ¬ [a, b] <+: c :: cs :=
  fun hp => h (List.cons_prefix_cons.mp hp).1.symm

/-- No two characters come about at the end of a text by what is put behind it, unless it begins
with the second one. -/
theorem not_prefix_append {a b c d : Char} {g : List Char} (h : ¬ [a, b] <+: c :: g)
    (hd : d ≠ b) (t : List Char) : ¬ [a, b] <+: c :: (g ++ d :: t) := by
  cases g with
  | nil => simp [hd.symm]
  | cons e g => simpa using h

theorem ne_of_isAsciiBlank {c d : Char} (hc : isAsciiBlank c = true)
    (hd : isAsciiBlank d = false) : c ≠ d := by
  rintro rfl
  exact Bool.false_ne_true (hd.symm.trans hc)

/-- A character that begins nothing stands for itself inside a field; between two fields only a
blank does. -/
theorem cut_plain_self (s : Cut) {c : Char} {cs : List Char} (hline : ¬ [';', ';'] <+: c :: cs)
    (hopen : c ≠ '(') (hclose : c ≠ ')') (hquote : c = '"' → s.depth = 0) :
    cut .plain s (c :: cs) =
      if s.depth = 0 ∧ isAsciiBlank c = false then none else cut .plain (s.keep [c]) cs := by
  have hstring : (c == '"' && s.depth != 0) = false := by simpa using hquote
  rw [cut_plain_char s hline (not_prefix_of_ne hopen cs), hstring]
  by_cases hd : s.depth = 0 <;> cases hb : isAsciiBlank c <;> simp [hopen, hclose, hd]

theorem cut_plain_blank (s : Cut) {c : Char} (hc : isAsciiBlank c = true) (cs : List Char) :
    cut .plain s (c :: cs) = cut .plain (s.keep [c]) cs := by
  have hquote : c ≠ '"' := ne_of_isAsciiBlank hc rfl
  have hsemicolon : c ≠ ';' := ne_of_isAsciiBlank hc rfl
  rw [cut_plain_self s (not_prefix_of_ne hsemicolon cs) (ne_of_isAsciiBlank hc rfl)
    (ne_of_isAsciiBlank hc rfl) (absurd · hquote)]
  simp [hc]

theorem cut_plain_string {s : Cut} (hs : s.depth ≠ 0) (cs : List Char) :
    cut .plain s ('"' :: cs) = cut .string (s.keep ['"']) cs := by
  rw [cut_plain_char s (not_prefix_of_ne (by decide) cs) (not_prefix_of_ne (by decide) cs)]
  simp [hs]

theorem cut_plain_open (s : Cut) {cs : List Char} (h : ¬ ['(', ';'] <+: '(' :: cs) :
    cut .plain s ('(' :: cs) = cut .plain s.openParen cs := by
  rw [cut_plain_char s (not_prefix_of_ne (by decide) cs) h]
  simp

theorem cut_plain_close (s : Cut) (cs : List Char) :
    cut .plain s (')' :: cs) = s.closeParen.bind (cut .plain · cs) := by
  rw [cut_plain_char s (not_prefix_of_ne (by decide) cs) (not_prefix_of_ne (by decide) cs)]
  cases hs : s.closeParen <;> simp

theorem cut_plain_other {s : Cut} (hs : s.depth ≠ 0) {c : Char} (hc : c ∉ ['(', ')', '"'])
    {cs : List Char} (hline : ¬ [';', ';'] <+: c :: cs) :
    cut .plain s (c :: cs) = cut .plain (s.keep [c]) cs := by
  simp only [List.mem_cons, List.not_mem_nil, or_false, not_or] at hc
  obtain ⟨hopen, hclose, hquote⟩ := hc
  rw [cut_plain_self s hline hopen hclose (absurd · hquote)]
  simp [hs]

theorem cut_block_open (n : Nat) (s : Cut) (cs : List Char) :
    cut (.block n) s ('(' :: ';' :: cs) = cut (.block (n + 1)) (s.keep ['(', ';']) cs := by
  rw [cut]

/-- What a pass goes on with when one of `n + 1` block comments is closed. -/
def Mode.afterClose : Nat → Mode
  | 0 => plain
  | n + 1 => block (n + 1)

theorem cut_block_close (n : Nat) (s : Cut) (cs : List Char) :
    cut (.block (n + 1)) s (';' :: ')' :: cs) =
      cut (Mode.afterClose n) (s.keep [';', ')']) cs := by
  rw [cut]
  cases n <;> simp [Mode.afterClose]

theorem cut_block_char (n : Nat) (s : Cut) {c : Char} {cs : List Char}
    (hopen : ¬ ['(', ';'] <+: c :: cs) (hclose : ¬ [';', ')'] <+: c :: cs) :
    cut (.block n) s (c :: cs) = cut (.block n) (s.keep [c]) cs := by
  rw [cut]
  · rintro rest rfl rfl
    exact hopen (by simp)
  · rintro rest rfl rfl
    exact hclose (by simp)

theorem cut_string_escape (s : Cut) (c : Char) (cs : List Char) :
    cut .string s ('\\' :: c :: cs) = cut .string (s.keep ['\\', c]) cs := by
  rw [cut]

theorem cut_string_char (s : Cut) {c : Char} (hc : c ≠ '\\') (cs : List Char) :
    cut .string s (c :: cs) =
      if c = '"' then cut .plain (s.keep [c]) cs else cut .string (s.keep [c]) cs := by
  rw [cut]
  · simp
  · exact fun _ _ h _ => hc h
  · exact fun h _ => hc h

/-- A line comment is passed over up to the end of its line. -/
theorem cut_line (s : Cut) (cs : List Char) :
    cut .line s cs =
      cut .plain (s.keep (cs.takeWhile (· ≠ '\n'))) (cs.dropWhile (· ≠ '\n')) := by
  induction cs generalizing s with
  | nil => simp [cut, Cut.keep_nil]
  | cons c cs ih =>
    rw [cut]
    by_cases hc : c = '\n'
    · subst hc
      simp [Cut.keep_nil, cut_plain_blank s (c := '\n') rfl]
    · simp [hc, ih, Cut.keep_keep]

theorem cut_line_end (s : Cut) {l t : List Char} (hl : '\n' ∉ l)
    (ht : t = [] ∨ ['\n'] <+: t) : cut .line s (l ++ t) = cut .plain (s.keep l) t := by
  have hall : ∀ c ∈ l, decide (c ≠ '\n') = true := fun c hc => by
    simpa using fun heq : c = '\n' => hl (heq ▸ hc)
  rw [cut_line, List.takeWhile_append_of_pos hall, List.dropWhile_append_of_pos hall]
  rcases ht with rfl | ⟨u, rfl⟩ <;> simp

/-! ## Every source is cut into its fields -/

theorem Quoted.cut {q : List Char} (hq : Quoted q) (s : Cut) (t : List Char) :
    cut .string s (q ++ '"' :: t) = cut .plain (s.keep (q ++ ['"'])) t := by
  induction hq generalizing s with
  | nil => rw [List.nil_append, cut_string_char s (by decide), if_pos rfl, List.nil_append]
  | escape c _ ih =>
    rw [List.cons_append, List.cons_append, cut_string_escape, ih, Cut.keep_keep]
    rfl
  | char hquote hescape _ ih =>
    rw [List.cons_append, cut_string_char s hescape, if_neg hquote, ih, Cut.keep_keep]
    rfl

theorem Commented.cut {b : List Char} (hb : Commented b) (n : Nat) (s : Cut) (t : List Char) :
    cut (.block (n + 1)) s (b ++ ';' :: ')' :: t) =
      cut (Mode.afterClose n) (s.keep (b ++ [';', ')'])) t := by
  induction hb generalizing n s t with
  | nil => rw [List.nil_append, cut_block_close, List.nil_append]
  | @nested b c _ _ ihb ihc =>
    rw [List.append_assoc, List.cons_append, List.cons_append, cut_block_open, List.cons_append,
      List.cons_append, ihb (n + 1), Mode.afterClose, ihc n, Cut.keep_keep, Cut.keep_keep]
    simp
  | @char c b hopen hclose _ ih =>
    have hfollow (x y : Char) : [x, y] <+: c :: (b ++ ';' :: ')' :: t) →
        [x, y] <+: c :: b ++ [';', ')'] := by
      cases b <;> simp
    rw [List.cons_append, cut_block_char _ _ (hopen ∘ hfollow '(' ';') (hclose ∘ hfollow ';' ')'),
      ih, Cut.keep_keep]
    rfl

theorem Inside.cut {g : List Char} (hg : Inside g) {s : Cut} (hs : s.depth ≠ 0) (t : List Char) :
    cut .plain s (g ++ ')' :: t) = cut .plain (s.keep g) (')' :: t) := by
  induction hg generalizing s t with
  | nil => rw [Cut.keep_nil, List.nil_append]
  | @line l u hl hend _ ih =>
    have hfollow : ['\n'] <+: u ++ ')' :: t := hend.trans (List.prefix_append u _)
    rw [List.append_assoc, List.cons_append, List.cons_append, cut_plain_line,
      cut_line_end _ hl (.inr hfollow), ih (by rwa [Cut.keep_depth, Cut.keep_depth]),
      Cut.keep_keep, Cut.keep_keep]
    rfl
  | @block b u hb _ ih =>
    rw [List.append_assoc, List.cons_append, List.cons_append, cut_plain_block,
      List.cons_append, List.cons_append, hb.cut 0, Mode.afterClose,
      ih (by rwa [Cut.keep_depth, Cut.keep_depth]), Cut.keep_keep, Cut.keep_keep]
    simp
  | @string q u hq _ ih =>
    rw [List.append_assoc, List.cons_append, cut_plain_string hs, List.cons_append, hq.cut,
      ih (by rwa [Cut.keep_depth, Cut.keep_depth]), Cut.keep_keep, Cut.keep_keep]
    simp
  | @group g u _ hopen _ ihg ihu =>
    rw [List.append_assoc, List.cons_append, List.cons_append,
      cut_plain_open s (not_prefix_append hopen (by decide) _), ihg (Nat.succ_ne_zero s.depth),
      cut_plain_close, Cut.closeParen_openParen_keep hs g, Option.bind_some,
      ihu (by rwa [Cut.keep_depth]), Cut.keep_keep]
    simp
  | @char c u hc hline _ ih =>
    rw [List.cons_append, cut_plain_other hs hc (not_prefix_append hline (by decide) _),
      ih (by rwa [Cut.keep_depth]), Cut.keep_keep]
    rfl

theorem IsField.cut {f : List Char} (hf : IsField f) (done : List (List Char)) (t : List Char) :
    cut .plain ⟨0, [], done⟩ (f ++ t) = cut .plain ⟨0, [], f :: done⟩ t := by
  obtain ⟨hg, hopen⟩ := hf
  rename_i g
  rw [List.append_assoc, List.cons_append, List.cons_append, List.nil_append,
    cut_plain_open _ (not_prefix_append hopen (by decide) t), hg.cut (Nat.succ_ne_zero 0),
    cut_plain_close, Cut.closeParen_openParen_field done g, Option.bind_some]

theorem Gap.cut {g : List Char} (hg : Gap g) (done : List (List Char)) (t : List Char) :
    cut .plain ⟨0, [], done⟩ (g ++ t) = cut .plain ⟨0, [], done⟩ t := by
  have hkeep : ∀ cs, (Cut.mk 0 [] done).keep cs = ⟨0, [], done⟩ :=
    Cut.keep_of_depth_eq_zero rfl
  induction hg with
  | nil => rfl
  | blank hc _ ih => rw [List.cons_append, cut_plain_blank _ hc, hkeep, ih]
  | @line l u hl hend _ ih =>
    have hfollow : ['\n'] <+: u ++ t := hend.trans (List.prefix_append u t)
    rw [List.append_assoc, List.cons_append, List.cons_append, cut_plain_line, hkeep,
      cut_line_end _ hl (.inr hfollow), hkeep, ih]
  | @block b u hb _ ih =>
    rw [List.append_assoc, List.cons_append, List.cons_append, cut_plain_block, hkeep,
      List.cons_append, List.cons_append, hb.cut 0, hkeep, Mode.afterClose, ih]

theorem Source.cut {fields : List (List Char)} {text : List Char} (h : Source fields text)
    (done : List (List Char)) :
    cut .plain ⟨0, [], done⟩ text = some (done.reverse ++ fields) := by
  induction h generalizing done with
  | @gap g hg =>
    rw [← List.append_nil g, hg.cut, Assembly.cut, List.append_nil]
    rfl
  | @comment g l hg hl =>
    rw [hg.cut, cut_plain_line, ← List.append_nil l, cut_line_end _ hl (.inl rfl),
      Cut.keep_of_depth_eq_zero rfl, Cut.keep_of_depth_eq_zero rfl, Assembly.cut, List.append_nil]
    rfl
  | @field g f t fields hg hf _ ih =>
    rw [List.append_assoc, hg.cut, hf.cut, ih, List.reverse_cons, List.append_assoc]
    rfl

theorem Source.splitChars {fields : List (List Char)} {text : List Char}
    (h : Source fields text) : splitChars text = some fields := h.cut []

end LiveTrace.Assembly
