import LiveTrace.Proofs.Assembly.Grammar
import Mathlib.Data.List.TakeWhile

/-
  Only sources are cut. What a pass has passed over in a comment or a string is one of the language
  (`exists_line`, `exists_quoted`, `exists_commented`), and what closes all that is open ends a
  field; so a text that is cut is a source with these fields (`splitChars_eq_some_iff`).
-/
namespace LiveTrace.Assembly

open Text (isAsciiBlank)

/-! ## Comments and strings -/

theorem exists_line (s : Cut) (cs : List Char) :
    ∃ l t, cs = l ++ t ∧ '\n' ∉ l ∧ (t = [] ∨ ['\n'] <+: t) ∧
      cut .line s cs = cut .plain (s.keep l) t := by
  refine ⟨_, _, List.takeWhile_append_dropWhile.symm, fun hmem => ?_, ?_, cut_line s cs⟩
  · simpa using List.mem_takeWhile_imp hmem
  · cases hd : cs.dropWhile (· ≠ '\n') with
    | nil => exact .inl rfl
    | cons c t =>
      have hc := List.head?_dropWhile_not (· ≠ '\n') cs
      rw [hd] at hc
      obtain rfl : c = '\n' := by simpa using hc
      exact .inr ⟨t, rfl⟩

theorem exists_quoted {s : Cut} {cs : List Char} {fields : List (List Char)}
    (h : cut .string s cs = some fields) :
    ∃ q t, cs = q ++ '"' :: t ∧ Quoted q ∧
      cut .plain (s.keep (q ++ ['"'])) t = some fields := by
  induction hlen : cs.length using Nat.strong_induction_on generalizing s cs with
  | _ len ih =>
    cases cs with
    | nil => simp [cut] at h
    | cons c cs =>
      rw [List.length_cons] at hlen
      by_cases hescape : c = '\\'
      · subst hescape
        cases cs with
        | nil => simp [cut] at h
        | cons c cs =>
          rw [cut_string_escape] at h
          obtain ⟨q, t, rfl, hq, ht⟩ := ih _ (by rw [← hlen, List.length_cons]; omega) h rfl
          exact ⟨'\\' :: c :: q, t, rfl, hq.escape c, by rwa [Cut.keep_keep] at ht⟩
      · rw [cut_string_char s hescape] at h
        split at h
        case isTrue hquote => exact ⟨[], cs, by rw [hquote]; rfl, .nil, hquote ▸ h⟩
        case isFalse hquote =>
          obtain ⟨q, t, rfl, hq, ht⟩ := ih _ (by omega) h rfl
          exact ⟨c :: q, t, rfl, hq.char hquote hescape, by rwa [Cut.keep_keep] at ht⟩

theorem exists_commented {n : Nat} {s : Cut} {cs : List Char} {fields : List (List Char)}
    (h : cut (.block (n + 1)) s cs = some fields) :
    ∃ b t, cs = b ++ ';' :: ')' :: t ∧ Commented b ∧
      cut (Mode.afterClose n) (s.keep (b ++ [';', ')'])) t = some fields := by
  induction hlen : cs.length using Nat.strong_induction_on generalizing n s cs with
  | _ len ih =>
    by_cases hopen : ['(', ';'] <+: cs
    · obtain ⟨u, rfl⟩ := hopen
      rw [List.cons_append, List.cons_append, List.nil_append, cut_block_open] at h
      rw [List.length_append, List.length_cons] at hlen
      obtain ⟨b, t, rfl, hb, ht⟩ := ih _ (by omega) h rfl
      rw [List.length_append, List.length_cons, List.length_cons, List.length_cons] at hlen
      obtain ⟨d, u, rfl, hd, hu⟩ := ih _ (by omega) ht rfl
      refine ⟨'(' :: ';' :: b ++ ';' :: ')' :: d, u, by simp, hb.nested hd, ?_⟩
      rw [Cut.keep_keep, Cut.keep_keep] at hu
      simpa using hu
    · by_cases hclose : [';', ')'] <+: cs
      · obtain ⟨u, rfl⟩ := hclose
        rw [List.cons_append, List.cons_append, List.nil_append, cut_block_close] at h
        exact ⟨[], u, rfl, .nil, h⟩
      · cases cs with
        | nil => simp [cut] at h
        | cons c cs =>
          rw [cut_block_char _ s hopen hclose] at h
          rw [List.length_cons] at hlen
          obtain ⟨b, t, rfl, hb, ht⟩ := ih _ (by omega) h rfl
          have hfollow (x y : Char) (hp : [x, y] <+: c :: b ++ [';', ')']) :
              [x, y] <+: c :: (b ++ ';' :: ')' :: t) :=
            hp.trans ⟨t, by simp⟩
          exact ⟨c :: b, t, rfl, .char c (hopen ∘ hfollow '(' ';') (hclose ∘ hfollow ';' ')') hb,
            by rwa [Cut.keep_keep] at ht⟩

/-! ## Gaps and what closes a field -/

/-- What closes `d` parentheses, one after another. -/
inductive Closing : Nat → List Char → Prop where
  | nil : Closing 0 []
  | cons {d : Nat} {g t : List Char} (hg : Inside g) (ht : Closing d t) :
    Closing (d + 1) (g ++ ')' :: t)

/-- Something may be put in front of what closes, if it may be put in front of what stands inside
the innermost parentheses. -/
theorem Closing.prepend {d : Nat} {a t : List Char} (h : Closing (d + 1) t)
    (ha : ∀ g u, t = g ++ ')' :: u → Inside g → Inside (a ++ g)) : Closing (d + 1) (a ++ t) := by
  cases h with
  | @cons _ g t hg ht =>
    rw [← List.append_assoc]
    exact .cons (ha g t rfl hg) ht

/-- Parentheses closed together with what closes those around them. -/
theorem Closing.group {d : Nat} {t : List Char} (h : Closing (d + 2) t)
    (hopen : ¬ ['(', ';'] <+: '(' :: t) : Closing (d + 1) ('(' :: t) := by
  obtain _ | ⟨hg, _ | ⟨hu, ht⟩⟩ := h
  rename_i g u t
  have hfirst : ¬ ['(', ';'] <+: '(' :: g := fun hp => hopen (hp.trans ⟨_, rfl⟩)
  have hclosing := Closing.cons (hg.group hfirst hu) ht
  simpa using hclosing

theorem Closing.eq_of_one {t : List Char} (h : Closing 1 t) : ∃ g, Inside g ∧ t = g ++ [')'] := by
  obtain _ | ⟨hg, _ | _⟩ := h
  exact ⟨_, hg, rfl⟩

/-- Something may be put in front of a source, if it may be put in front of its first gap. -/
theorem Source.prepend {a t : List Char} {fields : List (List Char)} (h : Source fields t)
    (ha : ∀ g, Gap g → Gap (a ++ g)) : Source fields (a ++ t) := by
  cases h with
  | gap hg => exact .gap (ha _ hg)
  | comment hg hl =>
    rw [← List.append_assoc]
    exact .comment (ha _ hg) hl
  | field hg hf ht =>
    rw [← List.append_assoc, ← List.append_assoc]
    exact .field (ha _ hg) hf ht

theorem prefix_of_prefix_append {c d : Char} {g t : List Char} (h : [c] <+: g ++ d :: t)
    (hd : d ≠ c) : [c] <+: g := by
  cases g with
  | nil => exact absurd (List.cons_prefix_cons.mp h).1.symm hd
  | cons e g => simpa using h

/-- A line comment may be put in front of a source that is empty or begins with a new line. -/
theorem Source.line {l t : List Char} {fields : List (List Char)} (hl : '\n' ∉ l)
    (hend : t = [] ∨ ['\n'] <+: t) (h : Source fields t) :
    Source fields (';' :: ';' :: l ++ t) := by
  rcases hend with rfl | hend
  · obtain rfl : [] = fields := Option.some.inj h.splitChars
    rw [List.append_nil]
    exact .comment .nil hl
  · cases h with
    | gap hg => exact .gap (hg.line hl hend)
    | comment hg hl' =>
      rw [← List.append_assoc]
      exact .comment (hg.line hl (prefix_of_prefix_append hend (by decide))) hl'
    | @field g f t fields hg hf ht =>
      obtain ⟨hinside, hopen⟩ := hf
      rw [List.append_assoc] at hend
      have hgap : ['\n'] <+: g := prefix_of_prefix_append hend (by decide)
      rw [← List.append_assoc, ← List.append_assoc]
      exact .field (hg.line hl hgap) (.mk hinside hopen) ht

theorem Source.block {b t : List Char} {fields : List (List Char)} (hb : Commented b)
    (h : Source fields t) : Source fields ('(' :: ';' :: b ++ ';' :: ')' :: t) := by
  have hlonger := h.prepend (a := '(' :: ';' :: b ++ [';', ')']) fun g hg => by
    simpa using hg.block hb
  simpa using hlonger

/-! ## What is cut is a source -/

/-- What a text is that a pass goes on with: it closes what is open, which ends the field being
read, and goes on as a source. -/
def Cut.Reads (s : Cut) (cs : List Char) (fields : List (List Char)) : Prop :=
  ∃ t rest more, cs = t ++ rest ∧ Closing s.depth t ∧ Source more rest ∧
    fields = s.done.reverse ++ if s.depth = 0 then more else (s.field.reverse ++ t) :: more

/-- Whether no field is begun before a parenthesis is opened. -/
def Cut.IsClean (s : Cut) : Prop := s.depth = 0 → s.field = []

namespace Cut

variable {s : Cut} {t : List Char} {fields : List (List Char)}

theorem IsClean.keep (hs : s.IsClean) (cs : List Char) : (s.keep cs).IsClean := by
  by_cases hd : s.depth = 0
  · rwa [keep_of_depth_eq_zero hd]
  · exact fun h => absurd (h ▸ (keep_depth s cs).symm) hd

theorem reads_iff_of_depth_eq_zero (hd : s.depth = 0) :
    s.Reads t fields ↔ ∃ more, Source more t ∧ fields = s.done.reverse ++ more := by
  unfold Reads
  rw [hd]
  constructor
  · rintro ⟨t, rest, more, rfl, ⟨⟩, hsource, rfl⟩
    exact ⟨more, hsource, rfl⟩
  · rintro ⟨more, hsource, rfl⟩
    exact ⟨[], t, more, rfl, .nil, hsource, rfl⟩

/-- Something may be put in front of what a pass reads, if it may stand in a gap and inside of
parentheses. -/
theorem Reads.prepend {a : List Char} (h : (s.keep a).Reads t fields)
    (hgap : s.depth = 0 → ∀ more, Source more t → Source more (a ++ t))
    (hinside : s.depth ≠ 0 → ∀ g u, t = g ++ ')' :: u → Inside g → Inside (a ++ g)) :
    s.Reads (a ++ t) fields := by
  by_cases hd : s.depth = 0
  · rw [keep_of_depth_eq_zero hd, reads_iff_of_depth_eq_zero hd] at h
    obtain ⟨more, hsource, rfl⟩ := h
    exact (reads_iff_of_depth_eq_zero hd).mpr ⟨more, hgap hd more hsource, rfl⟩
  · obtain ⟨d, hd'⟩ := Nat.exists_eq_succ_of_ne_zero hd
    obtain ⟨t, rest, more, rfl, hclosing, hsource, rfl⟩ := h
    rw [keep_depth, hd'] at hclosing
    have hlonger : Closing (d + 1) (a ++ t) :=
      hclosing.prepend fun g u ht => hinside hd g (u ++ rest) (by simp [ht])
    refine ⟨a ++ t, rest, more, (List.append_assoc a t rest).symm, hd' ▸ hlonger, hsource, ?_⟩
    rw [keep_depth, if_neg hd, if_neg hd, keep_of_depth_ne_zero hd]
    simp

end Cut

theorem Cut.Reads.line {s : Cut} {l t : List Char} {fields : List (List Char)} (hl : '\n' ∉ l)
    (hend : t = [] ∨ ['\n'] <+: t) (h : (s.keep (';' :: ';' :: l)).Reads t fields) :
    s.Reads (';' :: ';' :: l ++ t) fields := by
  refine h.prepend (fun _ more hsource => hsource.line hl hend) fun _ g u ht hg => ?_
  have hnewline : ['\n'] <+: g := by
    rw [ht] at hend
    exact prefix_of_prefix_append (hend.resolve_left (by simp)) (by decide)
  exact hg.line hl hnewline

theorem Cut.Reads.block {s : Cut} {b t : List Char} {fields : List (List Char)}
    (hb : Commented b) (h : (s.keep ('(' :: ';' :: b ++ [';', ')'])).Reads t fields) :
    s.Reads ('(' :: ';' :: b ++ ';' :: ')' :: t) fields := by
  have hlonger := h.prepend (fun _ more hsource => by simpa using hsource.block hb)
    fun _ g u _ hg => by simpa using hg.block hb
  simpa using hlonger

theorem Cut.Reads.string {s : Cut} (hs : s.depth ≠ 0) {q t : List Char}
    {fields : List (List Char)} (hq : Quoted q) (h : (s.keep ('"' :: q ++ ['"'])).Reads t fields) :
    s.Reads ('"' :: q ++ '"' :: t) fields := by
  have hlonger := h.prepend (fun hd => absurd hd hs) fun _ g u _ hg => by
    simpa using hg.string hq
  simpa using hlonger

/-- A character that stands for itself, between fields a blank. -/
theorem Cut.Reads.char {s : Cut} {c : Char} {t : List Char} {fields : List (List Char)}
    (hc : c ∉ ['(', ')', '"']) (hline : ¬ [';', ';'] <+: c :: t)
    (hblank : s.depth = 0 → isAsciiBlank c = true) (h : (s.keep [c]).Reads t fields) :
    s.Reads (c :: t) fields := by
  refine h.prepend (fun hd more hsource => hsource.prepend fun g hg => hg.blank (hblank hd))
    fun _ g u ht hg => hg.char hc fun hp => hline (hp.trans ?_)
  exact ht ▸ ⟨')' :: u, rfl⟩

theorem Cut.Reads.openParen {s : Cut} (hs : s.IsClean) {t : List Char}
    {fields : List (List Char)} (hopen : ¬ ['(', ';'] <+: '(' :: t)
    (h : s.openParen.Reads t fields) : s.Reads ('(' :: t) fields := by
  obtain ⟨t, rest, more, rfl, hclosing, hsource, rfl⟩ := h
  have hfirst : ¬ ['(', ';'] <+: '(' :: t := fun hp => hopen (hp.trans ⟨_, rfl⟩)
  by_cases hd : s.depth = 0
  · obtain ⟨depth, field, done⟩ := s
    obtain rfl : depth = 0 := hd
    obtain rfl : field = [] := hs rfl
    obtain ⟨g, hg, rfl⟩ := hclosing.eq_of_one
    have hfield : IsField ('(' :: g ++ [')']) :=
      .mk hg fun hp => hfirst (hp.trans ⟨[')'], rfl⟩)
    refine (reads_iff_of_depth_eq_zero rfl).mpr
      ⟨('(' :: g ++ [')']) :: more, ?_, by simp [Cut.openParen]⟩
    exact .field .nil hfield hsource
  · obtain ⟨d, hd'⟩ := Nat.exists_eq_succ_of_ne_zero hd
    have hclosing' : Closing (d + 2) t := by simpa [Cut.openParen, hd'] using hclosing
    refine ⟨'(' :: t, rest, more, rfl, hd' ▸ hclosing'.group hfirst, hsource, ?_⟩
    simp [Cut.openParen, hd]

theorem Cut.Reads.closeParen {s s' : Cut} {t : List Char} {fields : List (List Char)}
    (hs : s.closeParen = some s') (h : s'.Reads t fields) : s.Reads (')' :: t) fields := by
  obtain ⟨t, rest, more, rfl, hclosing, hsource, rfl⟩ := h
  obtain ⟨depth, field, done⟩ := s
  match depth with
  | 0 => simp [Cut.closeParen] at hs
  | 1 =>
    obtain rfl : _ = s' := Option.some.inj hs
    obtain rfl : t = [] := by cases hclosing; rfl
    exact ⟨[')'], rest, more, rfl, .cons .nil .nil, hsource, by simp⟩
  | d + 2 =>
    obtain rfl : _ = s' := Option.some.inj hs
    exact ⟨')' :: t, rest, more, rfl, .cons .nil hclosing, hsource, by simp⟩

theorem Cut.IsClean.closeParen {s s' : Cut} (hs : s.closeParen = some s') : s'.IsClean := by
  obtain ⟨_ | _ | d, field, done⟩ := s
  · contradiction
  · obtain rfl := Option.some.inj hs
    exact fun _ => rfl
  · obtain rfl := Option.some.inj hs
    exact fun hzero => absurd hzero (Nat.succ_ne_zero d)

/-- What a character is that begins no comment, when the pass comes to an end behind it. -/
theorem cut_plain_cases {s : Cut} {c : Char} {cs : List Char} {fields : List (List Char)}
    (hline : ¬ [';', ';'] <+: c :: cs) (hblock : ¬ ['(', ';'] <+: c :: cs)
    (h : cut .plain s (c :: cs) = some fields) :
    (c = '"' ∧ s.depth ≠ 0 ∧ cut .string (s.keep ['"']) cs = some fields) ∨
      (c = '(' ∧ cut .plain s.openParen cs = some fields) ∨
      (c = ')' ∧ ∃ s', s.closeParen = some s' ∧ cut .plain s' cs = some fields) ∨
      (c ∉ ['(', ')', '"'] ∧ (s.depth = 0 → isAsciiBlank c = true) ∧
        cut .plain (s.keep [c]) cs = some fields) := by
  rw [cut_plain_char s hline hblock] at h
  by_cases hopen : c = '('
  · subst hopen
    exact .inr (.inl ⟨rfl, by simpa using h⟩)
  by_cases hclose : c = ')'
  · subst hclose
    cases hs : s.closeParen with
    | none => simp [hs] at h
    | some s' => exact .inr (.inr (.inl ⟨rfl, s', rfl, by simpa [hs] using h⟩))
  by_cases hblank : isAsciiBlank c = true
  · have hquote : c ≠ '"' := ne_of_isAsciiBlank hblank rfl
    refine .inr (.inr (.inr ⟨by simp [hopen, hclose, hquote], fun _ => hblank, ?_⟩))
    simpa [hopen, hclose, hquote, hblank] using h
  by_cases hd : s.depth = 0
  · simp [hopen, hclose, hblank, hd] at h
  by_cases hquote : c = '"'
  · subst hquote
    exact .inl ⟨rfl, hd, by simpa [hd] using h⟩
  · refine .inr (.inr (.inr ⟨by simp [hopen, hclose, hquote], (absurd · hd), ?_⟩))
    simpa [hopen, hclose, hquote, hblank, hd] using h

theorem reads_of_cut {s : Cut} (hs : s.IsClean) {cs : List Char} {fields : List (List Char)}
    (h : cut .plain s cs = some fields) : s.Reads cs fields := by
  induction hlen : cs.length using Nat.strong_induction_on generalizing s cs with
  | _ len ih =>
    by_cases hline : [';', ';'] <+: cs
    · obtain ⟨cs, rfl⟩ := hline
      rw [List.cons_append, List.cons_append, List.nil_append, cut_plain_line] at h
      obtain ⟨l, t, rfl, hl, hend, hcut⟩ := exists_line (s.keep [';', ';']) cs
      rw [hcut, Cut.keep_keep] at h
      simp only [List.length_append, List.length_cons] at hlen
      have hrest : (s.keep (';' :: ';' :: l)).Reads t fields :=
        ih _ (by omega) (hs.keep _) h rfl
      have hlonger := hrest.line hl hend
      rwa [List.cons_append, List.cons_append] at hlonger
    · by_cases hblock : ['(', ';'] <+: cs
      · obtain ⟨cs, rfl⟩ := hblock
        rw [List.cons_append, List.cons_append, List.nil_append, cut_plain_block] at h
        obtain ⟨b, t, rfl, hb, ht⟩ := exists_commented h
        rw [Mode.afterClose, Cut.keep_keep] at ht
        simp only [List.length_append, List.length_cons] at hlen
        have hrest : (s.keep ('(' :: ';' :: b ++ [';', ')'])).Reads t fields :=
          ih _ (by omega) (hs.keep _) ht rfl
        exact hrest.block hb
      · cases cs with
        | nil =>
          rw [cut, Cut.finish] at h
          split at h
          case isTrue hd =>
            obtain rfl := Option.some.inj h
            have hd : s.depth = 0 := by simpa using hd
            exact (Cut.reads_iff_of_depth_eq_zero hd).mpr ⟨[], .gap .nil, (List.append_nil _).symm⟩
          case isFalse => contradiction
        | cons c cs =>
          rw [List.length_cons] at hlen
          rcases cut_plain_cases hline hblock h with
            ⟨rfl, hd, hcut⟩ | ⟨rfl, hcut⟩ | ⟨rfl, s', hs', hcut⟩ | ⟨hc, hblank, hcut⟩
          · obtain ⟨q, t, rfl, hq, ht⟩ := exists_quoted hcut
            rw [Cut.keep_keep] at ht
            simp only [List.length_append, List.length_cons] at hlen
            have hrest : (s.keep ('"' :: q ++ ['"'])).Reads t fields :=
              ih _ (by omega) (hs.keep _) ht rfl
            exact hrest.string hd hq
          · have hclean : s.openParen.IsClean := fun hzero => absurd hzero (Nat.succ_ne_zero _)
            exact .openParen hs hblock (ih _ (by omega) hclean hcut rfl)
          · exact .closeParen hs' (ih _ (by omega) (Cut.IsClean.closeParen hs') hcut rfl)
          · exact .char hc hline hblank (ih _ (by omega) (hs.keep _) hcut rfl)

theorem splitChars_eq_some_iff {text : List Char} {fields : List (List Char)} :
    splitChars text = some fields ↔ Source fields text := by
  refine ⟨fun h => ?_, Source.splitChars⟩
  have hreads := reads_of_cut (s := ⟨0, [], []⟩) (fun _ => rfl) h
  rw [Cut.reads_iff_of_depth_eq_zero rfl] at hreads
  obtain ⟨more, hsource, rfl⟩ := hreads
  exact hsource

end LiveTrace.Assembly
