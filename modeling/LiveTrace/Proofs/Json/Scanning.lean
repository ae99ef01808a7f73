import LiveTrace.Json.Basic
import LiveTrace.Proofs.Json.Quoting
import LiveTrace.Proofs.Number.Digits

/-
  Texts that spell tokens (`Spelled`): the tokens stand one after another, with any blanks between
  them, and a word is followed by what is no part of a word. The scanner reads such a text as
  these tokens (`Spelled.tokens?_eq`). What is written between quotes is a string up to the quote
  (`IsRaw`), and the escaped form of every text can be (`isRaw_escape`).
-/
namespace LiveTrace.Json

theorem Scanner.run_append (s : Scanner) (cs ds : List Char) :
    s.run (cs ++ ds) = (s.run cs).bind (·.run ds) := by
  induction cs generalizing s with
  | nil => rfl
  | cons c cs ih =>
    rw [List.cons_append, Scanner.run, Scanner.run]
    cases s.step c with
    | none => rfl
    | some s => exact ih s

/-! ## Strings -/

/-- Read inside quotes, the text leaves the scanner inside them. -/
def IsRaw (raw : List Char) : Prop :=
  ∀ tokens read,
    Scanner.run ⟨tokens, .string read⟩ raw = some ⟨tokens, .string (raw.reverse ++ read)⟩

theorem isRaw_nil : IsRaw [] := fun _ _ => rfl

theorem IsRaw.append {cs ds : List Char} (hcs : IsRaw cs) (hds : IsRaw ds) : IsRaw (cs ++ ds) := by
  intro tokens read
  rw [Scanner.run_append, hcs, Option.bind_some, hds, List.reverse_append, List.append_assoc]

theorem isRaw_flatMap {α : Type} {f : α → List Char} {as : List α} (h : ∀ a ∈ as, IsRaw (f a)) :
    IsRaw (as.flatMap f) := by
  induction as with
  | nil => exact isRaw_nil
  | cons a as ih =>
    rw [List.flatMap_cons]
    exact (h a List.mem_cons_self).append (ih fun b hb => h b (List.mem_cons_of_mem _ hb))

/-- A character that needs no escape. -/
theorem isRaw_singleton {c : Char} (hquote : c ≠ '"') (hbackslash : c ≠ '\\')
    (hcontrol : ¬c.toNat < 0x20) : IsRaw [c] := by
  intro tokens read
  simp [Scanner.run, Scanner.step, hquote, hbackslash, hcontrol]

theorem isRaw_short {c : Char} (h : isShortEscape c = true) : IsRaw ['\\', c] := by
  intro tokens read
  simp [Scanner.run, Scanner.step, h]

theorem isRaw_hex {a b c d : Char} {n : Nat} (h : hex4? a b c d = some n) :
    IsRaw ['\\', 'u', a, b, c, d] := by
  have hdigit {x : Char} (hx : x ∈ [a, b, c, d]) : ∃ k, Number.hexDigit? x = some k :=
    Number.exists_digit_of_foldDigits h hx
  obtain ⟨i, hi⟩ := hdigit (x := a) (by simp)
  obtain ⟨j, hj⟩ := hdigit (x := b) (by simp)
  obtain ⟨k, hk⟩ := hdigit (x := c) (by simp)
  obtain ⟨l, hl⟩ := hdigit (x := d) (by simp)
  intro tokens read
  have hu : isShortEscape 'u' = false := by decide
  simp [Scanner.run, Scanner.step, hu, hi, hj, hk, hl]

theorem isRaw_escapeChar (c : Char) : IsRaw (escapeChar c) := by
  fun_cases escapeChar c with
  | case8 h1 h2 h3 h4 h5 h6 h7 hcontrol =>
    obtain ⟨a, b, x, d, hdigits, hvalue⟩ := hexPadded_control hcontrol
    rw [hdigits]
    exact isRaw_hex hvalue
  | case9 h1 h2 h3 h4 h5 h6 h7 h8 =>
    exact isRaw_singleton (by simpa using h1) (by simpa using h2) h8
  | _ => exact isRaw_short (by decide)

theorem isRaw_escape (cs : List Char) : IsRaw (escape cs) :=
  isRaw_flatMap fun c _ => isRaw_escapeChar c

/-! ## Words -/

/-- No word goes on with this text. -/
def Ended (cs : List Char) : Prop := ∀ c, cs.head? = some c → isWordChar c = false

theorem ended_nil : Ended [] := nofun

theorem ended_cons {c : Char} (h : isWordChar c = false) (cs : List Char) : Ended (c :: cs) := by
  rintro d ⟨⟩
  exact h

/-- The character of a word starts none but a word. -/
theorem scanGap_wordChar {c : Char} (hc : isWordChar c = true) (tokens : List Token) :
    scanGap tokens c = some ⟨tokens, .word [c]⟩ := by
  have hne {d : Char} (hd : isWordChar d = false) : c ≠ d := by
    rintro rfl
    exact Bool.false_ne_true (hd.symm.trans hc)
  have hgap : isGap c = false := by
    simp [isGap, hne (d := ' ') (by decide), hne (d := '\n') (by decide),
      hne (d := '\t') (by decide), hne (d := '\r') (by decide)]
  simp [scanGap, hgap, hc, hne (d := '"') (by decide), hne (d := '\x7b') (by decide),
    hne (d := '\x7d') (by decide), hne (d := '[') (by decide), hne (d := ']') (by decide),
    hne (d := ':') (by decide), hne (d := ',') (by decide)]

theorem run_wordChars {word : List Char} (hword : ∀ c ∈ word, isWordChar c = true)
    (tokens : List Token) (read : List Char) :
    Scanner.run ⟨tokens, .word read⟩ word = some ⟨tokens, .word (word.reverse ++ read)⟩ := by
  induction word generalizing read with
  | nil => rfl
  | cons c cs ih =>
    have hstep : Scanner.step ⟨tokens, .word read⟩ c = some ⟨tokens, .word (c :: read)⟩ := by
      simp [Scanner.step, hword c List.mem_cons_self]
    rw [Scanner.run, hstep]
    dsimp only
    rw [ih fun d hd => hword d (List.mem_cons_of_mem _ hd), List.reverse_cons, List.append_assoc]
    rfl

/-- A word is a token as soon as it has ended. -/
theorem run_word {word cs : List Char} {t : Token} (ht : Token.ofWord? word = some t)
    (hword : ∀ c ∈ word, isWordChar c = true) (hne : word ≠ []) (hend : Ended cs)
    (tokens : List Token) :
    (Scanner.run ⟨tokens, .gap⟩ (word ++ cs)).bind Scanner.finish =
      (Scanner.run ⟨t :: tokens, .gap⟩ cs).bind Scanner.finish := by
  obtain ⟨c, rest, rfl⟩ := List.exists_cons_of_ne_nil hne
  have hfirst : Scanner.step ⟨tokens, .gap⟩ c = some ⟨tokens, .word [c]⟩ :=
    scanGap_wordChar (hword c List.mem_cons_self) tokens
  have hrest := run_wordChars (fun d hd => hword d (List.mem_cons_of_mem _ hd)) tokens [c]
  have hback : (rest.reverse ++ [c]).reverse = c :: rest := by simp
  rw [List.cons_append, Scanner.run, hfirst]
  dsimp only
  rw [Scanner.run_append, hrest, Option.bind_some]
  cases cs with
  | nil => simp [Scanner.run, Scanner.finish, hback, ht]
  | cons d ds =>
    have hstep : Scanner.step ⟨tokens, .word (rest.reverse ++ [c])⟩ d =
        Scanner.step ⟨t :: tokens, .gap⟩ d := by
      simp only [Scanner.step, hend d rfl, hback, ht, Bool.false_eq_true, if_false]
    rw [Scanner.run, Scanner.run, hstep]

/-! ## Texts of tokens -/

/-- Whether a token is a word. -/
def Token.isWord : Token → Bool
  | .null | .true | .false | .number _ => Bool.true
  | _ => Bool.false

/-- Tokens that can be written: what is in a string is its text, and a number is one word. -/
def Token.Writable : Token → Prop
  | .number word => isNumber word ∧ ∀ c ∈ word, isWordChar c
  | .string raw => IsRaw raw
  | _ => True

theorem ofWord?_of_isNumber {word : List Char} (h : isNumber word = true) :
    Token.ofWord? word = some (.number word) := by
  have hne (other : List Char) (hother : isNumber other = false) : (word == other) = false := by
    refine beq_false_of_ne ?_
    rintro rfl
    exact Bool.false_ne_true (hother.symm.trans h)
  simp [Token.ofWord?, hne ['n', 'u', 'l', 'l'] (by decide),
    hne ['t', 'r', 'u', 'e'] (by decide), hne ['f', 'a', 'l', 's', 'e'] (by decide), h]

/-- A word is read as its token. -/
theorem run_isWord {t : Token} (hw : t.isWord = true) (ht : t.Writable) {cs : List Char}
    (hend : Ended cs) (tokens : List Token) :
    (Scanner.run ⟨tokens, .gap⟩ (t.text ++ cs)).bind Scanner.finish =
      (Scanner.run ⟨t :: tokens, .gap⟩ cs).bind Scanner.finish := by
  cases t with
  | null | true | false =>
    exact run_word (by decide) (List.all_eq_true.mp rfl) (List.cons_ne_nil _ _) hend tokens
  | number word =>
    obtain ⟨hnumber, hchars⟩ := ht
    have hne : word ≠ [] := by
      rintro rfl
      exact absurd hnumber (by decide)
    exact run_word (ofWord?_of_isNumber hnumber) hchars hne hend tokens
  | _ => exact nomatch hw

/-- Any other token is read as soon as it is there. -/
theorem run_not_isWord {t : Token} (hw : t.isWord = false) (ht : t.Writable) (cs : List Char)
    (tokens : List Token) :
    Scanner.run ⟨tokens, .gap⟩ (t.text ++ cs) = Scanner.run ⟨t :: tokens, .gap⟩ cs := by
  cases t with
  | string raw =>
    have hraw : IsRaw raw := ht
    have hopen : Scanner.run ⟨tokens, .gap⟩ ['"'] = some ⟨tokens, .string []⟩ := rfl
    have hclose : Scanner.run ⟨tokens, .string (raw.reverse ++ [])⟩ ['"'] =
        some ⟨.string raw :: tokens, .gap⟩ := by
      simp [Scanner.run, Scanner.step]
    have hsplit : Token.text (.string raw) ++ cs = ['"'] ++ (raw ++ (['"'] ++ cs)) := by
      simp [Token.text]
    rw [hsplit, Scanner.run_append, hopen, Option.bind_some, Scanner.run_append, hraw,
      Option.bind_some, Scanner.run_append, hclose, Option.bind_some]
  | null | true | false | number => exact nomatch hw
  | _ => rfl

/-- Tokens one after another in a text, with any blanks between them. -/
inductive Spelled : List Token → List Char → Prop
  | nil : Spelled [] []
  | gap {c : Char} {ts : List Token} {cs : List Char} (hc : isGap c = true) (h : Spelled ts cs) :
    Spelled ts (c :: cs)
  | token {t : Token} {ts : List Token} {cs : List Char} (ht : t.Writable)
    (hend : t.isWord = true → Ended cs) (h : Spelled ts cs) : Spelled (t :: ts) (t.text ++ cs)

theorem Spelled.run {ts : List Token} {cs : List Char} (h : Spelled ts cs) (tokens : List Token) :
    (Scanner.run ⟨tokens, .gap⟩ cs).bind Scanner.finish = some (tokens.reverse ++ ts) := by
  induction h generalizing tokens with
  | nil => simp [Scanner.run, Scanner.finish]
  | @gap c ts cs hc _ ih =>
    have hstep : Scanner.step ⟨tokens, .gap⟩ c = some ⟨tokens, .gap⟩ := by
      simp only [Scanner.step, scanGap, hc, if_true]
    rw [Scanner.run, hstep]
    exact ih tokens
  | @token t ts cs ht hend _ ih =>
    have hnext : (t :: tokens).reverse ++ ts = tokens.reverse ++ t :: ts := by simp
    rw [← hnext, ← ih (t :: tokens)]
    cases hw : t.isWord with
    | true => exact run_isWord hw ht (hend hw) tokens
    | false => rw [run_not_isWord hw ht cs tokens]

/-- A text that spells tokens is read as them. -/
theorem Spelled.tokens?_eq {ts : List Token} {cs : List Char} (h : Spelled ts cs) :
    tokens? cs = some ts := h.run []

end LiveTrace.Json
