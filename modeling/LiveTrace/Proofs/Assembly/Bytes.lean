import LiveTrace.Proofs.Assembly.Recognition
import LiveTrace.Proofs.Text.Utf8

/-
  A pass over the bytes of a text. It keeps an index, counts what is open, and cuts fields out by
  the indices of their ends; a count that would go below zero, or a field that would begin or end
  inside a character, is a fault. There are none, and the fields are those of the pass over the
  characters (`passBytes_encode`).
-/
namespace LiveTrace.Assembly

open Utf8 (code encode isBoundary)
open Text (isAsciiBlank)

/-- What a pass over bytes must not come to. -/
inductive PassFault where
  /-- Something is closed that was not open. -/
  | underflow
  /-- A field begins or ends inside a character. -/
  | boundary
  deriving DecidableEq, Repr

/-- The bytes from one index up to another one. -/
def slice (bytes : List UInt8) (start stop : Nat) : Except PassFault (List UInt8) :=
  if start ≤ stop && isBoundary bytes start && isBoundary bytes stop then
    .ok ((bytes.take stop).drop start)
  else .error .boundary

/-- A byte that is a blank between two fields. -/
def isBlankByte (b : UInt8) : Bool := [' ', '\t', '\n', '\x0c', '\r'].any (code · = b)

/-- Goes on to the end of a line, from the index `i` where the bytes `rest` begin. -/
def passLine (i : Nat) : List UInt8 → Nat × List UInt8
  | [] => (i, [])
  | b :: rest => if b = code '\n' then (i, b :: rest) else passLine (i + 1) rest

/-- Goes on behind the end of a string. -/
def passString (i : Nat) : List UInt8 → Option (Nat × List UInt8)
  | [] => none
  | b :: rest =>
    if b = code '\\' then
      match rest with
      | [] => none
      | _ :: rest => passString (i + 2) rest
    else if b = code '"' then some (i + 1, rest)
    else passString (i + 1) rest

/-- Goes on behind the end of the block comments of which `opened` are open. -/
def passBlock (opened i : Nat) : List UInt8 → Except PassFault (Option (Nat × List UInt8))
  | [] => .ok none
  | [_] => .ok none
  | b :: c :: rest =>
    if b = code '(' ∧ c = code ';' then passBlock (opened + 1) (i + 2) rest
    else if b = code ';' ∧ c = code ')' then
      match opened with
      | 0 => .error .underflow
      | 1 => .ok (some (i + 2, rest))
      | n + 2 => passBlock (n + 1) (i + 2) rest
    else passBlock opened (i + 1) (c :: rest)

theorem length_passLine (i : Nat) (bs : List UInt8) : (passLine i bs).2.length ≤ bs.length := by
  induction bs generalizing i with
  | nil => exact Nat.le.refl
  | cons b bs ih =>
    rw [passLine]
    split
    · exact Nat.le.refl
    · exact Nat.le_succ_of_le (ih _)

theorem length_passString {i j : Nat} {bs rest : List UInt8}
    (h : passString i bs = some (j, rest)) : rest.length < bs.length := by
  fun_induction passString i bs with
  | case1 | case2 => contradiction
  | case3 _ _ _ ih => exact Nat.lt_succ_of_lt (Nat.lt_succ_of_lt (ih h))
  | case4 =>
    obtain ⟨-, rfl⟩ := Prod.mk.inj (Option.some.inj h)
    exact Nat.lt_succ_self _
  | case5 _ _ _ _ _ ih => exact Nat.lt_succ_of_lt (ih h)

theorem length_passBlock {opened i j : Nat} {bs rest : List UInt8}
    (h : passBlock opened i bs = .ok (some (j, rest))) : rest.length < bs.length := by
  fun_induction passBlock opened i bs with
  | case1 | case2 | case4 => exact nomatch h
  | case3 _ _ _ _ _ _ ih | case6 _ _ _ _ _ _ _ ih =>
    exact Nat.lt_succ_of_lt (Nat.lt_succ_of_lt (ih h))
  | case5 =>
    obtain ⟨-, rfl⟩ := Prod.mk.inj (Option.some.inj (Except.ok.inj h))
    exact Nat.lt_succ_of_lt (Nat.lt_succ_self _)
  | case7 _ _ _ _ _ _ _ ih => exact Nat.lt_succ_of_lt (ih h)

/-- The fields from the index `i` on, where the bytes `rest` begin. Of the parentheses `depth` are
open, the outermost one at the index `start`. -/
def passFrom (bytes : List UInt8) (i depth start : Nat) (done : List (List UInt8)) :
    List UInt8 → Except PassFault (Option (List (List UInt8)))
  | [] => .ok (if depth = 0 then some done.reverse else none)
  | b :: rest =>
    if [code ';', code ';'] <+: b :: rest then
      passFrom bytes (passLine (i + 1) rest).1 depth start done (passLine (i + 1) rest).2
    else if [code '(', code ';'] <+: b :: rest then
      match _h : passBlock 0 i (b :: rest) with
      | .error e => .error e
      | .ok none => .ok none
      | .ok (some (j, rest)) => passFrom bytes j depth start done rest
    else if b = code '"' ∧ 0 < depth then
      match _h : passString (i + 1) rest with
      | none => .ok none
      | some (j, rest) => passFrom bytes j depth start done rest
    else if b = code '(' then
      passFrom bytes (i + 1) (depth + 1) (if depth = 0 then i else start) done rest
    else if b = code ')' then
      match depth with
      | 0 => .ok none
      | 1 =>
        match slice bytes start (i + 1) with
        | .error e => .error e
        | .ok field => passFrom bytes (i + 1) 0 start (field :: done) rest
      | d + 2 => passFrom bytes (i + 1) (d + 1) start done rest
    else if isBlankByte b then
      passFrom bytes (i + 1) depth start done rest
    else if depth = 0 then .ok none
    else passFrom bytes (i + 1) depth start done rest
termination_by bs => bs.length
decreasing_by
  · exact Nat.lt_succ_of_le (length_passLine _ _)
  · exact length_passBlock _h
  · exact Nat.lt_succ_of_lt (length_passString _h)
  all_goals exact Nat.lt_succ_self _

/-- The fields of a text by its bytes. -/
def passBytes (bytes : List UInt8) : Except PassFault (Option (List (List UInt8))) :=
  passFrom bytes 0 0 0 [] bytes

/-! ## Comments and strings in bytes -/

/-- A pass that goes on from each of some bytes to the next one passes over all of them. -/
theorem pass_over {α : Type} (pass : Nat → List UInt8 → α) {bs : List UInt8}
    (hpass : ∀ b ∈ bs, ∀ i rest, pass i (b :: rest) = pass (i + 1) rest) (i : Nat)
    (rest : List UInt8) : pass i (bs ++ rest) = pass (i + bs.length) rest := by
  induction bs generalizing i with
  | nil => rfl
  | cons b bs ih =>
    rw [List.forall_mem_cons] at hpass
    rw [List.cons_append, hpass.1, ih hpass.2, List.length_cons, Nat.add_assoc, Nat.add_comm 1]

theorem pass_char {α : Type} (pass : Nat → List UInt8 → α) {c : Char}
    (hpass : ∀ b ∈ String.utf8EncodeChar c, ∀ i rest, pass i (b :: rest) = pass (i + 1) rest)
    (i : Nat) (cs : List Char) :
    pass i (encode (c :: cs)) = pass (i + (encode [c]).length) (encode cs) := by
  rw [Utf8.encode_cons, Utf8.encode_singleton]
  exact pass_over pass hpass i _

theorem passString_of_ne {b : UInt8} (hescape : b ≠ code '\\') (hquote : b ≠ code '"') (i : Nat)
    (rest : List UInt8) : passString i (b :: rest) = passString (i + 1) rest := by
  rw [passString.eq_def]
  exact (if_neg hescape).trans (if_neg hquote)

theorem passString_quote (i : Nat) (rest : List UInt8) :
    passString i (code '"' :: rest) = some (i + 1, rest) := by
  rw [passString.eq_def]
  rfl

theorem passBlock_of_not_prefix {b : UInt8} {rest : List UInt8}
    (hopen : ¬ [code '(', code ';'] <+: b :: rest) (hclose : ¬ [code ';', code ')'] <+: b :: rest)
    (n i : Nat) : passBlock n i (b :: rest) = passBlock n (i + 1) rest := by
  cases rest with
  | nil => rfl
  | cons c rest =>
    have hopen' : ¬ (b = code '(' ∧ c = code ';') := fun ⟨hb, hc⟩ => hopen (by simp [hb, hc])
    have hclose' : ¬ (b = code ';' ∧ c = code ')') := fun ⟨hb, hc⟩ => hclose (by simp [hb, hc])
    rw [passBlock.eq_def]
    exact (if_neg hopen').trans (if_neg hclose')

theorem passBlock_open (n i : Nat) (rest : List UInt8) :
    passBlock n i (code '(' :: code ';' :: rest) = passBlock (n + 1) (i + 2) rest := by
  rw [passBlock.eq_def]
  exact if_pos ⟨rfl, rfl⟩

theorem passBlock_close (n i : Nat) (rest : List UInt8) :
    passBlock (n + 1) i (code ';' :: code ')' :: rest) =
      if n = 0 then .ok (some (i + 2, rest)) else passBlock n (i + 2) rest := by
  rw [passBlock.eq_def]
  cases n <;> rfl

/-- What a pass over bytes comes to behind a comment or a string that the pass over the characters
is in: the same place, or no end of it. -/
inductive Skips (mode : Mode) (i : Nat) : List Char → Option (Nat × List UInt8) → Prop where
  | done {a t : List Char} (h : ∀ s, cut mode s (a ++ t) = cut .plain (s.keep a) t) :
    Skips mode i (a ++ t) (some (i + (encode a).length, encode t))
  | never {cs : List Char} (h : ∀ s, cut mode s cs = none) : Skips mode i cs none

theorem Skips.step {mode mode' : Mode} {i : Nat} {a t : List Char}
    {r : Option (Nat × List UInt8)} (h : Skips mode' (i + (encode a).length) t r)
    (hcut : ∀ s, cut mode s (a ++ t) = cut mode' (s.keep a) t) : Skips mode i (a ++ t) r := by
  cases h with
  | @done b t h =>
    have hlength : i + (encode a).length + (encode b).length = i + (encode (a ++ b)).length := by
      rw [Utf8.encode_append, List.length_append, Nat.add_assoc]
    rw [hlength, ← List.append_assoc]
    refine .done fun s => ?_
    rw [List.append_assoc, hcut, h, Cut.keep_keep]
  | never h => exact .never fun s => (hcut s).trans (h _)

theorem skips_line (i : Nat) (cs : List Char) :
    Skips .line i cs (some (passLine i (encode cs))) := by
  induction cs generalizing i with
  | nil => exact .done (a := []) (t := []) fun s => by simp [cut, Cut.keep_nil]
  | cons c cs ih =>
    by_cases hc : c = '\n'
    · subst hc
      rw [Utf8.encode_cons_ascii (by decide), passLine, if_pos rfl,
        ← Utf8.encode_cons_ascii (by decide)]
      exact .done (a := []) fun s => cut_line_end s (by simp) (.inr ⟨cs, rfl⟩)
    · rw [pass_char passLine fun b hb i rest => by
        rw [passLine, if_neg (Utf8.ne_code_of_mem hb hc (by decide))]]
      refine (ih _).step (a := [c]) fun s => ?_
      rw [List.singleton_append, cut, if_neg (by simpa using hc)]

theorem passString_escape (i : Nat) (c : Char) (cs : List Char) :
    passString i (encode ('\\' :: c :: cs)) =
      passString (i + (encode ['\\', c]).length) (encode cs) := by
  obtain ⟨b, bs, hb, hbs⟩ := Utf8.encodeChar_cons c
  have hescape : encode ['\\', c] = code '\\' :: b :: bs := by
    rw [Utf8.encode_cons_ascii (by decide), Utf8.encode_cons, hb, Utf8.encode_nil, List.append_nil]
  have hfront : passString i (code '\\' :: b :: (bs ++ encode cs)) =
      passString (i + 2) (bs ++ encode cs) := by
    rw [passString.eq_def]
    exact if_pos rfl
  rw [← List.singleton_append (l := cs), ← List.cons_append, Utf8.encode_append, hescape,
    List.cons_append, List.cons_append, hfront, pass_over passString fun b hb =>
      passString_of_ne (Utf8.ne_code (hbs b hb) (by decide)) (Utf8.ne_code (hbs b hb) (by decide))]
  congr 1
  simp only [List.length_cons]
  omega

theorem skips_string (i : Nat) (cs : List Char) :
    Skips .string i cs (passString i (encode cs)) := by
  induction hlen : cs.length using Nat.strong_induction_on generalizing i cs with
  | _ len ih =>
    cases cs with
    | nil => exact .never fun s => by rw [cut]
    | cons c cs =>
      rw [List.length_cons] at hlen
      by_cases hescape : c = '\\'
      · subst hescape
        cases cs with
        | nil => exact .never fun s => by rw [cut]
        | cons c cs =>
          rw [List.length_cons] at hlen
          rw [passString_escape]
          exact (ih cs.length (by omega) _ cs rfl).step (a := ['\\', c]) (cut_string_escape · c cs)
      · by_cases hquote : c = '"'
        · subst hquote
          rw [Utf8.encode_cons_ascii (by decide), passString_quote]
          exact .done (a := ['"']) fun s => cut_string_char s (by decide) cs
        · rw [pass_char passString fun b hb =>
            passString_of_ne (Utf8.ne_code_of_mem hb hescape (by decide))
              (Utf8.ne_code_of_mem hb hquote (by decide))]
          exact (ih cs.length (by omega) _ cs rfl).step (a := [c]) fun s =>
            (cut_string_char s hescape cs).trans (if_neg hquote)

/-- A character that opens or closes no block comment is passed over inside of one. -/
theorem passBlock_char {c : Char} {cs : List Char} (hopen : ¬ ['(', ';'] <+: c :: cs)
    (hclose : ¬ [';', ')'] <+: c :: cs) (n i : Nat) :
    passBlock n i (encode (c :: cs)) = passBlock n (i + (encode [c]).length) (encode cs) := by
  by_cases hc : c.toNat < 128
  · rw [Utf8.encode_cons_ascii hc, Utf8.encode_cons_ascii hc]
    have hstarts (d e : Char) (hd : d.toNat < 128) (he : e.toNat < 128) :
        [code d, code e] <+: code c :: encode cs ↔ [d, e] <+: c :: cs := by
      rw [← Utf8.encode_cons_ascii hc]
      exact Utf8.map_code_prefix_encode [d, e] (by simp [hd, he]) (c :: cs)
    exact passBlock_of_not_prefix (mt (hstarts '(' ';' (by decide) (by decide)).mp hopen)
      (mt (hstarts ';' ')' (by decide) (by decide)).mp hclose) n i
  · refine pass_char (passBlock n) (fun b hb i rest => ?_) i cs
    have hne {d : Char} (hd : d.toNat < 128) : b ≠ code d :=
      Utf8.ne_code_of_mem hb (fun h => hc (h ▸ hd)) hd
    exact passBlock_of_not_prefix
      (fun hp => hne (by decide) (List.cons_prefix_cons.mp hp).1.symm)
      (fun hp => hne (by decide) (List.cons_prefix_cons.mp hp).1.symm) n i

theorem skips_block (n i : Nat) (cs : List Char) :
    ∃ r, passBlock (n + 1) i (encode cs) = .ok r ∧ Skips (.block (n + 1)) i cs r := by
  induction hlen : cs.length using Nat.strong_induction_on generalizing n i cs with
  | _ len ih =>
    by_cases hopen : ['(', ';'] <+: cs
    · obtain ⟨cs, rfl⟩ := hopen
      rw [List.length_append, List.length_cons] at hlen
      obtain ⟨r, hr, hskips⟩ := ih cs.length (by omega) (n + 1) (i + 2) cs rfl
      refine ⟨r, ?_, hskips.step (a := ['(', ';']) (cut_block_open (n + 1) · cs)⟩
      rw [Utf8.encode_append, ← hr, ← passBlock_open]
      rfl
    · by_cases hclose : [';', ')'] <+: cs
      · obtain ⟨cs, rfl⟩ := hclose
        rw [List.length_append, List.length_cons] at hlen
        have hpass : passBlock (n + 1) i (encode ([';', ')'] ++ cs)) =
            if n = 0 then .ok (some (i + 2, encode cs)) else passBlock n (i + 2) (encode cs) := by
          rw [Utf8.encode_append, ← passBlock_close]
          rfl
        rw [hpass]
        cases n with
        | zero => exact ⟨_, rfl, .done (a := [';', ')']) (cut_block_close 0 · cs)⟩
        | succ n =>
          obtain ⟨r, hr, hskips⟩ := ih cs.length (by omega) n (i + 2) cs rfl
          exact ⟨r, hr, hskips.step (a := [';', ')']) (cut_block_close (n + 1) · cs)⟩
      · cases cs with
        | nil => exact ⟨none, rfl, .never fun s => by rw [cut]⟩
        | cons c cs =>
          rw [List.length_cons] at hlen
          obtain ⟨r, hr, hskips⟩ := ih cs.length (by omega) n (i + (encode [c]).length) cs rfl
          rw [passBlock_char hopen hclose]
          exact ⟨r, hr, hskips.step (a := [c]) (cut_block_char (n + 1) · hopen hclose)⟩

/-! ## The pass over bytes is the pass over characters -/

section

variable (bytes : List UInt8) (i depth start : Nat) (done : List (List UInt8)) (rest : List UInt8)

theorem passFrom_line :
    passFrom bytes i depth start done (code ';' :: code ';' :: rest) =
      passFrom bytes (passLine (i + 2) rest).1 depth start done (passLine (i + 2) rest).2 := by
  have hfirst : passLine (i + 1) (code ';' :: rest) = passLine (i + 2) rest := by
    rw [passLine, if_neg (by decide)]
  rw [passFrom.eq_def]
  simp [hfirst]

theorem passFrom_block {r : Option (Nat × List UInt8)} (h : passBlock 1 (i + 2) rest = .ok r) :
    passFrom bytes i depth start done (code '(' :: code ';' :: rest) =
      r.elim (.ok none) fun p => passFrom bytes p.1 depth start done p.2 := by
  have hne : code ';' ≠ code '(' := by decide
  have hblock : passBlock 0 i (code '(' :: code ';' :: rest) = .ok r := by rw [passBlock_open, h]
  rw [passFrom.eq_def]
  simp only [List.cons_prefix_cons, hne, List.nil_prefix, false_and, true_and, if_true, if_false]
  split
  · next heq => exact nomatch hblock.symm.trans heq
  · next heq =>
    obtain rfl := Except.ok.inj (hblock.symm.trans heq)
    rfl
  · next heq =>
    obtain rfl := Except.ok.inj (hblock.symm.trans heq)
    rfl

theorem passFrom_string (hd : depth ≠ 0) :
    passFrom bytes i depth start done (code '"' :: rest) =
      (passString (i + 1) rest).elim (.ok none) fun p =>
        passFrom bytes p.1 depth start done p.2 := by
  have hline : code ';' ≠ code '"' := by decide
  have hopen : code '(' ≠ code '"' := by decide
  rw [passFrom.eq_def]
  simp only [List.cons_prefix_cons, hline, hopen, Nat.pos_of_ne_zero hd, false_and, true_and,
    if_true, if_false]
  split
  · next heq => rw [heq, Option.elim]
  · next heq => rw [heq, Option.elim]

theorem passFrom_open (h : ¬ [code '(', code ';'] <+: code '(' :: rest) :
    passFrom bytes i depth start done (code '(' :: rest) =
      passFrom bytes (i + 1) (depth + 1) (if depth = 0 then i else start) done rest := by
  have hline : code ';' ≠ code '(' := by decide
  have hquote : code '(' ≠ code '"' := by decide
  rw [passFrom.eq_def]
  simp [hline, hquote, h]

theorem passFrom_close_zero : passFrom bytes i 0 start done (code ')' :: rest) = .ok none := by
  have hline : code ';' ≠ code ')' := by decide
  have hopen : code '(' ≠ code ')' := by decide
  rw [passFrom.eq_def]
  simp [hline, hopen, hopen.symm]

theorem passFrom_close_one {field : List UInt8} (h : slice bytes start (i + 1) = .ok field) :
    passFrom bytes i 1 start done (code ')' :: rest) =
      passFrom bytes (i + 1) 0 start (field :: done) rest := by
  have hline : code ';' ≠ code ')' := by decide
  have hopen : code '(' ≠ code ')' := by decide
  have hquote : code ')' ≠ code '"' := by decide
  rw [passFrom.eq_def]
  simp [hline, hopen, hopen.symm, hquote, h]

theorem passFrom_close_succ (d : Nat) :
    passFrom bytes i (d + 2) start done (code ')' :: rest) =
      passFrom bytes (i + 1) (d + 1) start done rest := by
  have hline : code ';' ≠ code ')' := by decide
  have hopen : code '(' ≠ code ')' := by decide
  have hquote : code ')' ≠ code '"' := by decide
  rw [passFrom.eq_def]
  simp [hline, hopen, hopen.symm, hquote]

/-- A byte that begins nothing. -/
theorem passFrom_other {b : UInt8} (hline : ¬ [code ';', code ';'] <+: b :: rest)
    (hopen : b ≠ code '(') (hclose : b ≠ code ')') (hquote : b = code '"' → depth = 0) :
    passFrom bytes i depth start done (b :: rest) =
      if depth = 0 ∧ isBlankByte b = false then .ok none
      else passFrom bytes (i + 1) depth start done rest := by
  have hstring : ¬ (b = code '"' ∧ 0 < depth) := fun ⟨h, hd⟩ => absurd (hquote h) hd.ne'
  rw [passFrom.eq_def]
  simp only [hline, hopen.symm, hopen, hclose, hstring, List.cons_prefix_cons, false_and, if_false]
  by_cases hd : depth = 0 <;> cases hb : isBlankByte b <;> simp [hd]

end

theorem isBlankByte_of_mem {b : UInt8} {c : Char} (hb : b ∈ String.utf8EncodeChar c) :
    isBlankByte b = isAsciiBlank c := by
  have hcode {d : Char} (hd : d.toNat < 128) : decide (code d = b) = (c == d) := by
    by_cases hc : c = d
    · subst hc
      rw [← Utf8.encode_singleton, Utf8.encode_cons_ascii hd, Utf8.encode_nil,
        List.mem_singleton] at hb
      simp [hb]
    · simp [hc, (Utf8.ne_code_of_mem hb hc hd).symm]
  simp [isBlankByte, isAsciiBlank, hcode, Bool.or_assoc]

/-- A character that begins nothing, in bytes. -/
theorem passFrom_char (bytes : List UInt8) (i depth start : Nat) (done : List (List UInt8))
    {c : Char} {cs : List Char} (hline : ¬ [';', ';'] <+: c :: cs) (hopen : c ≠ '(')
    (hclose : c ≠ ')') (hquote : c = '"' → depth = 0) :
    passFrom bytes i depth start done (encode (c :: cs)) =
      if depth = 0 ∧ isAsciiBlank c = false then .ok none
      else passFrom bytes (i + (encode [c]).length) depth start done (encode cs) := by
  by_cases hc : c = ';'
  · subst hc
    have hstarts : ¬ [code ';', code ';'] <+: encode (';' :: cs) :=
      mt (Utf8.map_code_prefix_encode [';', ';'] (by simp) _).mp hline
    rw [Utf8.encode_cons_ascii (by decide)] at hstarts ⊢
    exact passFrom_other bytes i depth start done (encode cs) hstarts (by decide) (by decide)
      (fun h => absurd h (by decide))
  · have hstep : ∀ b ∈ String.utf8EncodeChar c, ∀ i rest,
        passFrom bytes i depth start done (b :: rest) =
          if depth = 0 ∧ isAsciiBlank c = false then .ok none
          else passFrom bytes (i + 1) depth start done rest := by
      intro b hb i rest
      have hsemicolon : b ≠ code ';' := Utf8.ne_code_of_mem hb hc (by decide)
      have hstring (h : b = code '"') : depth = 0 :=
        hquote (by_contra fun hne => Utf8.ne_code_of_mem hb hne (by decide) h)
      rw [passFrom_other bytes i depth start done rest
        (fun hp => hsemicolon (List.cons_prefix_cons.mp hp).1.symm)
        (Utf8.ne_code_of_mem hb hopen (by decide)) (Utf8.ne_code_of_mem hb hclose (by decide))
        hstring, isBlankByte_of_mem hb]
    by_cases hstop : depth = 0 ∧ isAsciiBlank c = false
    · obtain ⟨a, bs, ha, -⟩ := Utf8.encodeChar_cons c
      rw [if_pos hstop, Utf8.encode_cons, ha, List.cons_append,
        hstep a (ha ▸ List.mem_cons_self), if_pos hstop]
    · rw [if_neg hstop]
      refine pass_char (fun i rest => passFrom bytes i depth start done rest)
        (fun b hb i rest => ?_) i cs
      exact (hstep b hb i rest).trans (if_neg hstop)

theorem slice_encode (before field after : List Char) :
    slice (encode (before ++ field ++ after)) (encode before).length
      (encode (before ++ field)).length = .ok (encode field) := by
  have hstart : isBoundary (encode (before ++ field ++ after)) (encode before).length = true := by
    rw [List.append_assoc]
    exact Utf8.isBoundary_encode before (field ++ after)
  rw [slice, hstart, Utf8.isBoundary_encode, Utf8.encode_append (before ++ field), List.take_left,
    Utf8.encode_append, List.drop_left, if_pos]
  simp

/-- Where both passes stand in a text: before the characters `cs`, and a field being read began at
the index `start`. -/
structure At (whole : List Char) (s : Cut) (i start : Nat) (cs : List Char) : Prop where
  clean : s.IsClean
  here : ∃ before, whole = before ++ cs ∧ i = (encode before).length
  begun : s.depth ≠ 0 →
    ∃ before, whole = before ++ (s.field.reverse ++ cs) ∧ start = (encode before).length

namespace At

variable {whole : List Char} {s s' : Cut} {i start : Nat} {a t : List Char}

theorem keep (h : At whole s i start (a ++ t)) :
    At whole (s.keep a) (i + (encode a).length) start t where
  clean := h.clean.keep a
  here := by
    obtain ⟨before, hwhole, rfl⟩ := h.here
    refine ⟨before ++ a, by rw [hwhole, List.append_assoc], ?_⟩
    rw [Utf8.encode_append, List.length_append]
  begun hd := by
    rw [Cut.keep_depth] at hd
    obtain ⟨before, hwhole, rfl⟩ := h.begun hd
    refine ⟨before, ?_, rfl⟩
    rw [hwhole, Cut.keep_of_depth_ne_zero hd]
    simp

theorem openParen (h : At whole s i start ('(' :: t)) :
    At whole s.openParen (i + 1) (if s.depth = 0 then i else start) t where
  clean := nofun
  here := by
    obtain ⟨before, hwhole, rfl⟩ := h.here
    exact ⟨before ++ ['('], by simp [hwhole], by rw [Utf8.encode_append, List.length_append]; rfl⟩
  begun _ := by
    by_cases hd : s.depth = 0
    · obtain ⟨before, hwhole, rfl⟩ := h.here
      refine ⟨before, ?_, if_pos hd⟩
      simp [Cut.openParen, h.clean hd, hwhole]
    · obtain ⟨before, hwhole, rfl⟩ := h.begun hd
      refine ⟨before, ?_, if_neg hd⟩
      simp [Cut.openParen, hwhole]

theorem closeParen (h : At whole s i start (')' :: t)) (hs : s.closeParen = some s') :
    At whole s' (i + 1) start t where
  clean := .closeParen hs
  here := by
    obtain ⟨before, hwhole, rfl⟩ := h.here
    exact ⟨before ++ [')'], by simp [hwhole], by rw [Utf8.encode_append, List.length_append]; rfl⟩
  begun hd := by
    obtain ⟨depth, field, done⟩ := s
    match depth with
    | 0 => simp [Cut.closeParen] at hs
    | 1 =>
      obtain rfl := Option.some.inj hs
      exact absurd rfl hd
    | d + 2 =>
      obtain rfl := Option.some.inj hs
      obtain ⟨before, hwhole, rfl⟩ := h.begun (Nat.succ_ne_zero _)
      exact ⟨before, by simp [hwhole], rfl⟩

/-- A field that is closed begins and ends between two characters. -/
theorem slice (h : At whole s i start (')' :: t)) (hd : s.depth ≠ 0) :
    slice (encode whole) start (i + 1) = .ok (encode (')' :: s.field).reverse) := by
  obtain ⟨before, hwhole, rfl⟩ := h.begun hd
  obtain ⟨before', hwhole', rfl⟩ := h.here
  obtain rfl : before' = before ++ s.field.reverse := by
    rw [hwhole, ← List.append_assoc] at hwhole'
    exact (List.append_cancel_right hwhole').symm
  have hfield : whole = before ++ (')' :: s.field).reverse ++ t := by simp [hwhole]
  have hstop : (encode (before ++ s.field.reverse)).length + 1 =
      (encode (before ++ (')' :: s.field).reverse)).length := by
    rw [List.reverse_cons, ← List.append_assoc, Utf8.encode_append _ [')'], List.length_append]
    rfl
  rw [hstop, hfield, slice_encode]

end At

/-- Whether both passes come to the same from here on. -/
def Agree (whole : List Char) (s : Cut) (i start : Nat) (cs : List Char) : Prop :=
  passFrom (encode whole) i s.depth start (s.done.map encode) (encode cs) =
    .ok ((cut .plain s cs).map (·.map encode))

/-- Behind a comment or a string, of which the characters `a` come first, both passes go on from
the same place. -/
theorem Skips.agree {whole : List Char} {mode : Mode} {s : Cut} {i start : Nat} {a cs : List Char}
    {r : Option (Nat × List UInt8)} (hskips : Skips mode (i + (encode a).length) cs r)
    (hat : At whole s i start (a ++ cs))
    (ih : ∀ s' j t, t.length ≤ cs.length → At whole s' j start t → Agree whole s' j start t) :
    (r.elim (.ok none) fun p => passFrom (encode whole) p.1 s.depth start (s.done.map encode) p.2) =
      .ok ((cut mode (s.keep a) cs).map (·.map encode)) := by
  cases hskips with
  | @done b t h =>
    have hagree := ih _ _ t (by simp) hat.keep.keep
    rw [Agree, Cut.keep_depth, Cut.keep_depth, Cut.keep_done, Cut.keep_done] at hagree
    rw [h]
    exact hagree
  | never h =>
    rw [h]
    rfl

theorem At.agree_close {whole : List Char} {s : Cut} {i start : Nat} {cs : List Char}
    (hat : At whole s i start (')' :: cs))
    (ih : ∀ s', At whole s' (i + 1) start cs → Agree whole s' (i + 1) start cs) :
    Agree whole s i start (')' :: cs) := by
  have hnext (s' : Cut) (hs : s.closeParen = some s') := ih s' (hat.closeParen hs)
  unfold Agree at hnext ⊢
  rw [Utf8.encode_cons_ascii (by decide), cut_plain_close]
  obtain ⟨depth, field, done⟩ := s
  match depth with
  | 0 => exact passFrom_close_zero _ _ _ _ _
  | 1 => exact (passFrom_close_one _ _ _ _ _ (hat.slice Nat.one_ne_zero)).trans (hnext _ rfl)
  | d + 2 => exact (passFrom_close_succ _ _ _ _ _ d).trans (hnext _ rfl)

/-- From any place in a text, the pass over its bytes faults nowhere and cuts what the pass over
its characters cuts. -/
theorem At.agree {whole : List Char} {s : Cut} {i start : Nat} {cs : List Char}
    (hat : At whole s i start cs) : Agree whole s i start cs := by
  induction hlen : cs.length using Nat.strong_induction_on generalizing s i start cs with
  | _ len ih =>
    have hshorter (u : List Char) (hu : u.length < len) (s' : Cut) (j : Nat) (t : List Char)
        (ht : t.length ≤ u.length) (hat : At whole s' j start t) : Agree whole s' j start t :=
      ih _ (Nat.lt_of_le_of_lt ht hu) hat rfl
    unfold Agree
    by_cases hline : [';', ';'] <+: cs
    · obtain ⟨cs, rfl⟩ := hline
      rw [List.length_append, List.length_cons] at hlen
      rw [Utf8.encode_append]
      exact (passFrom_line _ _ _ _ _ _).trans
        ((skips_line (i + 2) cs).agree (a := [';', ';']) hat (hshorter cs (by omega)))
    · by_cases hblock : ['(', ';'] <+: cs
      · obtain ⟨cs, rfl⟩ := hblock
        rw [List.length_append, List.length_cons] at hlen
        obtain ⟨r, hr, hskips⟩ := skips_block 0 (i + 2) cs
        rw [Utf8.encode_append]
        exact (passFrom_block _ _ _ _ _ _ hr).trans
          (hskips.agree (a := ['(', ';']) hat (hshorter cs (by omega)))
      · cases cs with
        | nil =>
          rw [Utf8.encode_nil, passFrom, cut, Cut.finish]
          by_cases hd : s.depth = 0 <;> simp [hd]
        | cons c cs =>
          rw [List.length_cons] at hlen
          by_cases hopen : c = '('
          · subst hopen
            have hstarts : ¬ [code '(', code ';'] <+: code '(' :: encode cs := by
              rw [← Utf8.encode_cons_ascii (by decide)]
              exact mt (Utf8.map_code_prefix_encode ['(', ';'] (by simp) _).mp hblock
            rw [cut_plain_open s hblock, Utf8.encode_cons_ascii (by decide),
              passFrom_open _ _ _ _ _ _ hstarts]
            exact ih cs.length (by omega) hat.openParen rfl
          by_cases hclose : c = ')'
          · subst hclose
            exact hat.agree_close fun s' hat' => ih cs.length (by omega) hat' rfl
          by_cases hstring : c = '"' ∧ s.depth ≠ 0
          · obtain ⟨rfl, hd⟩ := hstring
            rw [cut_plain_string hd, Utf8.encode_cons_ascii (by decide),
              passFrom_string _ _ _ _ _ _ hd]
            exact (skips_string (i + 1) cs).agree (a := ['"']) hat (hshorter cs (by omega))
          · have hquote : c = '"' → s.depth = 0 := fun hc => by_contra fun hd => hstring ⟨hc, hd⟩
            have hnext : Agree whole (s.keep [c]) (i + (encode [c]).length) start cs :=
              ih cs.length (by omega) (At.keep (a := [c]) hat) rfl
            rw [Agree, Cut.keep_depth, Cut.keep_done] at hnext
            rw [passFrom_char _ _ _ _ _ hline hopen hclose hquote,
              cut_plain_self s hline hopen hclose hquote, hnext]
            split <;> rfl

/-- The pass over the bytes of a text faults nowhere: its counts stay above zero, and every field
begins and ends between two characters. It cuts the same fields. -/
theorem passBytes_encode (text : List Char) :
    passBytes (encode text) = .ok ((splitChars text).map (·.map encode)) :=
  At.agree (s := ⟨0, [], []⟩) ⟨fun _ => rfl, ⟨[], rfl, rfl⟩, fun h => absurd rfl h⟩

/-- A text is cut into fields exactly if it is a source with these fields. A pass over its bytes
faults nowhere and comes to the same. -/
theorem splitFields_iff_source (text : String) :
    (∀ fields, splitFields text = some fields ↔
      Source (fields.map String.toList) text.toList) ∧
    passBytes (encode text.toList) =
      .ok ((splitFields text).map (·.map fun f => encode f.toList)) := by
  constructor
  · intro fields
    rw [← splitChars_eq_some_iff, splitFields, Option.map_eq_some_iff]
    constructor
    · rintro ⟨fields, h, rfl⟩
      simp [h]
    · intro h
      exact ⟨_, h, by simp⟩
  · rw [passBytes_encode, splitFields, Option.map_map]
    simp [Function.comp_def]

end LiveTrace.Assembly
