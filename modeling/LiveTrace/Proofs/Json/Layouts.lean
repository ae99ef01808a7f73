import LiveTrace.Proofs.Json.Scanning

/-
  Values and their texts. Both layouts of a value spell its tokens (`spelled_layout`), and its
  tokens build the value (`ofTokens?_tokens`); so a value is read back from either text
  (`parse?_of_spelled`). As many brackets and braces are open at once in the tokens as the value
  is deep (`nesting_of_spelled`).
-/
namespace LiveTrace.Json

/-! ## Layouts -/

namespace Spelled

variable {ts : List Token} {cs : List Char}

theorem punctuation {t : Token} (h : Spelled ts cs) (ht : t.Writable) (hw : t.isWord = false) :
    Spelled (t :: ts) (t.text ++ cs) :=
  h.token ht (fun h => nomatch hw.symm.trans h)

/-- A key and its colon in front of what follows. -/
theorem key {k : List Char} (h : Spelled ts cs) (hk : IsRaw k) :
    Spelled (.string k :: .colon :: ts) ('"' :: k ++ '"' :: ':' :: cs) := by
  have hcolon := h.punctuation (t := .colon) trivial rfl
  have hkey := hcolon.punctuation (t := .string k) hk rfl
  simpa [Token.text] using hkey

theorem gaps {gap : List Char} (h : Spelled ts cs) (hgap : ∀ c ∈ gap, isGap c = true) :
    Spelled ts (gap ++ cs) := by
  induction gap with
  | nil => exact h
  | cons c gap ih =>
    exact (ih fun d hd => hgap d (List.mem_cons_of_mem _ hd)).gap (hgap c List.mem_cons_self)

theorem newLine (h : Spelled ts cs) (depth : Nat) : Spelled ts (newLine depth ++ cs) := by
  refine h.gaps fun c hc => ?_
  rcases List.mem_cons.mp hc with rfl | hc
  · decide
  · rw [List.eq_of_mem_replicate hc]
    decide

end Spelled

mutual

/-- The text of a value without blanks, in front of a text that does not go on with a word. -/
theorem spelled_compact (v : Json) (hv : ∀ t ∈ v.tokens, t.Writable) {ts : List Token}
    {cs : List Char} (h : Spelled ts cs) (hend : Ended cs) :
    Spelled (v.tokens ++ ts) (v.compact ++ cs) := by
  have hone {t : Token} (ht : t.Writable) : Spelled ([t] ++ ts) ([t].flatMap Token.text ++ cs) := by
    rw [List.flatMap_singleton]
    exact h.token ht (fun _ => hend)
  cases v with
  | null | bool | number | string => exact hone (hv _ (List.mem_singleton_self _))
  | array items =>
    have hitems := spelled_compactItems items (fun t ht => hv t (List.mem_cons_of_mem _ ht)) h
    rw [compact, tokens, List.flatMap_cons, List.append_assoc]
    exact hitems.punctuation trivial rfl
  | object members =>
    have hmembers := spelled_compactMembers members
      (fun t ht => hv t (List.mem_cons_of_mem _ ht)) h
    rw [compact, tokens, List.flatMap_cons, List.append_assoc]
    exact hmembers.punctuation trivial rfl

theorem spelled_compactItems (items : List Json) (hitems : ∀ t ∈ itemTokens items, t.Writable)
    {ts : List Token} {cs : List Char} (h : Spelled ts cs) :
    Spelled (itemTokens items ++ ts) ((itemTokens items).flatMap Token.text ++ cs) := by
  have hclose := h.punctuation (t := .closeBracket) trivial rfl
  match items with
  | [] => exact hclose
  | [v] =>
    have hv := spelled_compact v (fun t ht => hitems t (by simp [itemTokens, ht])) hclose
      (ended_cons (by decide) _)
    simpa [itemTokens, compact, Token.text] using hv
  | v :: w :: rest =>
    have hrest := spelled_compactItems (w :: rest)
      (fun t ht => hitems t (by simp [itemTokens, ht])) h
    have hcomma := hrest.punctuation (t := .comma) trivial rfl
    have hv := spelled_compact v (fun t ht => hitems t (by simp [itemTokens, ht])) hcomma
      (ended_cons (by decide) _)
    simpa [itemTokens, compact, Token.text] using hv

theorem spelled_compactMembers (members : List (List Char × Json))
    (hmembers : ∀ t ∈ memberTokens members, t.Writable) {ts : List Token} {cs : List Char}
    (h : Spelled ts cs) :
    Spelled (memberTokens members ++ ts) ((memberTokens members).flatMap Token.text ++ cs) := by
  have hclose := h.punctuation (t := .closeBrace) trivial rfl
  match members with
  | [] => exact hclose
  | [(k, v)] =>
    have hk : IsRaw k := hmembers (.string k) (by simp [memberTokens])
    have hv := spelled_compact v (fun t ht => hmembers t (by simp [memberTokens, ht])) hclose
      (ended_cons (by decide) _)
    simpa [memberTokens, compact, Token.text] using hv.key hk
  | (k, v) :: m :: rest =>
    have hk : IsRaw k := hmembers (.string k) (by simp [memberTokens])
    have hrest := spelled_compactMembers (m :: rest)
      (fun t ht => hmembers t (by simp [memberTokens, ht])) h
    have hcomma := hrest.punctuation (t := .comma) trivial rfl
    have hv := spelled_compact v (fun t ht => hmembers t (by simp [memberTokens, ht])) hcomma
      (ended_cons (by decide) _)
    simpa [memberTokens, compact, Token.text] using hv.key hk

end

theorem ended_newLine (depth : Nat) (cs : List Char) : Ended (newLine depth ++ cs) :=
  ended_cons (by decide) _

mutual

/-- The text of a value over several lines. -/
theorem spelled_prettyAt (depth : Nat) (v : Json) (hv : ∀ t ∈ v.tokens, t.Writable)
    {ts : List Token} {cs : List Char} (h : Spelled ts cs) (hend : Ended cs) :
    Spelled (v.tokens ++ ts) (prettyAt depth v ++ cs) := by
  match v with
  | .null | .bool _ | .number _ | .string _ =>
    exact h.token (hv _ (List.mem_singleton_self _)) (fun _ => hend)
  | .array [] =>
    have hclose := h.punctuation (t := .closeBracket) trivial rfl
    exact hclose.punctuation (t := .openBracket) trivial rfl
  | .array (v :: rest) =>
    have hclose := (h.punctuation (t := .closeBracket) trivial rfl).newLine depth
    have hitems := spelled_prettyItems (depth + 1) (v :: rest) (List.cons_ne_nil _ _)
      (fun t ht => hv t (List.mem_cons_of_mem _ ht)) hclose (ended_newLine depth _)
    have hopen := hitems.punctuation (t := .openBracket) trivial rfl
    simpa [tokens, prettyAt, Token.text] using hopen
  | .object [] =>
    have hclose := h.punctuation (t := .closeBrace) trivial rfl
    exact hclose.punctuation (t := .openBrace) trivial rfl
  | .object (m :: rest) =>
    have hclose := (h.punctuation (t := .closeBrace) trivial rfl).newLine depth
    have hmembers := spelled_prettyMembers (depth + 1) (m :: rest) (List.cons_ne_nil _ _)
      (fun t ht => hv t (List.mem_cons_of_mem _ ht)) hclose (ended_newLine depth _)
    have hopen := hmembers.punctuation (t := .openBrace) trivial rfl
    simpa [tokens, prettyAt, Token.text] using hopen

theorem spelled_prettyItems (depth : Nat) (items : List Json) (hne : items ≠ [])
    (hitems : ∀ t ∈ itemTokens items, t.Writable) {ts : List Token} {cs : List Char}
    (hclose : Spelled (.closeBracket :: ts) cs) (hend : Ended cs) :
    Spelled (itemTokens items ++ ts) (prettyItems depth items ++ cs) := by
  match items with
  | [] => contradiction
  | [v] =>
    have hv := spelled_prettyAt depth v (fun t ht => hitems t (by simp [itemTokens, ht])) hclose
      hend
    simpa [itemTokens, prettyItems] using hv.newLine depth
  | v :: w :: rest =>
    have hrest := spelled_prettyItems depth (w :: rest) (List.cons_ne_nil _ _)
      (fun t ht => hitems t (by simp [itemTokens, ht])) hclose hend
    have hcomma := hrest.punctuation (t := .comma) trivial rfl
    have hv := spelled_prettyAt depth v (fun t ht => hitems t (by simp [itemTokens, ht])) hcomma
      (ended_cons (by decide) _)
    simpa [itemTokens, prettyItems, Token.text] using hv.newLine depth

theorem spelled_prettyMembers (depth : Nat) (members : List (List Char × Json))
    (hne : members ≠ []) (hmembers : ∀ t ∈ memberTokens members, t.Writable) {ts : List Token}
    {cs : List Char} (hclose : Spelled (.closeBrace :: ts) cs) (hend : Ended cs) :
    Spelled (memberTokens members ++ ts) (prettyMembers depth members ++ cs) := by
  match members with
  | [] => contradiction
  | [(k, v)] =>
    have hk : IsRaw k := hmembers (.string k) (by simp [memberTokens])
    have hv := spelled_prettyAt depth v (fun t ht => hmembers t (by simp [memberTokens, ht]))
      hclose hend
    have hkey := (hv.gap (c := ' ') (by decide)).key hk
    simpa [memberTokens, prettyMembers] using hkey.newLine depth
  | (k, v) :: m :: rest =>
    have hk : IsRaw k := hmembers (.string k) (by simp [memberTokens])
    have hrest := spelled_prettyMembers depth (m :: rest) (List.cons_ne_nil _ _)
      (fun t ht => hmembers t (by simp [memberTokens, ht])) hclose hend
    have hcomma := hrest.punctuation (t := .comma) trivial rfl
    have hv := spelled_prettyAt depth v (fun t ht => hmembers t (by simp [memberTokens, ht]))
      hcomma (ended_cons (by decide) _)
    have hkey := (hv.gap (c := ' ') (by decide)).key hk
    simpa [memberTokens, prettyMembers, Token.text] using hkey.newLine depth

end

/-- Both texts of a value spell its tokens. -/
theorem spelled_layout {v : Json} (hv : ∀ t ∈ v.tokens, t.Writable) {layout : Json → String}
    (hlayout : layout = compactText ∨ layout = prettyText) :
    ∃ cs, layout v = String.ofList cs ∧ Spelled v.tokens cs := by
  rcases hlayout with rfl | rfl
  · have hspelled := spelled_compact v hv .nil ended_nil
    rw [List.append_nil, List.append_nil] at hspelled
    exact ⟨_, rfl, hspelled⟩
  · have hspelled := spelled_prettyAt 0 v hv .nil ended_nil
    rw [List.append_nil, List.append_nil] at hspelled
    exact ⟨_, rfl, hspelled⟩

/-! ## Rows of tokens -/

theorem itemTokens_singleton (v : Json) (ts : List Token) :
    itemTokens [v] ++ ts = v.tokens ++ .closeBracket :: ts := by
  simp [itemTokens]

theorem itemTokens_cons (v w : Json) (rest : List Json) (ts : List Token) :
    itemTokens (v :: w :: rest) ++ ts = v.tokens ++ .comma :: (itemTokens (w :: rest) ++ ts) := by
  simp [itemTokens]

theorem memberTokens_singleton (k : List Char) (v : Json) (ts : List Token) :
    memberTokens [(k, v)] ++ ts = .string k :: .colon :: (v.tokens ++ .closeBrace :: ts) := by
  simp [memberTokens]

theorem memberTokens_cons (k : List Char) (v : Json) (m : List Char × Json)
    (rest : List (List Char × Json)) (ts : List Token) :
    memberTokens ((k, v) :: m :: rest) ++ ts =
      .string k :: .colon :: (v.tokens ++ .comma :: (memberTokens (m :: rest) ++ ts)) := by
  simp [memberTokens]

/-! ## Building -/

theorem tokens_eq_cons (v : Json) : ∃ t ts, v.tokens = t :: ts ∧ t ≠ .closeBracket := by
  cases v with
  | bool b => cases b <;> exact ⟨_, _, rfl, nofun⟩
  | _ => exact ⟨_, _, rfl, nofun⟩

theorem itemTokens_eq_append (v : Json) (rest : List Json) :
    ∃ after, itemTokens (v :: rest) = v.tokens ++ after := by
  cases rest with
  | nil => exact ⟨_, rfl⟩
  | cons w rest => exact ⟨_, rfl⟩

theorem memberTokens_eq_cons (m : List Char × Json) (rest : List (List Char × Json)) :
    ∃ after, memberTokens (m :: rest) = .string m.1 :: after := by
  cases rest with
  | nil => exact ⟨_, rfl⟩
  | cons m' rest => exact ⟨_, rfl⟩

namespace Builder

/-- Where an array may end at once, a value is read as where it may not. -/
theorem run_valueOrEnd (stack : List Frame) (v : Json) (ts : List Token) :
    run ⟨stack, .valueOrEnd⟩ (v.tokens ++ ts) = run ⟨stack, .value⟩ (v.tokens ++ ts) := by
  obtain ⟨t, rest, htokens, ht⟩ := v.tokens_eq_cons
  have hstep : step ⟨stack, .valueOrEnd⟩ t = step ⟨stack, .value⟩ t := if_neg ht
  rw [htokens, List.cons_append, run, run, hstep]

mutual

/-- The tokens of a value deliver it. -/
theorem run_tokens (v : Json) (stack : List Frame) (ts : List Token) :
    run ⟨stack, .value⟩ (v.tokens ++ ts) = run (deliver stack v) ts := by
  match v with
  | .null | .number _ | .string _ => rfl
  | .bool b => cases b <;> rfl
  | .array [] => rfl
  | .array (v :: rest) =>
    have hitems := run_items (v :: rest) (List.cons_ne_nil _ _) [] stack ts
    obtain ⟨after, hfirst⟩ := itemTokens_eq_append v rest
    rw [hfirst, List.append_assoc, ← run_valueOrEnd, ← List.append_assoc, ← hfirst] at hitems
    exact hitems
  | .object [] => rfl
  | .object (m :: rest) =>
    have hmembers := run_members (m :: rest) (List.cons_ne_nil _ _) [] stack ts
    obtain ⟨after, hfirst⟩ := memberTokens_eq_cons m rest
    rw [hfirst] at hmembers
    rw [tokens, hfirst]
    exact hmembers

theorem run_items (items : List Json) (hne : items ≠ []) (read : List Json) (stack : List Frame)
    (ts : List Token) :
    run ⟨.items read :: stack, .value⟩ (itemTokens items ++ ts) =
      run (deliver stack (.array (read.reverse ++ items))) ts := by
  match items with
  | [] => contradiction
  | [v] =>
    have hv := run_tokens v (.items read :: stack) (.closeBracket :: ts)
    rw [itemTokens_singleton, hv, ← List.reverse_cons]
    rfl
  | v :: w :: rest =>
    have hv := run_tokens v (.items read :: stack) (.comma :: (itemTokens (w :: rest) ++ ts))
    have hrest := run_items (w :: rest) (List.cons_ne_nil _ _) (v :: read) stack ts
    have hread : read.reverse ++ v :: w :: rest = (v :: read).reverse ++ w :: rest := by simp
    rw [itemTokens_cons, hv, hread, ← hrest]
    rfl

theorem run_members (members : List (List Char × Json)) (hne : members ≠ [])
    (read : List (List Char × Json)) (stack : List Frame) (ts : List Token) :
    run ⟨stack, .key read⟩ (memberTokens members ++ ts) =
      run (deliver stack (.object (read.reverse ++ members))) ts := by
  match members with
  | [] => contradiction
  | [(k, v)] =>
    have hv := run_tokens v (.members read k :: stack) (.closeBrace :: ts)
    rw [memberTokens_singleton, ← List.reverse_cons]
    exact hv
  | (k, v) :: m :: rest =>
    have hv := run_tokens v (.members read k :: stack) (.comma :: (memberTokens (m :: rest) ++ ts))
    have hrest := run_members (m :: rest) (List.cons_ne_nil _ _) ((k, v) :: read) stack ts
    have hread : read.reverse ++ (k, v) :: m :: rest = ((k, v) :: read).reverse ++ m :: rest := by
      simp
    rw [memberTokens_cons, hread, ← hrest]
    exact hv

end

end Builder

theorem ofTokens?_tokens (v : Json) : ofTokens? v.tokens = some v := by
  have hrun := Builder.run_tokens v [] []
  rw [List.append_nil] at hrun
  unfold ofTokens?
  rw [hrun]
  rfl

/-- A value is read back from a text of its tokens. -/
theorem parse?_of_spelled {v : Json} {cs : List Char} (h : Spelled v.tokens cs) :
    parse? cs = some v := by
  rw [parse?, h.tokens?_eq, Option.bind_some, ofTokens?_tokens]

/-! ## Nesting -/

/-- How many brackets and braces are open behind a token, when `count` are in front of it. -/
def Token.openBehind (count : Nat) : Token → Nat
  | .openBracket | .openBrace => count + 1
  | .closeBracket | .closeBrace => count - 1
  | _ => count

/-- How many brackets and braces are open at once in a row of tokens, when `count` are in front
of it. -/
def nestingFrom (count : Nat) : List Token → Nat
  | [] => count
  | t :: ts => max count (nestingFrom (t.openBehind count) ts)

mutual

/-- A value opens as many as it is deep, and leaves none of them open. -/
theorem nestingFrom_tokens (v : Json) (count : Nat) (ts : List Token) :
    nestingFrom count (v.tokens ++ ts) = max (count + v.depth) (nestingFrom count ts) := by
  match v with
  | .null | .number _ | .string _ => rfl
  | .bool b => cases b <;> rfl
  | .array items =>
    have hopen : nestingFrom count (tokens (.array items) ++ ts) =
        max count (nestingFrom (count + 1) (itemTokens items ++ ts)) := rfl
    rw [hopen, nestingFrom_items, depth]
    omega
  | .object members =>
    have hopen : nestingFrom count (tokens (.object members) ++ ts) =
        max count (nestingFrom (count + 1) (memberTokens members ++ ts)) := rfl
    rw [hopen, nestingFrom_members, depth]
    omega

theorem nestingFrom_items (items : List Json) (count : Nat) (ts : List Token) :
    nestingFrom (count + 1) (itemTokens items ++ ts) =
      max (count + 1 + depthOfItems items) (nestingFrom count ts) := by
  match items with
  | [] => rfl
  | [v] =>
    have hclose : nestingFrom (count + 1) (.closeBracket :: ts) =
        max (count + 1) (nestingFrom count ts) := rfl
    rw [itemTokens_singleton, nestingFrom_tokens, hclose, depthOfItems, depthOfItems]
    omega
  | v :: w :: rest =>
    have hcomma : nestingFrom (count + 1) (.comma :: (itemTokens (w :: rest) ++ ts)) =
        max (count + 1) (nestingFrom (count + 1) (itemTokens (w :: rest) ++ ts)) := rfl
    have hdepth : depthOfItems (v :: w :: rest) = max v.depth (depthOfItems (w :: rest)) := rfl
    rw [itemTokens_cons, nestingFrom_tokens, hcomma, nestingFrom_items, hdepth]
    omega

theorem nestingFrom_members (members : List (List Char × Json)) (count : Nat) (ts : List Token) :
    nestingFrom (count + 1) (memberTokens members ++ ts) =
      max (count + 1 + depthOfMembers members) (nestingFrom count ts) := by
  match members with
  | [] => rfl
  | [(k, v)] =>
    have hkey : nestingFrom (count + 1) (.string k :: .colon :: (v.tokens ++ .closeBrace :: ts)) =
        max (count + 1) (max (count + 1)
          (nestingFrom (count + 1) (v.tokens ++ .closeBrace :: ts))) := rfl
    have hclose : nestingFrom (count + 1) (.closeBrace :: ts) =
        max (count + 1) (nestingFrom count ts) := rfl
    rw [memberTokens_singleton, hkey, nestingFrom_tokens, hclose, depthOfMembers, depthOfMembers]
    omega
  | (k, v) :: m :: rest =>
    have hkey : nestingFrom (count + 1)
          (.string k :: .colon :: (v.tokens ++ .comma :: (memberTokens (m :: rest) ++ ts))) =
        max (count + 1) (max (count + 1) (nestingFrom (count + 1)
          (v.tokens ++ .comma :: (memberTokens (m :: rest) ++ ts)))) := rfl
    have hcomma : nestingFrom (count + 1) (.comma :: (memberTokens (m :: rest) ++ ts)) =
        max (count + 1) (nestingFrom (count + 1) (memberTokens (m :: rest) ++ ts)) := rfl
    have hdepth : depthOfMembers ((k, v) :: m :: rest) =
        max v.depth (depthOfMembers (m :: rest)) := rfl
    rw [memberTokens_cons, hkey, nestingFrom_tokens, hcomma, nestingFrom_members, hdepth]
    omega

end

/-- How many brackets and braces of a text are open at once. -/
def nesting (text : String) : Nat := ((tokens? text.toList).map (nestingFrom 0)).getD 0

theorem nesting_of_spelled {v : Json} {cs : List Char} (h : Spelled v.tokens cs) :
    nesting (String.ofList cs) = v.depth := by
  have hdepth := nestingFrom_tokens v 0 []
  rw [List.append_nil] at hdepth
  rw [nesting, String.toList_ofList, h.tokens?_eq, Option.map_some, Option.getD_some, hdepth]
  exact (Nat.max_eq_left (Nat.zero_le _)).trans (Nat.zero_add _)

end LiveTrace.Json
