import LiveTrace.Text.Utf8

/-
  The bytes of a text. A character below 128 is the byte of its number; every other one is a
  first byte with bytes that continue it, and none of them is below 128 (`encodeChar_cases`). So
  an ASCII character is seen in the bytes of a text where it stands and nowhere else.
-/
namespace LiveTrace.Utf8

/-- The byte of an ASCII character. -/
def code (c : Char) : UInt8 := UInt8.ofNat c.toNat

theorem code_inj {c d : Char} (hc : c.toNat < 128) (hd : d.toNat < 128) :
    code c = code d ↔ c = d := by
  refine ⟨fun h => ?_, congrArg code⟩
  have hnat : c.toNat % 256 = d.toNat % 256 := by
    simpa [code, ← UInt8.toNat_inj] using h
  exact Char.toNat_inj.mp (by omega)

theorem isTail_eq_false {a : UInt8} (h : a.toNat < 128 ∨ 192 ≤ a.toNat) : isTail a = false := by
  unfold isTail
  rw [Bool.and_eq_false_iff, decide_eq_false_iff_not, decide_eq_false_iff_not,
    UInt8.le_iff_toNat_le, UInt8.le_iff_toNat_le]
  change ¬ 128 ≤ a.toNat ∨ ¬ a.toNat ≤ 191
  omega

theorem encodeChar_cases (c : Char) :
    (c.toNat < 128 ∧ String.utf8EncodeChar c = [code c]) ∨
      (128 ≤ c.toNat ∧ ∃ a bs, String.utf8EncodeChar c = a :: bs ∧ isTail a = false ∧
        ∀ b ∈ a :: bs, 128 ≤ b.toNat) := by
  -- A first byte is at least 192, which no byte that continues a character is.
  have hfirst (n m : Nat) (hm : 192 ≤ m) (h : n + m < 256) :
      192 ≤ (UInt8.ofNat (n + m)).toNat := by
    rw [UInt8.toNat_ofNat', Nat.mod_eq_of_lt h]
    omega
  have hlong {a : UInt8} {bs : List UInt8} (ha : 192 ≤ a.toNat) (hbs : ∀ b ∈ bs, 128 ≤ b.toNat) :
      isTail a = false ∧ ∀ b ∈ a :: bs, 128 ≤ b.toNat :=
    ⟨isTail_eq_false (.inr ha), List.forall_mem_cons.mpr ⟨by omega, hbs⟩⟩
  fun_cases String.utf8EncodeChar c with
  | case1 v h => exact .inl ⟨Nat.lt_succ_of_le h, rfl⟩
  | case2 v h _ =>
    have ha := hfirst (v / 64 % 32) 192 (by omega) (by omega)
    exact .inr ⟨Nat.lt_of_not_le h, _, _, rfl, hlong ha (by simp; omega)⟩
  | case3 v h _ _ =>
    have ha := hfirst (v / 4096 % 16) 224 (by omega) (by omega)
    exact .inr ⟨Nat.lt_of_not_le h, _, _, rfl, hlong ha (by simp; omega)⟩
  | case4 v h _ _ =>
    have ha := hfirst (v / 262144 % 8) 240 (by omega) (by omega)
    exact .inr ⟨Nat.lt_of_not_le h, _, _, rfl, hlong ha (by simp; omega)⟩

theorem code_lt_of_lt {c : Char} (hc : c.toNat < 128) : (code c).toNat < 128 := by
  simp [code]
  omega

theorem ne_code {b : UInt8} (hb : 128 ≤ b.toNat) {c : Char} (hc : c.toNat < 128) : b ≠ code c := by
  rintro rfl
  exact absurd (code_lt_of_lt hc) (Nat.not_lt_of_le hb)

/-- The byte of an ASCII character is in no other character. -/
theorem ne_code_of_mem {b : UInt8} {c d : Char} (hb : b ∈ String.utf8EncodeChar c) (h : c ≠ d)
    (hd : d.toNat < 128) : b ≠ code d := by
  rcases encodeChar_cases c with ⟨hc, heq⟩ | ⟨-, a, bs, heq, -, hall⟩
  · rw [heq, List.mem_singleton] at hb
    rw [hb]
    exact fun hcode => h ((code_inj hc hd).mp hcode)
  · rw [heq] at hb
    exact ne_code (hall b hb) hd

theorem encodeChar_cons (c : Char) :
    ∃ a bs, String.utf8EncodeChar c = a :: bs ∧ ∀ b ∈ bs, 128 ≤ b.toNat := by
  rcases encodeChar_cases c with ⟨-, h⟩ | ⟨-, a, bs, h, -, hall⟩
  · exact ⟨code c, [], h, by simp⟩
  · exact ⟨a, bs, h, fun b hb => hall b (List.mem_cons_of_mem a hb)⟩

theorem encode_nil : encode [] = [] := rfl

theorem encode_cons (c : Char) (cs : List Char) :
    encode (c :: cs) = String.utf8EncodeChar c ++ encode cs := List.flatMap_cons

theorem encode_append (as bs : List Char) : encode (as ++ bs) = encode as ++ encode bs :=
  List.flatMap_append

theorem encode_singleton (c : Char) : encode [c] = String.utf8EncodeChar c := by
  rw [encode_cons, encode_nil, List.append_nil]

theorem encode_cons_ascii {c : Char} (hc : c.toNat < 128) (cs : List Char) :
    encode (c :: cs) = code c :: encode cs := by
  rw [encode_cons]
  rcases encodeChar_cases c with ⟨-, h⟩ | ⟨h, -⟩
  · rw [h]
    rfl
  · omega

/-- A text begins with an ASCII word exactly if its bytes begin with the bytes of it. -/
theorem map_code_prefix_encode (word : List Char) (hword : ∀ d ∈ word, d.toNat < 128)
    (cs : List Char) : word.map code <+: encode cs ↔ word <+: cs := by
  induction word generalizing cs with
  | nil => simp
  | cons d word ih =>
    rw [List.forall_mem_cons] at hword
    cases cs with
    | nil => simp [encode_nil]
    | cons c cs =>
      by_cases hc : c = d
      · subst hc
        rw [encode_cons_ascii hword.1, List.map_cons, List.cons_prefix_cons,
          List.cons_prefix_cons, ih hword.2]
        simp
      · obtain ⟨a, bs, ha, -⟩ := encodeChar_cons c
        have hne : a ≠ code d := ne_code_of_mem (ha ▸ List.mem_cons_self) hc hword.1
        rw [encode_cons, ha, List.cons_append, List.map_cons, List.cons_prefix_cons,
          List.cons_prefix_cons]
        simp [hne.symm, Ne.symm hc]

/-- Whether an index into the bytes of a text stands between two of its characters. -/
def isBoundary (bytes : List UInt8) (i : Nat) : Bool :=
  match bytes[i]? with
  | some b => i == 0 || !isTail b
  | none => i == bytes.length

theorem isBoundary_encode (as bs : List Char) :
    isBoundary (encode (as ++ bs)) (encode as).length = true := by
  unfold isBoundary
  rw [encode_append, List.getElem?_append_right Nat.le.refl, Nat.sub_self]
  cases bs with
  | nil => simp [encode_nil]
  | cons b bs =>
    rw [encode_cons]
    rcases encodeChar_cases b with ⟨hb, h⟩ | ⟨-, a, rest, h, ha, -⟩
    · have hcode : isTail (code b) = false := isTail_eq_false (.inl (by simp [code]; omega))
      simp [h, hcode]
    · simp [h, ha]

end LiveTrace.Utf8
