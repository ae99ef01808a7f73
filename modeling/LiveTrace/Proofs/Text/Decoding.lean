import LiveTrace.Proofs.Text.Utf8

/-
  Decoding is exact. The bytes that a first character is read from are the bytes of that character
  (`eq_of_front`), and the bytes of a character are read as it (`front_encodeChar`); so bytes are
  decoded to a text just when they are its bytes (`decode_eq_ok_iff`).
-/
namespace LiveTrace.Utf8

/-! ## Classes of bytes -/

theorem isTail_iff {b : UInt8} : isTail b = true ↔ 128 ≤ b.toNat ∧ b.toNat ≤ 191 := by
  unfold isTail
  rw [Bool.and_eq_true, decide_eq_true_iff, decide_eq_true_iff, UInt8.le_iff_toNat_le,
    UInt8.le_iff_toNat_le]
  rfl

/-- The second bytes that may follow a first byte: less would be written with fewer bytes, or more
would be half of a surrogate pair or beyond the last character. -/
theorem isSecond_iff {a b : UInt8} :
    isSecond a b = true ↔ 128 ≤ b.toNat ∧ b.toNat ≤ 191 ∧ (a.toNat = 224 → 160 ≤ b.toNat) ∧
      (a.toNat = 237 → b.toNat ≤ 159) ∧ (a.toNat = 240 → 144 ≤ b.toNat) ∧
      (a.toNat = 244 → b.toNat ≤ 143) := by
  have heq (n : UInt8) : (a == n) = decide (a.toNat = n.toNat) := by
    rw [Bool.eq_iff_iff, beq_iff_eq, decide_eq_true_iff, UInt8.toNat_inj]
  unfold isSecond secondRange
  simp only [heq, UInt8.le_iff_toNat_le, Bool.and_eq_true, decide_eq_true_iff, UInt8.reduceToNat]
  repeat' split
  all_goals
    simp only [UInt8.reduceToNat]
    omega

theorem width_iff (a : UInt8) :
    (width a = 1 ↔ a.toNat ≤ 127) ∧ (width a = 2 ↔ 194 ≤ a.toNat ∧ a.toNat ≤ 223) ∧
      (width a = 3 ↔ 224 ≤ a.toNat ∧ a.toNat ≤ 239) ∧
      (width a = 4 ↔ 240 ≤ a.toNat ∧ a.toNat ≤ 244) := by
  unfold width
  simp only [UInt8.le_iff_toNat_le, Bool.and_eq_true, decide_eq_true_iff, UInt8.reduceToNat]
  repeat' split
  all_goals omega

/-! ## The bytes of a character -/

theorem val_ofNat {n : Nat} (h : n.isValidChar) : (Char.ofNat n).val.toNat = n := by
  unfold Char.ofNat
  rw [dif_pos h]
  rfl

theorem encodeChar_one {a : UInt8} (ha : a.toNat ≤ 127) :
    String.utf8EncodeChar (Char.ofNat a.toNat) = [a] := by
  have hval : (Char.ofNat a.toNat).val.toNat = a.toNat := val_ofNat (.inl (by omega))
  simp only [String.utf8EncodeChar, hval]
  rw [if_pos ha, UInt8.ofNat_toNat]

theorem encodeChar_two {a b : UInt8} (ha : 194 ≤ a.toNat ∧ a.toNat ≤ 223) (hb : isTail b = true) :
    String.utf8EncodeChar (char2 a b) = [a, b] := by
  rw [isTail_iff] at hb
  obtain ⟨v, hv⟩ : ∃ v, v = (a.toNat % 32) * 64 + b.toNat % 64 := ⟨_, rfl⟩
  have hval : (char2 a b).val.toNat = v := by
    rw [char2, ← hv]
    exact val_ofNat (.inl (by omega))
  have hfirst : v / 64 % 32 + 192 = a.toNat := by omega
  have hsecond : v % 64 + 128 = b.toNat := by omega
  simp only [String.utf8EncodeChar, hval]
  rw [if_neg (by omega), if_pos (by omega), hfirst, hsecond, UInt8.ofNat_toNat, UInt8.ofNat_toNat]

theorem encodeChar_three {a b c : UInt8} (ha : 224 ≤ a.toNat ∧ a.toNat ≤ 239)
    (hb : isSecond a b = true) (hc : isTail c = true) :
    String.utf8EncodeChar (char3 a b c) = [a, b, c] := by
  rw [isSecond_iff] at hb
  rw [isTail_iff] at hc
  obtain ⟨v, hv⟩ : ∃ v, v = (a.toNat % 16) * 4096 + (b.toNat % 64) * 64 + c.toNat % 64 :=
    ⟨_, rfl⟩
  have hvalid : v.isValidChar := by
    unfold Nat.isValidChar
    omega
  have hval : (char3 a b c).val.toNat = v := by
    rw [char3, ← hv]
    exact val_ofNat hvalid
  have hfirst : v / 4096 % 16 + 224 = a.toNat := by omega
  have hsecond : v / 64 % 64 + 128 = b.toNat := by omega
  have hthird : v % 64 + 128 = c.toNat := by omega
  simp only [String.utf8EncodeChar, hval]
  rw [if_neg (by omega), if_neg (by omega), if_pos (by omega), hfirst, hsecond, hthird,
    UInt8.ofNat_toNat, UInt8.ofNat_toNat, UInt8.ofNat_toNat]

theorem encodeChar_four {a b c d : UInt8} (ha : 240 ≤ a.toNat ∧ a.toNat ≤ 244)
    (hb : isSecond a b = true) (hc : isTail c = true) (hd : isTail d = true) :
    String.utf8EncodeChar (char4 a b c d) = [a, b, c, d] := by
  rw [isSecond_iff] at hb
  rw [isTail_iff] at hc hd
  obtain ⟨v, hv⟩ : ∃ v, v = (a.toNat % 8) * 262144 + (b.toNat % 64) * 4096 +
      (c.toNat % 64) * 64 + d.toNat % 64 := ⟨_, rfl⟩
  have hvalid : v.isValidChar := by
    unfold Nat.isValidChar
    omega
  have hval : (char4 a b c d).val.toNat = v := by
    rw [char4, ← hv]
    exact val_ofNat hvalid
  have hfirst : v / 262144 % 8 + 240 = a.toNat := by omega
  have hsecond : v / 4096 % 64 + 128 = b.toNat := by omega
  have hthird : v / 64 % 64 + 128 = c.toNat := by omega
  have hfourth : v % 64 + 128 = d.toNat := by omega
  simp only [String.utf8EncodeChar, hval]
  rw [if_neg (by omega), if_neg (by omega), if_neg (by omega), hfirst, hsecond, hthird, hfourth,
    UInt8.ofNat_toNat, UInt8.ofNat_toNat, UInt8.ofNat_toNat, UInt8.ofNat_toNat]

/-! ## The first character -/

/-- What a first character is read from are its bytes. -/
theorem eq_of_front {bs rest : List UInt8} {c : Char} {used : Nat}
    (h : front bs = .char c used rest) : bs = String.utf8EncodeChar c ++ rest := by
  revert h
  fun_cases front bs with
  | case2 a bs hw =>
    rintro ⟨⟩
    rw [encodeChar_one ((width_iff a).1.mp hw)]
    rfl
  | case4 a hw b bs hb =>
    rintro ⟨⟩
    rw [encodeChar_two ((width_iff a).2.1.mp hw) hb]
    rfl
  | case9 a hw b hb c bs hc =>
    rintro ⟨⟩
    rw [encodeChar_three ((width_iff a).2.2.1.mp hw) (by simpa using hb) hc]
    rfl
  | case16 a hw b hb c hc d bs hd =>
    rintro ⟨⟩
    rw [encodeChar_four ((width_iff a).2.2.2.mp hw) (by simpa using hb) (by simpa using hc) hd]
    rfl
  | _ => exact nofun

theorem eq_nil_of_front {bs : List UInt8} (h : front bs = .empty) : bs = [] := by
  revert h
  fun_cases front bs with
  | case1 => exact fun _ => rfl
  | _ => exact nofun

theorem front_one {a : UInt8} (ha : a.toNat ≤ 127) (rest : List UInt8) :
    front (a :: rest) = .char (Char.ofNat a.toNat) 1 rest := by
  simp [front, (width_iff a).1.mpr ha]

theorem front_two {a b : UInt8} (ha : 194 ≤ a.toNat ∧ a.toNat ≤ 223) (hb : isTail b = true)
    (rest : List UInt8) : front (a :: b :: rest) = .char (char2 a b) 2 rest := by
  simp [front, (width_iff a).2.1.mpr ha, hb]

theorem front_three {a b c : UInt8} (ha : 224 ≤ a.toNat ∧ a.toNat ≤ 239)
    (hb : isSecond a b = true) (hc : isTail c = true) (rest : List UInt8) :
    front (a :: b :: c :: rest) = .char (char3 a b c) 3 rest := by
  simp [front, (width_iff a).2.2.1.mpr ha, hb, hc]

theorem front_four {a b c d : UInt8} (ha : 240 ≤ a.toNat ∧ a.toNat ≤ 244)
    (hb : isSecond a b = true) (hc : isTail c = true) (hd : isTail d = true) (rest : List UInt8) :
    front (a :: b :: c :: d :: rest) = .char (char4 a b c d) 4 rest := by
  simp [front, (width_iff a).2.2.2.mpr ha, hb, hc, hd]

theorem toNat_byte {n : Nat} (h : n < 256) : (UInt8.ofNat n).toNat = n := by
  rw [UInt8.toNat_ofNat', Nat.mod_eq_of_lt h]

/-- The bytes of a character are read as it, whatever follows them. -/
theorem front_encodeChar (c : Char) (rest : List UInt8) :
    ∃ used, front (String.utf8EncodeChar c ++ rest) = .char c used rest := by
  have hvalid : c.val.toNat < 0xD800 ∨ 0xDFFF < c.val.toNat ∧ c.val.toNat < 0x110000 := c.valid
  have hself (n : Nat) (h : n = c.val.toNat) : Char.ofNat n = c := by
    rw [h]
    exact Char.ofNat_toNat c
  fun_cases String.utf8EncodeChar c with
  | case1 v h =>
    have ha : (UInt8.ofNat v).toNat = v := toNat_byte (by omega)
    refine ⟨1, (front_one (by omega) rest).trans ?_⟩
    rw [hself _ ha]
  | case2 v h _ =>
    have ha := toNat_byte (n := v / 64 % 32 + 192) (by omega)
    have hb := toNat_byte (n := v % 64 + 128) (by omega)
    refine ⟨2, (front_two (by omega) (by rw [isTail_iff]; omega) rest).trans ?_⟩
    rw [char2, ha, hb, hself _ (by omega)]
  | case3 v h _ _ =>
    have ha := toNat_byte (n := v / 4096 % 16 + 224) (by omega)
    have hb := toNat_byte (n := v / 64 % 64 + 128) (by omega)
    have hc := toNat_byte (n := v % 64 + 128) (by omega)
    refine ⟨3, (front_three (by omega) (by rw [isSecond_iff]; omega)
      (by rw [isTail_iff]; omega) rest).trans ?_⟩
    rw [char3, ha, hb, hc, hself _ (by omega)]
  | case4 v h _ _ =>
    have ha := toNat_byte (n := v / 262144 % 8 + 240) (by omega)
    have hb := toNat_byte (n := v / 4096 % 64 + 128) (by omega)
    have hc := toNat_byte (n := v / 64 % 64 + 128) (by omega)
    have hd := toNat_byte (n := v % 64 + 128) (by omega)
    refine ⟨4, (front_four (by omega) (by rw [isSecond_iff]; omega) (by rw [isTail_iff]; omega)
      (by rw [isTail_iff]; omega) rest).trans ?_⟩
    rw [char4, ha, hb, hc, hd, hself _ (by omega)]

/-! ## Texts -/

theorem decodeFrom_encode (start : Nat) (cs : List Char) :
    decodeFrom start (encode cs) = .ok cs := by
  induction cs generalizing start with
  | nil =>
    unfold decodeFrom
    rfl
  | cons c cs ih =>
    obtain ⟨used, hfront⟩ := front_encodeChar c (encode cs)
    rw [encode_cons]
    unfold decodeFrom
    split
    · rename_i h
      cases h.symm.trans hfront
    · rename_i h
      cases h.symm.trans hfront
    · rename_i h
      cases h.symm.trans hfront
      rw [ih]

theorem eq_encode_of_decodeFrom {start : Nat} {bs : List UInt8} {cs : List Char}
    (h : decodeFrom start bs = .ok cs) : bs = encode cs := by
  revert h
  fun_induction decodeFrom start bs generalizing cs with
  | case1 start bs hfront =>
    rintro ⟨⟩
    exact eq_nil_of_front hfront
  | case3 start bs c used rest hfront cs hrest ih =>
    rintro ⟨⟩
    rw [encode_cons, ← ih hrest]
    exact eq_of_front hfront
  | case2 | case4 => exact nofun

/-- Bytes are decoded to a text just when they are the bytes of it. -/
theorem decode_eq_ok_iff {bs : List UInt8} {cs : List Char} :
    decode bs = .ok cs ↔ bs = encode cs :=
  ⟨eq_encode_of_decodeFrom, fun h => h ▸ decodeFrom_encode 0 cs⟩

end LiveTrace.Utf8
