import TeenyTiny.Proofs.Decoding

/-! Valid UTF-8, by the bytes alone. One to four bytes make a character; which they are is told by
ranges of bytes, where long forms of short characters, surrogates and numbers beyond the last
character are left out. These are the bytes that characters are encoded by, so a text survives
decoding and encoding exactly when it is made of them. -/
namespace TeenyTiny.Text

/-- Is the byte in this range? -/
def Within (low high : Nat) (b : UInt8) : Prop := low ≤ b.toNat ∧ b.toNat ≤ high

/-- The bytes of one character. -/
inductive Sequence : Bytes → Prop
  | one {a : UInt8} (ha : Within 0x00 0x7F a) : Sequence [a]
  | two {a b : UInt8} (ha : Within 0xC2 0xDF a) (hb : Within 0x80 0xBF b) : Sequence [a,b]
  | three {a b c : UInt8} (ha : Within 0xE0 0xEF a) (hb : Within 0x80 0xBF b)
      (hc : Within 0x80 0xBF c) (short : a.toNat = 0xE0 → 0xA0 ≤ b.toNat)
      (surrogate : a.toNat = 0xED → b.toNat ≤ 0x9F) : Sequence [a,b,c]
  | four {a b c d : UInt8} (ha : Within 0xF0 0xF4 a) (hb : Within 0x80 0xBF b)
      (hc : Within 0x80 0xBF c) (hd : Within 0x80 0xBF d)
      (short : a.toNat = 0xF0 → 0x90 ≤ b.toNat) (large : a.toNat = 0xF4 → b.toNat ≤ 0x8F) :
      Sequence [a,b,c,d]

/-- Valid UTF-8: the bytes of one character after the other. -/
inductive IsUtf8 : Bytes → Prop
  | nil : IsUtf8 []
  | cons {p rest : Bytes} (hp : Sequence p) (hr : IsUtf8 rest) : IsUtf8 (p ++ rest)

section Sequences

/-- The digits of a character to the base of 64, and in front of them what tells their number. -/
theorem utf8EncodeChar_eq (c : Char) : String.utf8EncodeChar c =
    if c.toNat ≤ 0x7F then [UInt8.ofNat c.toNat]
    else if c.toNat ≤ 0x7FF then
      [UInt8.ofNat (c.toNat / 64 % 32 + 0xC0),UInt8.ofNat (c.toNat % 64 + 0x80)]
    else if c.toNat ≤ 0xFFFF then
      [UInt8.ofNat (c.toNat / 4096 % 16 + 0xE0),UInt8.ofNat (c.toNat / 64 % 64 + 0x80),
        UInt8.ofNat (c.toNat % 64 + 0x80)]
    else
      [UInt8.ofNat (c.toNat / 262144 % 8 + 0xF0),UInt8.ofNat (c.toNat / 4096 % 64 + 0x80),
        UInt8.ofNat (c.toNat / 64 % 64 + 0x80),UInt8.ofNat (c.toNat % 64 + 0x80)] := rfl

theorem within_ofNat {low high n : Nat} (hl : low ≤ n) (hh : n ≤ high) (h : high < 256) :
    Within low high (UInt8.ofNat n) := by
  rw [Within,UInt8.toNat_ofNat']
  omega

theorem within_tail (n : Nat) : Within 0x80 0xBF (UInt8.ofNat (n % 64 + 0x80)) :=
  within_ofNat (by omega) (by omega) (by omega)

/-- A character is encoded by a sequence. -/
theorem sequence_encode (c : Char) : Sequence (String.utf8EncodeChar c) := by
  have hv : c.toNat < 0xD800 ∨ 0xDFFF < c.toNat ∧ c.toNat < 0x110000 := c.valid
  rw [utf8EncodeChar_eq]
  generalize c.toNat = v at hv
  -- the side conditions of the longer forms are where `h₁`, `h₂`, `h₃` and the gap in `hv` are used
  split_ifs with h₁ h₂ h₃
  · exact .one (within_ofNat (by omega) h₁ (by omega))
  · exact .two (within_ofNat (by omega) (by omega) (by omega)) (within_tail v)
  · refine .three (within_ofNat (by omega) (by omega) (by omega)) (within_tail _) (within_tail v)
      ?_ ?_
    · intro he
      rw [UInt8.toNat_ofNat'] at he ⊢
      omega
    · intro he
      rw [UInt8.toNat_ofNat'] at he ⊢
      omega
  · refine .four (within_ofNat (by omega) (by omega) (by omega)) (within_tail _) (within_tail _)
      (within_tail v) ?_ ?_
    · intro he
      rw [UInt8.toNat_ofNat'] at he ⊢
      omega
    · intro he
      rw [UInt8.toNat_ofNat'] at he ⊢
      omega

theorem ofNat_eq {n : Nat} {b : UInt8} (h : n = b.toNat) : UInt8.ofNat n = b := by
  rw [h,UInt8.ofNat_toNat]

theorem exists_toNat {n : Nat} (h : n.isValidChar) : ∃ c : Char, c.toNat = n :=
  ⟨Char.ofNatAux n h,rfl⟩

/-- A sequence encodes a character. -/
theorem Sequence.exists_char {p : Bytes} (h : Sequence p) :
    ∃ c : Char, String.utf8EncodeChar c = p := by
  -- the number of the character is put together from what each byte holds above the least one
  cases h with
  | @one a ha =>
    obtain ⟨-,ha⟩ := ha
    obtain ⟨c,hc⟩ := exists_toNat (n := a.toNat) (by omega)
    refine ⟨c,?_⟩
    rw [utf8EncodeChar_eq,hc,if_pos ha,UInt8.ofNat_toNat]
  | @two a b ha hb =>
    obtain ⟨ha,ha'⟩ := ha
    obtain ⟨hb,hb'⟩ := hb
    obtain ⟨c,hc⟩ := exists_toNat (n := (a.toNat - 0xC0) * 64 + (b.toNat - 0x80)) (by omega)
    refine ⟨c,?_⟩
    rw [utf8EncodeChar_eq,hc,if_neg (by omega),if_pos (by omega),
      ofNat_eq (b := a) (by omega),ofNat_eq (b := b) (by omega)]
  | @three a b d ha hb hd short surrogate =>
    obtain ⟨ha,ha'⟩ := ha
    obtain ⟨hb,hb'⟩ := hb
    obtain ⟨hd,hd'⟩ := hd
    obtain ⟨c,hc⟩ := exists_toNat
      (n := (a.toNat - 0xE0) * 4096 + (b.toNat - 0x80) * 64 + (d.toNat - 0x80)) (by omega)
    refine ⟨c,?_⟩
    rw [utf8EncodeChar_eq,hc,if_neg (by omega),if_neg (by omega),if_pos (by omega),
      ofNat_eq (b := a) (by omega),ofNat_eq (b := b) (by omega),ofNat_eq (b := d) (by omega)]
  | @four a b d e ha hb hd he short large =>
    obtain ⟨ha,ha'⟩ := ha
    obtain ⟨hb,hb'⟩ := hb
    obtain ⟨hd,hd'⟩ := hd
    obtain ⟨he,he'⟩ := he
    obtain ⟨c,hc⟩ := exists_toNat (n := (a.toNat - 0xF0) * 262144 + (b.toNat - 0x80) * 4096 +
      (d.toNat - 0x80) * 64 + (e.toNat - 0x80)) (by omega)
    refine ⟨c,?_⟩
    rw [utf8EncodeChar_eq,hc,if_neg (by omega),if_neg (by omega),if_neg (by omega),
      ofNat_eq (b := a) (by omega),ofNat_eq (b := b) (by omega),ofNat_eq (b := d) (by omega),
      ofNat_eq (b := e) (by omega)]

end Sequences

section Validity
variable {b rest : Bytes}

theorem isUtf8_encode (cs : List Char) : IsUtf8 (encode cs) := by
  induction cs with
  | nil => exact .nil
  | cons c cs ih => exact .cons (sequence_encode c) ih

theorem IsUtf8.exists_chars (h : IsUtf8 b) : ∃ cs, encode cs = b := by
  induction h with
  | nil => exact ⟨[],rfl⟩
  | cons hp _ ih =>
    obtain ⟨c,rfl⟩ := hp.exists_char
    obtain ⟨cs,rfl⟩ := ih
    exact ⟨c :: cs,rfl⟩

/-- A text comes back from its characters exactly when it is valid. -/
theorem encode_decode_iff : encode (decode b) = b ↔ IsUtf8 b := by
  constructor
  · intro h
    rw [← h]
    exact isUtf8_encode _
  · intro h
    obtain ⟨cs,rfl⟩ := h.exists_chars
    rw [decode_encode]

/-- Behind a valid text a text is valid if it is so alone. -/
theorem IsUtf8.append_iff (h : IsUtf8 b) : IsUtf8 (b ++ rest) ↔ IsUtf8 rest := by
  obtain ⟨cs,rfl⟩ := h.exists_chars
  rw [← encode_decode_iff,← encode_decode_iff,decode_encode_append,encode_append,
    List.append_cancel_left_eq]

end Validity
end TeenyTiny.Text
