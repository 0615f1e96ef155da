import Mathlib.Data.List.Basic
import Mathlib.Data.Nat.Bitwise
import TeenyTiny.Source

/-! Characters in byte strings. A text begins with a character exactly when its bytes begin with
the bytes of that character; so decoding undoes encoding, and it may be done part by part where a
part begins with a byte below 0x80. -/
namespace TeenyTiny.Text

/-- The bytes of a character are read as that character. -/
theorem utf8DecodeChar?_eq_some {c : Char} {b : Bytes} (h : String.utf8EncodeChar c <+: b) :
    b.toByteArray.utf8DecodeChar? 0 = some c := by
  obtain ⟨rest,rfl⟩ := h
  rw [List.toByteArray_append]
  exact ByteArray.utf8DecodeChar?_utf8EncodeChar_append

theorem prefix_of_utf8DecodeChar? {c : Char} {b : Bytes}
    (h : b.toByteArray.utf8DecodeChar? 0 = some c) : String.utf8EncodeChar c <+: b := by
  obtain ⟨rest,hr⟩ := ByteArray.exists_of_utf8DecodeChar?_eq_some h
  refine ⟨rest.data.toList,?_⟩
  have hl := congrArg (fun bytes : ByteArray => bytes.data.toList) hr
  simpa using hl.symm

theorem utf8EncodeChar_ofUInt8 {b : UInt8} (hb : b < 0x80) :
    String.utf8EncodeChar (Char.ofUInt8 b) = [b] := by
  have hs : (Char.ofUInt8 b).utf8Size = 1 := by
    rw [Char.utf8Size_eq_one_iff,UInt32.le_iff_toNat_le]
    have hn : b.toNat < 128 := hb
    change b.toUInt32.toNat ≤ 127
    rw [UInt8.toNat_toUInt32]
    omega
  rw [String.utf8EncodeChar_eq_singleton hs]
  change [b.toUInt32.toUInt8] = [b]
  simp

/-- A text begins with a character exactly when it begins with its bytes. -/
theorem headChar?_eq_some_iff {b : Bytes} {c : Char} :
    headChar? b = some c ↔ String.utf8EncodeChar c <+: b := by
  cases b with
  | nil => simp [headChar?]
  | cons x rest =>
    rw [headChar?]
    split_ifs with hx
    · have hp : String.utf8EncodeChar (Char.ofUInt8 x) <+: x :: rest := by
        rw [utf8EncodeChar_ofUInt8 hx]
        exact ⟨rest,rfl⟩
      constructor
      · intro h
        exact Option.some.inj h ▸ hp
      · intro h
        exact (utf8DecodeChar?_eq_some hp).symm.trans (utf8DecodeChar?_eq_some h)
    · -- no character has more than four bytes
      have hlen : (String.utf8EncodeChar c).length ≤ 4 := by
        rw [String.length_utf8EncodeChar]
        exact c.utf8Size_le_four
      have ht : (x :: rest).take 4 = x :: rest.take 3 := rfl
      constructor
      · intro h
        exact (prefix_of_utf8DecodeChar? h).trans (ht ▸ List.take_prefix 4 _)
      · intro h
        exact utf8DecodeChar?_eq_some (ht ▸ List.prefix_take_iff.mpr ⟨h,hlen⟩)

theorem glyphsAfter_eq (skip : Nat) (found : List Glyph) (b : Bytes) :
    glyphsAfter skip found b = found.reverse ++ glyphs (b.drop skip) := by
  have hfound : ∀ (b : Bytes) (skip : Nat) (found : List Glyph),
      glyphsAfter skip found b = found.reverse ++ glyphsAfter skip [] b := by
    intro b
    induction b with
    | nil => simp [glyphsAfter]
    | cons x rest ih =>
      intro skip found
      cases skip with
      | succ skip => exact ih skip found
      | zero =>
        simp only [glyphsAfter]
        cases headChar? (x :: rest) with
        | none =>
          dsimp only
          rw [ih 0 (.stray x :: found),ih 0 [.stray x]]
          simp
        | some c =>
          dsimp only
          rw [ih (c.utf8Size - 1) (.char c :: found),ih (c.utf8Size - 1) [.char c]]
          simp
  induction b generalizing skip with
  | nil => simp [glyphs,glyphsAfter]
  | cons x rest ih =>
    cases skip with
    | zero => exact hfound _ _ _
    | succ skip => exact ih skip

@[simp] theorem decode_nil : decode [] = [] := rfl

/-- The first character of a text, with what is left of the text. -/
theorem glyphs_char_append (c : Char) (rest : Bytes) :
    glyphs (String.utf8EncodeChar c ++ rest) = .char c :: glyphs rest := by
  have hh : headChar? (String.utf8EncodeChar c ++ rest) = some c :=
    headChar?_eq_some_iff.mpr ⟨rest,rfl⟩
  have hl := String.length_utf8EncodeChar c
  cases he : String.utf8EncodeChar c with
  | nil => exact absurd he String.utf8EncodeChar_ne_nil
  | cons x tail =>
    rw [he,List.cons_append] at hh
    rw [he,List.length_cons] at hl
    rw [List.cons_append,glyphs,glyphsAfter]
    simp only [hh]
    rw [glyphsAfter_eq,show c.utf8Size - 1 = tail.length by omega,List.drop_left]
    rfl

theorem glyphs_encode (cs : List Char) : glyphs (encode cs) = cs.map .char := by
  induction cs with
  | nil => rfl
  | cons c cs ih => rw [encode_cons,glyphs_char_append,ih,List.map_cons]

theorem decode_char_append (c : Char) (rest : Bytes) :
    decode (String.utf8EncodeChar c ++ rest) = c :: decode rest := by
  rw [decode,glyphs_char_append]
  rfl

theorem decode_stray {x : UInt8} {rest : Bytes} (h : headChar? (x :: rest) = none) :
    decode (x :: rest) = replacement :: decode rest := by
  rw [decode,glyphs,glyphsAfter]
  simp only [h]
  rw [glyphsAfter_eq]
  simp [decode,Glyph.toChar]

/-- Decoding gives back the characters that were encoded. -/
theorem decode_encode_append (cs : List Char) (rest : Bytes) :
    decode (encode cs ++ rest) = cs ++ decode rest := by
  induction cs with
  | nil => rfl
  | cons c cs ih =>
    rw [encode_cons,List.append_assoc,decode_char_append,ih]
    rfl

theorem decode_encode (cs : List Char) : decode (encode cs) = cs := by
  simpa using decode_encode_append cs []

/-- A character that is read stands in the text, unless it stands for a stray byte. -/
theorem bytes_of_mem_decode {b : Bytes} {c : Char} (h : c ∈ decode b) (hc : c ≠ replacement) :
    String.utf8EncodeChar c <:+: b := by
  induction hn : b.length using Nat.strongRecOn generalizing b with
  | ind n ih =>
    cases b with
    | nil => cases h
    | cons x rest =>
      cases hh : headChar? (x :: rest) with
      | none =>
        rw [decode_stray hh,List.mem_cons,or_iff_right hc] at h
        exact (ih rest.length (by simp [← hn]) h rfl).trans (List.suffix_cons x rest).isInfix
      | some d =>
        obtain ⟨tail,ht⟩ := headChar?_eq_some_iff.mp hh
        rw [← ht] at h hn ⊢
        rw [decode_char_append,List.mem_cons] at h
        rcases h with rfl | h
        · exact (List.prefix_append _ _).isInfix
        · have hlt : tail.length < n := by
            have hpos := List.length_pos_iff.mpr (String.utf8EncodeChar_ne_nil (c := d))
            rw [List.length_append] at hn
            omega
          exact (ih tail.length hlt h rfl).trans (List.suffix_append _ _).isInfix

/-- Behind its first byte a character has no byte below 0x80. -/
theorem le_of_mem_tail {c : Char} {x y : UInt8} {tail : Bytes}
    (he : String.utf8EncodeChar c = x :: tail) (hy : y ∈ tail) : 0x80 ≤ y := by
  obtain ⟨i,hi,rfl⟩ := List.getElem_of_mem hy
  have hf : ∀ (b : Bytes) (hb : i + 1 < b.length), String.utf8EncodeChar c = b →
      ¬ b[i + 1].IsUTF8FirstByte := by
    rintro b hb rfl hf
    cases UInt8.isUTF8FirstByte_getElem_utf8EncodeChar.mp hf
  have hne := hf (x :: tail) (by simpa using hi) he
  rw [List.getElem_cons_succ] at hne
  by_contra hlt
  have hn : tail[i].toNat < 128 := by
    simpa [UInt8.le_iff_toNat_le] using hlt
  refine hne (.inl (UInt8.toNat_inj.mp ?_))
  rw [UInt8.toNat_and]
  change tail[i].toNat &&& 2 ^ 7 = 0
  rw [Nat.and_two_pow,Nat.testBit_lt_two_pow (by omega)]
  rfl

/-- What follows a byte below 0x80 does not change what stands before it. -/
theorem prefix_append_iff {c : Char} {x y : UInt8} {b rest : Bytes} (hy : y < 0x80) :
    String.utf8EncodeChar c <+: x :: b ++ y :: rest ↔ String.utf8EncodeChar c <+: x :: b := by
  constructor
  · intro h
    rcases List.prefix_or_prefix_of_prefix h (List.prefix_append _ _) with h' | ⟨more,he⟩
    · exact h'
    · cases more with
      | nil => simp [← he]
      | cons z more =>
        have hz : z = y := by
          rw [← he,List.prefix_append_right_inj,List.cons_prefix_cons] at h
          exact h.1
        have hle := le_of_mem_tail he.symm (y := z) (by simp)
        rw [hz] at hle
        exact absurd hle (by simpa using hy)
  · intro h
    exact h.trans (List.prefix_append _ _)

/-- Decoding may stop in front of a byte below 0x80 and go on there. -/
theorem decode_append_of_lt {y : UInt8} (hy : y < 0x80) (b rest : Bytes) :
    decode (b ++ y :: rest) = decode b ++ decode (y :: rest) := by
  induction hn : b.length using Nat.strongRecOn generalizing b with
  | ind n ih =>
    cases b with
    | nil => rfl
    | cons x b =>
      cases hc : headChar? (x :: b) with
      | none =>
        have hc' : headChar? (x :: (b ++ y :: rest)) = none := by
          rw [Option.eq_none_iff_forall_ne_some] at hc ⊢
          intro c h
          exact hc c (headChar?_eq_some_iff.mpr ((prefix_append_iff hy).mp
            (headChar?_eq_some_iff.mp h)))
        rw [List.cons_append,decode_stray hc',decode_stray hc,
          ih b.length (by simp [← hn]) b rfl]
        rfl
      | some c =>
        obtain ⟨more,he⟩ := headChar?_eq_some_iff.mp hc
        have hl : more.length < n := by
          have hpos := c.utf8Size_pos
          rw [← hn,← he,List.length_append,String.length_utf8EncodeChar]
          omega
        rw [← he,List.append_assoc,decode_char_append,decode_char_append,ih more.length hl more rfl]
        rfl

theorem decode_cons_of_lt {y : UInt8} (hy : y < 0x80) (rest : Bytes) :
    decode (y :: rest) = Char.ofUInt8 y :: decode rest := by
  have h := decode_char_append (Char.ofUInt8 y) rest
  rw [utf8EncodeChar_ofUInt8 hy] at h
  exact h

/-- Decoding may be done part by part where a byte below 0x80 begins or ends a part. -/
theorem decode_append_of_boundary {b rest : Bytes}
    (h : (∃ y ∈ b.getLast?, y < 0x80) ∨ ∃ y ∈ rest.head?, y < 0x80) :
    decode (b ++ rest) = decode b ++ decode rest := by
  rcases h with ⟨y,hb,hy⟩ | ⟨y,hr,hy⟩
  · obtain ⟨front,rfl⟩ := List.getLast?_eq_some_iff.mp hb
    rw [List.append_assoc,List.singleton_append,decode_append_of_lt hy,decode_append_of_lt hy,
      decode_cons_of_lt hy,decode_cons_of_lt hy,List.append_assoc]
    rfl
  · obtain ⟨back,rfl⟩ := List.head?_eq_some_iff.mp hr
    exact decode_append_of_lt hy b back

theorem decode_endLine (b : Bytes) : ∃ cs, decode (endLine b) = cs ++ ['\n'] := by
  have hfeed : ∀ b : Bytes, decode (b ++ [10]) = decode b ++ ['\n'] := fun b =>
    decode_append_of_lt (y := 10) (by decide) b []
  unfold endLine
  split_ifs with h
  · obtain ⟨b,rfl⟩ := List.getLast?_eq_some_iff.mp h
    exact ⟨_,hfeed b⟩
  · exact ⟨_,hfeed b⟩

end TeenyTiny.Text

namespace TeenyTiny
open Text

/-- The last character of a source that is not empty is a line feed. -/
theorem decode_preprocess (src : Bytes) :
    decode (preprocess src) = [] ∨ ∃ cs, decode (preprocess src) = cs ++ ['\n'] := by
  unfold preprocess
  dsimp only
  split_ifs
  · exact .inl rfl
  · exact .inr (decode_endLine _)

end TeenyTiny
