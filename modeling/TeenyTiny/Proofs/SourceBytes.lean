import TeenyTiny.Proofs.Seam
import TeenyTiny.Proofs.Snippets
import TeenyTiny.Proofs.Utf8

/-! Bytes of sources and of their translations. The lexer sees characters, and what it does not
understand as UTF-8 it sees as U+FFFD; so a translation is valid UTF-8 whatever the source is, and
in a valid source the tokens are found byte for byte. -/
namespace TeenyTiny
open Text Lexer

namespace Text

/-- A line feed is written only for one. -/
theorem mem_of_mem_encode {cs : List Char} (h : 10 ∈ encode cs) : '\n' ∈ cs := by
  obtain ⟨b,rest,he⟩ := List.append_of_mem h
  rw [← decode_encode cs,he,decode_append_feed]
  simp

/-- Characters fall into the lines that their bytes fall into. -/
theorem splitOn_encode (cs : List Char) :
    splitOn 10 (encode cs) = (splitOn '\n' cs).map encode := by
  induction cs using parts_induction '\n' with
  | last line hl =>
    rw [splitOn_of_not_mem hl,splitOn_of_not_mem (mt mem_of_mem_encode hl)]
    rfl
  | more line rest hl ih =>
    have he : encode (line ++ '\n' :: rest) = encode line ++ 10 :: encode rest := encode_append _ _
    rw [splitOn_append_cons hl,he,splitOn_append_cons (mt mem_of_mem_encode hl),ih]
    rfl

/-- What stands among the characters of a valid text stands among its bytes. -/
theorem IsUtf8.infix_bytes {b : Bytes} (h : IsUtf8 b) {cs : List Char} (hc : cs <:+: decode b) :
    encode cs <:+: b := by
  obtain ⟨xs,ys,he⟩ := hc
  refine ⟨encode xs,encode ys,?_⟩
  rw [← encode_append,← encode_append,he]
  exact encode_decode_iff.mpr h

end Text

section Preprocessing
variable {src : Bytes}

theorem unmarked_suffix (src : Bytes) : unmarked src <:+ src := by
  by_cases hm : mark <+: src
  · obtain ⟨rest,rfl⟩ := hm
    exact List.suffix_append mark rest
  · exact ⟨[],unmarked_eq_self hm⟩

theorem isUtf8_unmarked (h : IsUtf8 src) : IsUtf8 (unmarked src) := by
  by_cases hm : mark <+: src
  · obtain ⟨rest,rfl⟩ := hm
    have hmark : IsUtf8 mark := isUtf8_encode [Char.ofNat 0xFEFF]
    exact hmark.append_iff.mp h
  · rwa [unmarked_eq_self hm]

theorem isUtf8_preprocess (h : IsUtf8 src) : IsUtf8 (preprocess src) := by
  rw [preprocess_eq,ended,endLine]
  split_ifs
  · exact .nil
  · exact isUtf8_unmarked h
  · exact (isUtf8_unmarked h).append_iff.mpr (isUtf8_encode ['\n'])

/-- What is found in a source that is made ready for the lexer was there before, unless it is the
line feed at its end. -/
theorem infix_of_preprocess {p : Bytes} (hp : 10 ∉ p) (h : p <:+: preprocess src) : p <:+: src := by
  refine .trans ?_ (unmarked_suffix src).isInfix
  rw [preprocess_eq,ended,endLine] at h
  split_ifs at h with hb hl
  · rwa [hb]
  · exact h
  · -- behind the last line only a line feed was added, and `p` does not reach it
    rcases List.infix_concat_iff.mp h with h | h
    · rcases List.suffix_concat_iff.mp h with rfl | ⟨front,rfl,-⟩
      · exact List.nil_infix
      · exact absurd (by simp) hp
    · exact h

end Preprocessing

theorem Piece.infix_spelling (p : Piece) : p.lexeme <:+: p.spelling := by
  unfold spelling
  split_ifs
  · exact ⟨['"'],['"'],by simp⟩
  · exact List.infix_refl _

namespace Cursor
variable {source : List Char} {cursor : Cursor} {t : Token}

/-- A token is found among the characters of its source. -/
theorem Reached.infix_source (h : Reached source cursor) (ht : cursor.next.1 = .ok t) :
    t.lexeme <:+: source := by
  by_cases hk : t.kind = .eof
  · obtain ⟨rfl,-,-⟩ := next_eof ht hk
    exact List.nil_infix
  · obtain ⟨before,hs,-⟩ := h.exists_before ht hk
    have hi : t.lexeme <:+: t.piece.spelling := t.piece.infix_spelling
    rw [hs]
    exact hi.trans ⟨before,cursor.next.2.rest,List.append_assoc _ _ _⟩

/-- Only the line feed token holds a line feed. -/
theorem not_mem_lexeme (ht : cursor.next.1 = .ok t) (hn : t.kind ≠ .newline) :
    '\n' ∉ t.lexeme := by
  by_cases hk : t.kind = .eof
  · obtain ⟨rfl,-,-⟩ := next_eof ht hk
    exact List.not_mem_nil
  · have hv := (wellFormed_next (next_of_ok ht)).visible hk hn
    intro hm
    exact hv.feedless (t.piece.infix_spelling.subset hm)

end Cursor

/-- Bytes come back from their characters exactly when they are valid UTF-8. A translation always
is, and the tokens of a source that is are found in it byte for byte. -/
theorem text_conversions_agree :
    (∀ p rest : Bytes, Sequence p →
      ∃ c : Char, String.utf8EncodeChar c = p ∧ decode (p ++ rest) = c :: decode rest) ∧
    (∀ (x : UInt8) (rest : Bytes), (∀ p, Sequence p → ¬ p <+: x :: rest) →
      decode (x :: rest) = Char.ofNat 0xFFFD :: decode rest) ∧
    (∀ b : Bytes, encode (decode b) = b ↔ IsUtf8 b) ∧
    (∀ cs : List Char, decode (encode cs) = cs) ∧
    (∀ b rest : Bytes, ((∃ y ∈ b.getLast?, y < 0x80) ∨ ∃ y ∈ rest.head?, y < 0x80) →
      decode (b ++ rest) = decode b ++ decode rest) ∧
    (∀ b : Bytes, splitOn '\n' (decode b) = (splitOn 10 b).map decode) ∧
    (∀ cs : List Char, splitOn 10 (encode cs) = (splitOn '\n' cs).map encode) ∧
    (∀ src text : Bytes, (compileText src).2 = .ok text → IsUtf8 text) ∧
    (∀ (b : Bytes) (cursor : Cursor) (t : Token), IsUtf8 b → Cursor.Reached (decode b) cursor →
      cursor.next.1 = .ok t → t.text <:+: b) ∧
    ∀ (src : Bytes) (cursor : Cursor) (t : Token), IsUtf8 src →
      Cursor.Reached (decode (preprocess src)) cursor → cursor.next.1 = .ok t →
      t.kind ≠ .newline → t.text <:+: src := by
  refine ⟨?_,?_,fun b => encode_decode_iff,decode_encode,fun b rest => decode_append_of_boundary,
    splitOn_decode,splitOn_encode,?_,?_,?_⟩
  · intro p rest hp
    obtain ⟨c,rfl⟩ := hp.exists_char
    exact ⟨c,rfl,decode_char_append c rest⟩
  · intro x rest hx
    apply decode_stray
    rw [Option.eq_none_iff_forall_ne_some]
    intro c hc
    exact hx _ (sequence_encode c) (headChar?_eq_some_iff.mp hc)
  · intro src text h
    obtain ⟨us,b,-,-,-,rfl⟩ := compileText_ok_iff.mp h
    exact isUtf8_encode _
  · intro b cursor t hb h ht
    exact hb.infix_bytes (h.infix_source ht)
  · intro src cursor t hs h ht hn
    apply infix_of_preprocess
    · exact mt mem_of_mem_encode (Cursor.not_mem_lexeme ht hn)
    · exact (isUtf8_preprocess hs).infix_bytes (h.infix_source ht)

/-- A surrogate, a byte in a string that is part of no character, and a string in a source with a
byte order mark and no line feed at its end. -/
theorem text_conversions_of_strays :
    let surrogate : Bytes := [0xA0,0x80]
    let stray : Bytes := ofString "PRINT \"" ++ [0xFF] ++ ofString "\""
    let text : Bytes :=
      "#include <stdio.h>\nint main(void)\x7b\nprintf(\"\uFFFD\\n\");\nreturn 0;\n\x7d\n"
    let src : Bytes := mark ++ "PRINT \"né\""
    let cursor := (Cursor.start (decode (preprocess src))).after 1
    let t : Token := ⟨.string,"né".toList,1⟩
    Sequence [0xC3,0xA9] ∧
      (∃ c : Char, String.utf8EncodeChar c = [0xC3,0xA9] ∧
        decode ([0xC3,0xA9] ++ surrogate) = c :: decode surrogate) ∧
      decode (0xED :: surrogate) = Char.ofNat 0xFFFD :: decode surrogate ∧
      decode (surrogate ++ ofString "\n") = decode surrogate ++ decode "\n" ∧
      (compileText stray).2 = .ok text ∧ IsUtf8 text ∧ IsUtf8 src ∧
      Cursor.Reached (decode (preprocess src)) cursor ∧ cursor.next.1 = .ok t ∧
      t.text <:+: preprocess src ∧ t.text <:+: src := by
  intro surrogate stray text src cursor t
  have hp : Sequence [0xC3,0xA9] := sequence_encode 'é'
  have hs : ∀ p, Sequence p → ¬ p <+: 0xED :: surrogate := by
    intro p hp hpre
    cases hp with
    | one ha =>
      obtain ⟨rfl,-⟩ := List.cons_prefix_cons.mp hpre
      exact absurd ha.2 (by decide)
    | two ha =>
      obtain ⟨rfl,-⟩ := List.cons_prefix_cons.mp hpre
      exact absurd ha.2 (by decide)
    | three _ _ _ _ hsurrogate =>
      obtain ⟨rfl,htail⟩ := List.cons_prefix_cons.mp hpre
      obtain ⟨rfl,-⟩ := List.cons_prefix_cons.mp htail
      exact absurd (hsurrogate rfl) (by decide)
    | four ha =>
      obtain ⟨rfl,-⟩ := List.cons_prefix_cons.mp hpre
      exact absurd ha.1 (by decide)
  have hc : (compileText stray).2 = .ok text := ok_of_toOption (by decide +kernel)
  have hu : IsUtf8 src := isUtf8_encode (Char.ofNat 0xFEFF :: "PRINT \"né\"".toList)
  have hr : Cursor.Reached (decode (preprocess src)) cursor := Cursor.reached_after _ 1
  have ht : cursor.next.1 = .ok t := by decide +kernel
  obtain ⟨h₁,h₂,-,-,h₃,-,-,h₄,h₅,h₆⟩ := text_conversions_agree
  exact ⟨hp,h₁ _ surrogate hp,h₂ _ _ hs,h₃ _ _ (.inr ⟨10,rfl,by decide⟩),hc,h₄ _ _ hc,hu,hr,ht,
    h₅ _ _ _ (isUtf8_preprocess hu) hr ht,h₆ _ _ _ hu hr ht (by decide)⟩

end TeenyTiny
