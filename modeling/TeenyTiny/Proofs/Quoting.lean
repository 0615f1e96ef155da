import TeenyTiny.Proofs.SourceLines

/-! Quoted names. Letters and digits are printable, so a name stands between its quotes as it is,
and a message that quotes a name shows it to the reader unchanged. -/
namespace TeenyTiny
open Text Lexer

namespace Text

section Tables
variable {table part : Ranges} {n : Nat}

theorem Ranges.contains_of_mem (hs : (table.map Prod.fst).Pairwise (· ≤ ·)) {range : Nat × Nat}
    (hm : range ∈ table) (hlo : range.1 ≤ n) (hhi : n ≤ range.2) : table.contains n = true := by
  induction table with
  | nil => cases hm
  | cons first table ih =>
    rw [List.map_cons,List.pairwise_cons] at hs
    obtain ⟨lo,hi⟩ := first
    rw [contains]
    rcases List.mem_cons.mp hm with rfl | hm
    · rw [if_neg (Nat.not_lt.mpr hlo),decide_eq_true hhi,Bool.true_or]
    · have hle : lo ≤ range.1 := hs.1 _ (List.mem_map_of_mem hm)
      rw [if_neg (by omega),ih hs.2 hm,Bool.or_true]

/-- What is left of a table when the ranges that lie in those of another one are taken off in
passing. -/
def Ranges.leftBy (table part : Ranges) : Ranges :=
  table.foldl (fun left range => left.dropWhile fun r => range.1 ≤ r.1 && r.2 ≤ range.2) part

theorem Ranges.exists_of_leftBy (h : table.leftBy part = []) {r : Nat × Nat} (hr : r ∈ part) :
    ∃ range ∈ table, range.1 ≤ r.1 ∧ r.2 ≤ range.2 := by
  induction table generalizing part with
  | nil =>
    obtain rfl : part = [] := h
    cases hr
  | cons range table ih =>
    rw [← List.takeWhile_append_dropWhile (l := part)
      (p := fun r => range.1 ≤ r.1 && r.2 ≤ range.2),List.mem_append] at hr
    rcases hr with hr | hr
    · have hp := List.mem_takeWhile_imp hr
      rw [Bool.and_eq_true,decide_eq_true_eq,decide_eq_true_eq] at hp
      exact ⟨range,List.mem_cons_self,hp⟩
    · obtain ⟨range,hm,hr⟩ := ih h hr
      exact ⟨range,List.mem_cons_of_mem _ hm,hr⟩

theorem Ranges.contains_of_leftBy (hs : (table.map Prod.fst).Pairwise (· ≤ ·))
    (h : table.leftBy part = []) (hn : part.contains n = true) : table.contains n = true := by
  obtain ⟨r,hr,hlo,hhi⟩ := exists_of_contains hn
  obtain ⟨range,hm,hlo',hhi'⟩ := exists_of_leftBy h hr
  exact contains_of_mem hs hm (by omega) (by omega)

end Tables

theorem pairwise_printableRanges : (printableRanges.map Prod.fst).Pairwise (· ≤ ·) := by
  rw [← List.isChain_iff_pairwise]
  decide +kernel

theorem isPrintable_of_isAlpha {c : Char} (h : c.isAlpha = true) :
    (0x20 ≤ c.toNat && c.toNat < 0x7f) = true := by
  have hc : c.val.toNat = c.toNat := rfl
  change (decide (65 ≤ c.val ∧ c.val ≤ 90) ||
    decide (97 ≤ c.val) && decide (c.val ≤ 122)) = true at h
  simp [UInt32.le_iff_toNat_le] at h ⊢
  omega

theorem isPrintable_of_isLetter {c : Char} (h : isLetter c = true) : isPrintable c = true := by
  unfold isLetter at h
  unfold isPrintable
  split_ifs at h ⊢ with hc
  · exact isPrintable_of_isAlpha h
  · exact Ranges.contains_of_leftBy pairwise_printableRanges (by decide +kernel) h

theorem isPrintable_of_isDecimalDigit {c : Char} (h : isDecimalDigit c = true) :
    isPrintable c = true := by
  unfold isDecimalDigit at h
  unfold isPrintable
  split_ifs at h ⊢ with hc
  · have hn := le_of_isDigit h
    rw [Bool.and_eq_true,decide_eq_true_eq,decide_eq_true_eq]
    omega
  · exact Ranges.contains_of_leftBy pairwise_printableRanges (by decide +kernel) h

/-- Characters of a word stand for themselves in quotes. -/
theorem quoteChar_of_isWordChar {c : Char} (h : isWordChar c = true) : quoteChar '"' c = [c] := by
  have hp : isPrintable c = true := by
    rcases (Bool.or_eq_true _ _).mp h with h | h
    · exact isPrintable_of_isLetter h
    · exact isPrintable_of_isDecimalDigit h
  have hne : ¬(c = '"' ∨ c = '\\') := by
    rintro (rfl | rfl) <;> cases h
  rw [quoteChar,if_neg hne,if_pos hp]

theorem quoted_of_isWordChar {cs : List Char} (h : ∀ c ∈ cs, isWordChar c = true) :
    quoted (encode cs) = "\"" ++ encode cs ++ "\"" := by
  have hq : (cs.map Glyph.char).flatMap (quoteGlyph '"') = cs := by
    rw [List.flatMap_map]
    refine (List.flatMap_congr fun c hc => ?_).trans (List.flatMap_singleton' cs)
    exact quoteChar_of_isWordChar (h c hc)
  rw [quoted,glyphs_encode,hq,encode_append]
  rfl

end Text

theorem IsWord.quoted_encode {cs : List Char} (h : IsWord cs) :
    quoted (encode cs) = "\"" ++ encode cs ++ "\"" := quoted_of_isWordChar h.isWordChar

end TeenyTiny
