import TeenyTiny.Proofs.Printing

/-! The lines of a text. A text falls into one line more than it has line feeds, and its bytes fall
into the lines that its characters fall into. What stands in a text and holds no line feed stands in
one line of it, and there it outlives the trimming if no blank begins or ends it, as is so for every
token. -/
namespace TeenyTiny
open Text Lexer

namespace Text

section Parts
variable {α : Type} [DecidableEq α] {sep : α} {l : List α}

theorem splitOn_cons_self (l : List α) : splitOn sep (sep :: l) = [] :: splitOn sep l := by
  simp [splitOn]

theorem splitOn_cons_of_ne {a : α} (h : a ≠ sep) {part : List α} {parts : List (List α)}
    (hl : splitOn sep l = part :: parts) : splitOn sep (a :: l) = (a :: part) :: parts := by
  unfold splitOn at hl ⊢
  rw [List.foldr_cons,if_neg h,hl]

/-- A text without separators is one part. -/
theorem splitOn_of_not_mem (h : sep ∉ l) : splitOn sep l = [l] := by
  induction l with
  | nil => rfl
  | cons a l ih =>
    rw [List.mem_cons,not_or] at h
    exact splitOn_cons_of_ne (Ne.symm h.1) (ih h.2)

/-- The first part ends in front of the first separator. -/
theorem splitOn_append_cons (h : sep ∉ l) (rest : List α) :
    splitOn sep (l ++ sep :: rest) = l :: splitOn sep rest := by
  induction l with
  | nil => exact splitOn_cons_self rest
  | cons a l ih =>
    rw [List.mem_cons,not_or] at h
    exact splitOn_cons_of_ne (Ne.symm h.1) (ih h.2)

/-- An induction over the parts of a text: it is one part, or it goes on behind the separator that
ends the first. -/
theorem parts_induction (sep : α) {motive : List α → Prop} (last : ∀ l, sep ∉ l → motive l)
    (more : ∀ first rest, sep ∉ first → motive rest → motive (first ++ sep :: rest))
    (l : List α) : motive l := by
  induction hn : l.length using Nat.strongRecOn generalizing l with
  | ind n ih =>
    by_cases hm : sep ∈ l
    · obtain ⟨first,rest,rfl,hf⟩ := List.eq_append_cons_of_mem hm
      refine more first rest hf (ih rest.length ?_ rest rfl)
      rw [← hn,List.length_append,List.length_cons]
      omega
    · exact last l hm

/-- There is one part more than there are separators. -/
theorem length_splitOn (sep : α) (l : List α) : (splitOn sep l).length = 1 + l.count sep := by
  induction l using parts_induction sep with
  | last l hl =>
    rw [splitOn_of_not_mem hl,List.count_eq_zero.mpr hl]
    rfl
  | more first rest hf ih =>
    rw [splitOn_append_cons hf,List.length_cons,ih,List.count_append,
      List.count_eq_zero.mpr hf,List.count_cons_self]
    omega

end Parts

theorem Ranges.exists_of_contains {table : Ranges} {n : Nat} (h : table.contains n = true) :
    ∃ range ∈ table, range.1 ≤ n ∧ n ≤ range.2 := by
  induction table with
  | nil => cases h
  | cons range table ih =>
    obtain ⟨lo,hi⟩ := range
    rw [contains] at h
    split_ifs at h with hlo
    rcases (Bool.or_eq_true _ _).mp h with h | h
    · exact ⟨_,List.mem_cons_self,Nat.not_lt.mp hlo,of_decide_eq_true h⟩
    · obtain ⟨range,hm,hr⟩ := ih h
      exact ⟨range,List.mem_cons_of_mem _ hm,hr⟩

/-- Every code point of a table, one by one. -/
def Ranges.codes (table : Ranges) : List Nat :=
  table.flatMap fun range => List.range' range.1 (range.2 + 1 - range.1)

theorem Ranges.mem_codes {table : Ranges} {n : Nat} (h : table.contains n = true) :
    n ∈ table.codes := by
  obtain ⟨range,hm,hlo,hhi⟩ := exists_of_contains h
  refine List.mem_flatMap.mpr ⟨range,hm,?_⟩
  rw [List.mem_range'_1]
  omega

/-- A class of characters without blanks; the blanks are few enough to look at each of them. -/
theorem isBlank_eq_false {p : Char → Bool}
    (hall : blankRanges.codes.all (fun n => !p (Char.ofNat n)) = true) {c : Char}
    (h : p c = true) : isBlank c = false := by
  rw [← Bool.not_eq_true]
  intro hb
  have hn := List.all_eq_true.mp hall _ (Ranges.mem_codes hb)
  rw [Char.ofNat_toNat,h] at hn
  cases hn

section Trim
variable {α : Type} {p : α → Bool} {mid : List α}

/-- Dropping stops at the latest in front of a part whose first element is kept. -/
theorem dropWhile_append_kept (hh : ∃ a ∈ mid.head?, p a = false) (xs ys : List α) :
    ∃ zs, (xs ++ (mid ++ ys)).dropWhile p = zs ++ (mid ++ ys) := by
  induction xs with
  | nil =>
    obtain ⟨a,ha,hp⟩ := hh
    obtain ⟨as,rfl⟩ := List.head?_eq_some_iff.mp ha
    exact ⟨[],List.dropWhile_cons_of_neg (by simp [hp])⟩
  | cons x xs ih =>
    by_cases hx : p x = true
    · rw [List.cons_append,List.dropWhile_cons_of_pos hx]
      exact ih
    · exact ⟨x :: xs,List.dropWhile_cons_of_neg hx⟩

/-- Trimming keeps a part whose first and last elements are kept. -/
theorem infix_trimBoth (hh : ∃ a ∈ mid.head?, p a = false) (hl : ∃ a ∈ mid.getLast?, p a = false)
    (xs ys : List α) : mid <:+: trimBoth p (xs ++ (mid ++ ys)) := by
  obtain ⟨us,hu⟩ := dropWhile_append_kept hh xs ys
  -- the other end is trimmed in the same way, on the reversed list
  rw [← List.head?_reverse] at hl
  obtain ⟨vs,hv⟩ := dropWhile_append_kept hl ys.reverse us.reverse
  refine ⟨us,vs.reverse,?_⟩
  have hr : (us ++ (mid ++ ys)).reverse = ys.reverse ++ (mid.reverse ++ us.reverse) := by simp
  rw [trimBoth,hu,hr,hv]
  simp

/-- What is left of a list when the elements at both ends that satisfy `p` are taken away. -/
structure Trimmed (p : α → Bool) (l text : List α) : Prop where
  split : ∃ front back, l = front ++ text ++ back ∧ ∀ a ∈ front ++ back, p a = true
  head : ∀ a ∈ text.head?, p a = false
  last : ∀ a ∈ text.getLast?, p a = false

theorem trimmed_trimBoth (p : α → Bool) (l : List α) : Trimmed p l (trimBoth p l) := by
  have hfront := (List.takeWhile_append_dropWhile (p := p) (l := l)).symm
  have hhead := head_dropWhile p l
  unfold trimBoth
  generalize l.dropWhile p = m at hfront hhead
  have hback := congrArg List.reverse
    (List.takeWhile_append_dropWhile (p := p) (l := m.reverse)).symm
  rw [List.reverse_reverse,List.reverse_append] at hback
  refine ⟨⟨l.takeWhile p,(m.reverse.takeWhile p).reverse,?_,?_⟩,?_,?_⟩
  · rw [List.append_assoc,← hback]
    exact hfront
  · intro a ha
    rcases List.mem_append.mp ha with ha | ha
    · exact List.mem_takeWhile_imp ha
    · exact List.mem_takeWhile_imp (List.mem_reverse.mp ha)
  · -- the text begins where `m` begins
    intro a ha
    refine hhead a ?_
    rw [hback]
    exact List.mem_head?_append_of_mem_head? ha
  · rw [List.getLast?_reverse]
    exact head_dropWhile p m.reverse

end Trim

section Decoding

/-- A line feed is read only where one stands. -/
theorem not_mem_decode {b : Bytes} (h : 10 ∉ b) : '\n' ∉ decode b := by
  intro hm
  exact h ((bytes_of_mem_decode hm (by decide)).subset (List.mem_singleton_self 10))

theorem decode_append_feed (b rest : Bytes) :
    decode (b ++ 10 :: rest) = decode b ++ '\n' :: decode rest := by
  rw [decode_append_of_lt (by decide)]
  exact congrArg _ (decode_char_append '\n' rest)

/-- The bytes of a text fall into the lines that its characters fall into. -/
theorem splitOn_decode (b : Bytes) : splitOn '\n' (decode b) = (splitOn 10 b).map decode := by
  induction b using parts_induction (10 : UInt8) with
  | last b hb =>
    rw [splitOn_of_not_mem (not_mem_decode hb),splitOn_of_not_mem hb]
    rfl
  | more first rest hf ih =>
    rw [decode_append_feed,splitOn_append_cons (not_mem_decode hf),splitOn_append_cons hf,ih]
    rfl

end Decoding
end Text

section Lines
variable {source mid : List Char}

/-- The line behind so many line feeds is the part behind so many separators. -/
theorem lineAfter?_eq (source : List Char) (feeds : Nat) :
    lineAfter? feeds source = (splitOn '\n' source)[feeds]? := by
  have hline : ∀ {line : List Char}, '\n' ∉ line → ∀ c ∈ line, decide (c ≠ '\n') = true := by
    intro line hl c hc
    rw [decide_eq_true_eq]
    rintro rfl
    exact hl hc
  induction source using parts_induction '\n' generalizing feeds with
  | last line hl =>
    have hs := dropWhile_append_stop (r := []) (hline hl) (by simp)
    have ht := takeWhile_append_stop (r := []) (hline hl) (by simp)
    rw [List.append_nil] at hs ht
    rw [splitOn_of_not_mem hl]
    cases feeds with
    | zero => rw [lineAfter?,ht]; rfl
    | succ feeds => rw [lineAfter?,hs]; rfl
  | more line rest hl ih =>
    have hr : ∀ c ∈ ('\n' :: rest).head?, decide (c ≠ '\n') = false := by simp
    rw [splitOn_append_cons hl]
    cases feeds with
    | zero => rw [lineAfter?,takeWhile_append_stop (hline hl) hr]; rfl
    | succ feeds =>
      rw [lineAfter?,dropWhile_append_stop (hline hl) hr]
      exact ih feeds

theorem sourceLine_of_getElem? {feeds : Nat} {line : List Char}
    (h : (splitOn '\n' source)[feeds]? = some line) :
    sourceLine source (1 + feeds : Nat) = encode (trimChars line) := by
  rw [sourceLine,if_neg (by omega),Int.toNat_natCast,Nat.add_sub_cancel_left,lineAfter?_eq,h]

/-- What holds no line feed stands in one line. -/
theorem exists_line (before after : List Char) (hm : '\n' ∉ mid) : ∃ xs ys,
    (splitOn '\n' (before ++ (mid ++ after)))[before.count '\n']? = some (xs ++ (mid ++ ys)) := by
  induction before using parts_induction '\n' with
  | last line hl =>
    rw [List.count_eq_zero.mpr hl]
    -- the line of `mid` goes on up to the first line feed behind it
    by_cases ha : '\n' ∈ after
    · obtain ⟨tail,rest,rfl,ht⟩ := List.eq_append_cons_of_mem ha
      have hs : line ++ (mid ++ (tail ++ '\n' :: rest)) =
          line ++ (mid ++ tail) ++ '\n' :: rest := by simp
      rw [hs,splitOn_append_cons (by simp [hl,hm,ht])]
      exact ⟨line,tail,rfl⟩
    · rw [splitOn_of_not_mem (by simp [hl,hm,ha])]
      exact ⟨line,after,rfl⟩
  | more line rest hl ih =>
    rw [List.append_assoc,List.cons_append,splitOn_append_cons hl,List.count_append,
      List.count_eq_zero.mpr hl,List.count_cons_self,Nat.zero_add]
    exact ih

/-- Characters that stand in one line and are not trimmed there. -/
structure Visible (cs : List Char) : Prop where
  feedless : '\n' ∉ cs
  head : ∃ c ∈ cs.head?, isBlank c = false
  last : ∃ c ∈ cs.getLast?, isBlank c = false

theorem visible_of_all {c : Char} {cs : List Char} (h : (c :: cs).all (!isBlank ·) = true) :
    Visible (c :: cs) := by
  have hall : ∀ d ∈ c :: cs, isBlank d = false := by simpa using h
  refine ⟨fun hm => ?_,⟨c,rfl,hall c (by simp)⟩,?_⟩
  · cases hall _ hm
  · have hne : c :: cs ≠ [] := by simp
    exact ⟨_,List.getLast?_eq_some_getLast hne,hall _ (List.getLast_mem hne)⟩

/-- Such characters are found in the text of their line. -/
theorem Visible.infix_sourceLine (h : Visible mid) (before after : List Char) :
    encode mid <:+: sourceLine (before ++ (mid ++ after)) (1 + before.count '\n' : Nat) := by
  obtain ⟨xs,ys,hl⟩ := exists_line before after h.feedless
  rw [sourceLine_of_getElem? hl]
  obtain ⟨us,vs,ht⟩ : mid <:+: trimChars (xs ++ (mid ++ ys)) := infix_trimBoth h.head h.last xs ys
  rw [← ht]
  exact ⟨encode us,encode vs,by simp⟩

theorem IsNumber.visible {cs : List Char} (h : IsNumber cs) : Visible cs := by
  obtain ⟨c,rest,rfl,-⟩ := h.exists_head
  refine visible_of_all (List.all_eq_true.mpr fun d hd => ?_)
  have hp : (d.isDigit || d == '.') = true := by simpa using h.isDigit_or d hd
  rw [isBlank_eq_false (p := fun d => d.isDigit || d == '.') (by decide +kernel) hp]
  rfl

theorem IsWord.visible {cs : List Char} (h : IsWord cs) : Visible cs := by
  have hall := h.isWordChar
  obtain ⟨c,rest,rfl,-⟩ := h
  refine visible_of_all (List.all_eq_true.mpr fun d hd => ?_)
  rw [isBlank_eq_false (by decide +kernel) (hall d hd)]
  rfl

/-- Every token but a line feed is spelled in one line and begins and ends with no blank. -/
theorem Piece.WellFormed.visible {p : Piece} (h : p.WellFormed) (he : p.kind ≠ .eof)
    (hn : p.kind ≠ .newline) : Visible p.spelling := by
  obtain ⟨kind,lexeme⟩ := p
  cases kind with
  | eof => exact absurd rfl he
  | newline => exact absurd rfl hn
  | number => exact IsNumber.visible h
  | ident => exact h.1.visible
  | string =>
    refine ⟨fun hm => ?_,⟨'"',rfl,by decide⟩,⟨'"',by simp [spelling,List.getLast?_cons],by decide⟩⟩
    have hl : '\n' ∈ lexeme := by simpa [spelling] using hm
    cases h '\n' hl
  | keyword k =>
    obtain rfl := Option.some.inj h
    cases k <;> exact visible_of_all rfl
  | comparison op =>
    obtain rfl := Option.some.inj h
    cases op <;> exact visible_of_all rfl
  | assign | plus | minus | times | slash =>
    obtain rfl := Option.some.inj h
    exact visible_of_all rfl

end Lines
end TeenyTiny
