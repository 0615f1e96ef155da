import Mathlib.Data.List.Forall2
import TeenyTiny.Proofs.Progress
import TeenyTiny.Proofs.Seam
import TeenyTiny.Proofs.SourceLines

/-! Carriage returns in front of line feeds. A source and the same source without them are scanned
side by side: the two cursors drift apart, but what is left in front of one is always what is left
in front of the other without some of the carriage returns. So each call of the lexer gives the
same token on the same line, or both fail there. -/
namespace TeenyTiny
open Text Lexer

/-- A text with a line feed in the place of every pair of a carriage return and a line feed. -/
def plainFeeds : Bytes → Bytes
  | [] => []
  | 13 :: 10 :: rest => 10 :: plainFeeds rest
  | x :: rest => x :: plainFeeds rest

example : plainFeeds "a\r\r\nb\rc\r\n\n" = ("a\r\nb\rc\n\n" : Bytes) := by decide

section Thinned
variable {α : Type} {cr lf : α}

/-- The second list is the first one without some of the `cr` in front of `lf`. -/
inductive Thinned (cr lf : α) : List α → List α → Prop
  | nil : Thinned cr lf [] []
  | cons (x : α) {xs ys : List α} (h : Thinned cr lf xs ys) : Thinned cr lf (x :: xs) (x :: ys)
  | feed {xs ys : List α} (h : Thinned cr lf xs ys) : Thinned cr lf (cr :: lf :: xs) (lf :: ys)

namespace Thinned
variable {xs ys xs' ys' : List α} {p : α → Bool}

theorem refl (xs : List α) : Thinned cr lf xs xs := by
  induction xs with
  | nil => exact nil
  | cons x xs ih => exact ih.cons x

theorem append (h : Thinned cr lf xs ys) (h' : Thinned cr lf xs' ys') :
    Thinned cr lf (xs ++ xs') (ys ++ ys') := by
  induction h with
  | nil => exact h'
  | cons x _ ih => exact ih.cons x
  | feed _ ih => exact ih.feed

theorem eq_nil_iff (h : Thinned cr lf xs ys) : xs = [] ↔ ys = [] := by
  cases h <;> simp

theorem getLast?_eq (h : Thinned cr lf xs ys) : xs.getLast? = ys.getLast? := by
  induction h with
  | nil => rfl
  | cons x _ ih => rw [List.getLast?_cons,List.getLast?_cons,ih]
  | feed _ ih => rw [List.getLast?_cons_cons,List.getLast?_cons,List.getLast?_cons,ih]

/-- A scan that stops at line feeds does not part the two lists. -/
theorem dropWhile (h : Thinned cr lf xs ys) (hlf : p lf = false) :
    Thinned cr lf (xs.dropWhile p) (ys.dropWhile p) := by
  have hstop : ∀ zs, (lf :: zs).dropWhile p = lf :: zs := fun zs =>
    List.dropWhile_cons_of_neg (by simp [hlf])
  induction h with
  | nil => exact nil
  | @cons x xs ys h ih =>
    by_cases hx : p x = true
    · rw [List.dropWhile_cons_of_pos hx,List.dropWhile_cons_of_pos hx]
      exact ih
    · rw [List.dropWhile_cons_of_neg hx,List.dropWhile_cons_of_neg hx]
      exact h.cons x
  | @feed xs ys h ih =>
    rw [hstop]
    by_cases hcr : p cr = true
    · rw [List.dropWhile_cons_of_pos hcr,hstop]
      exact h.cons lf
    · rw [List.dropWhile_cons_of_neg hcr]
      exact h.feed

theorem takeWhile_eq (h : Thinned cr lf xs ys) (hcr : p cr = false) (hlf : p lf = false) :
    xs.takeWhile p = ys.takeWhile p := by
  induction h with
  | nil => rfl
  | cons x _ ih => rw [List.takeWhile_cons,List.takeWhile_cons,ih]
  | feed =>
    rw [List.takeWhile_cons_of_neg (by simp [hcr]),List.takeWhile_cons_of_neg (by simp [hlf])]

theorem of_cons {x : α} (h : Thinned cr lf (x :: xs) ys) (hx : x ≠ cr) :
    ∃ zs, ys = x :: zs ∧ Thinned cr lf xs zs := by
  cases h with
  | cons _ h => exact ⟨_,rfl,h⟩
  | feed => exact absurd rfl hx

theorem of_cons_right {x : α} (h : Thinned cr lf xs (x :: ys)) (hx : x ≠ lf) :
    ∃ zs, xs = x :: zs ∧ Thinned cr lf zs ys := by
  cases h with
  | cons _ h => exact ⟨_,rfl,h⟩
  | feed => exact absurd rfl hx

/-- Up to its first pair the list is kept. -/
theorem exists_pair (h : Thinned cr lf xs ys) : xs = ys ∨ ∃ before xs' ys',
    xs = before ++ cr :: lf :: xs' ∧ ys = before ++ lf :: ys' ∧ Thinned cr lf xs' ys' := by
  induction h with
  | nil => exact .inl rfl
  | cons x _ ih =>
    rcases ih with rfl | ⟨before,xs',ys',rfl,rfl,h⟩
    · exact .inl rfl
    · exact .inr ⟨x :: before,xs',ys',rfl,rfl,h⟩
  | feed h => exact .inr ⟨[],_,_,rfl,rfl,h⟩

end Thinned
end Thinned

theorem thinned_plainFeeds (b : Bytes) : Thinned 13 10 b (plainFeeds b) := by
  fun_induction plainFeeds b with
  | case1 => exact .nil
  | case2 rest ih => exact ih.feed
  | case3 x rest _ ih => exact ih.cons x

namespace Thinned
variable {b b' : Bytes} {cs ds : List Char}

/-- No character reaches over a pair, so pairs of bytes are pairs of characters. -/
theorem decode (h : Thinned 13 10 b b') : Thinned '\r' '\n' (Text.decode b) (Text.decode b') := by
  induction hn : b.length using Nat.strongRecOn generalizing b b' with
  | ind n ih =>
    rcases h.exists_pair with rfl | ⟨before,rest,rest',rfl,rfl,hr⟩
    · exact refl _
    · have hreturn : ∀ b : Bytes, Text.decode (13 :: b) = '\r' :: Text.decode b :=
        decode_char_append '\r'
      have hfeed : ∀ b : Bytes, Text.decode (10 :: b) = '\n' :: Text.decode b :=
        decode_char_append '\n'
      rw [decode_append_of_lt (by decide),decode_append_of_lt (by decide),hreturn,hfeed,hfeed]
      refine (refl _).append (ih rest.length ?_ hr rfl).feed
      simp only [List.length_append,List.length_cons] at hn
      omega

theorem unmarked (h : Thinned 13 10 b b') :
    Thinned 13 10 (TeenyTiny.unmarked b) (TeenyTiny.unmarked b') := by
  by_cases hm : mark <+: b
  · obtain ⟨rest,rfl⟩ := hm
    obtain ⟨_,rfl,h₁⟩ := h.of_cons (by decide)
    obtain ⟨_,rfl,h₂⟩ := h₁.of_cons (by decide)
    obtain ⟨_,rfl,h₃⟩ := h₂.of_cons (by decide)
    exact h₃
  · have hm' : ¬ mark <+: b' := by
      rintro ⟨rest,rfl⟩
      obtain ⟨_,rfl,h₁⟩ := h.of_cons_right (by decide)
      obtain ⟨_,rfl,h₂⟩ := h₁.of_cons_right (by decide)
      obtain ⟨rest',rfl,-⟩ := h₂.of_cons_right (by decide)
      exact hm ⟨rest',rfl⟩
    rw [unmarked_eq_self hm,unmarked_eq_self hm']
    exact h

theorem preprocess (h : Thinned 13 10 b b') :
    Thinned 13 10 (TeenyTiny.preprocess b) (TeenyTiny.preprocess b') := by
  have hu := h.unmarked
  rw [preprocess_eq,preprocess_eq,ended,ended,endLine,endLine,hu.getLast?_eq]
  by_cases hb : TeenyTiny.unmarked b = []
  · rw [if_pos hb,if_pos (hu.eq_nil_iff.mp hb)]
    exact nil
  · rw [if_neg hb,if_neg fun h => hb (hu.eq_nil_iff.mpr h)]
    split_ifs
    · exact hu
    · exact hu.append (refl _)

/-- A line ends with a carriage return that the other has not. -/
theorem lines (h : Thinned '\r' '\n' cs ds) :
    List.Forall₂ (fun l l' => l = l' ∨ l = l' ++ ['\r']) (splitOn '\n' cs) (splitOn '\n' ds) := by
  induction h with
  | nil => exact .cons (.inl rfl) .nil
  | @cons c cs ds _ ih =>
    by_cases hc : c = '\n'
    · rw [hc,splitOn_cons_self,splitOn_cons_self]
      exact .cons (.inl rfl) ih
    · generalize hl : splitOn '\n' cs = ls at ih
      generalize hl' : splitOn '\n' ds = ls' at ih
      cases ih with
      | nil =>
        have hlen := length_splitOn '\n' cs
        rw [hl,List.length_nil] at hlen
        omega
      | @cons l l' ls ls' hline hrest =>
        rw [splitOn_cons_of_ne hc hl,splitOn_cons_of_ne hc hl']
        refine .cons ?_ hrest
        rcases hline with rfl | rfl
        · exact .inl rfl
        · exact .inr rfl
  | @feed cs ds _ ih =>
    rw [splitOn_cons_of_ne (by decide) (splitOn_cons_self cs),splitOn_cons_self]
    exact .cons (.inr rfl) ih

end Thinned

theorem trimBoth_concat {α : Type} {p : α → Bool} {x : α} (hx : p x = true) (l : List α) :
    trimBoth p (l ++ [x]) = trimBoth p l := by
  unfold trimBoth
  rw [List.dropWhile_append]
  split_ifs with he
  · rw [List.isEmpty_iff.mp he,List.dropWhile_cons_of_pos hx,List.dropWhile_nil]
  · rw [List.reverse_append,List.reverse_singleton,List.singleton_append,
      List.dropWhile_cons_of_pos hx]

/-- The blanks around a line are left out, so its carriage return is not seen. -/
theorem Thinned.sourceLine_eq {cs ds : List Char} (h : Thinned '\r' '\n' cs ds) (line : Int) :
    sourceLine cs line = sourceLine ds line := by
  have hlines : (splitOn '\n' cs).map trimChars = (splitOn '\n' ds).map trimChars := by
    rw [← List.forall₂_eq_eq_eq,List.forall₂_map_left_iff,List.forall₂_map_right_iff]
    refine h.lines.imp fun l l' hl => ?_
    rcases hl with rfl | rfl
    · rfl
    · exact trimBoth_concat rfl l'
  have hline := congrArg (·[line.toNat - 1]?) hlines
  simp only [List.getElem?_map] at hline
  unfold sourceLine
  rw [lineAfter?_eq,lineAfter?_eq]
  split_ifs
  · rfl
  · cases hl : (splitOn '\n' cs)[line.toNat - 1]? with
    | none =>
      rw [hl,Option.map_none] at hline
      rw [Option.map_eq_none_iff.mp hline.symm]
    | some l =>
      rw [hl,Option.map_some] at hline
      obtain ⟨l',hl',ht⟩ := Option.map_eq_some_iff.mp hline.symm
      rw [hl']
      exact congrArg encode ht.symm

namespace Lexer

/-- Two readings find the same token or both find a fault, and what they leave is in step. -/
structure Reading.InStep (r r₁ : Reading) : Prop where
  outcome : r.outcome.toOption = r₁.outcome.toOption
  rest : Thinned '\r' '\n' r.rest r₁.rest

section InStep
variable {cs ds : List Char} (h : Thinned '\r' '\n' cs ds)
include h

theorem inStep_readWord : (readWord cs).InStep (readWord ds) := by
  unfold readWord
  rw [h.takeWhile_eq (by decide) (by decide)]
  exact ⟨rfl,h.dropWhile (by decide)⟩

theorem inStep_readString : (readString cs).InStep (readString ds) := by
  unfold readString
  rw [h.takeWhile_eq (p := isStringChar) rfl rfl]
  have hd := h.dropWhile (p := isStringChar) rfl
  generalize cs.dropWhile isStringChar = xs at hd
  generalize ds.dropWhile isStringChar = ys at hd
  cases hd with
  | nil => exact ⟨rfl,.nil⟩
  | cons c hd =>
    dsimp only
    split_ifs
    · exact ⟨rfl,hd⟩
    · exact ⟨rfl,hd.cons c⟩
  | feed hd => exact ⟨rfl,hd.feed⟩

theorem inStep_readNumber : (readNumber cs).InStep (readNumber ds) := by
  unfold readNumber
  rw [h.takeWhile_eq (p := Char.isDigit) rfl rfl]
  have hd := h.dropWhile (p := Char.isDigit) rfl
  generalize cs.dropWhile Char.isDigit = xs at hd
  generalize ds.dropWhile Char.isDigit = ys at hd
  dsimp only
  cases hd with
  | nil => exact ⟨rfl,.nil⟩
  | @cons c xs ys hd =>
    by_cases hc : c = '.'
    · subst hc
      cases hd with
      | nil => exact ⟨rfl,.nil⟩
      | cons d hd =>
        have hf := hd.cons d
        change (if d.isDigit = true then _ else _ : Reading).InStep
          (if d.isDigit = true then _ else _)
        split_ifs
        · rw [hf.takeWhile_eq rfl rfl]
          exact ⟨rfl,hf.dropWhile rfl⟩
        · exact ⟨rfl,hf⟩
      | feed hd => exact ⟨rfl,hd.feed⟩
    · split
      · simp_all
      · split
        · simp_all
        · exact ⟨rfl,hd.cons c⟩
  | feed hd => exact ⟨rfl,hd.feed⟩

theorem inStep_readExtensible (c : Char) (short long : Kind) :
    (readExtensible c short long cs).InStep (readExtensible c short long ds) := by
  cases h with
  | nil => exact ⟨rfl,.nil⟩
  | cons d h =>
    unfold readExtensible
    dsimp only
    split_ifs
    · exact ⟨rfl,h⟩
    · exact ⟨rfl,h.cons d⟩
  | feed h => exact ⟨rfl,h.feed⟩

theorem inStep_readSymbol (c : Char) : (readSymbol c cs).InStep (readSymbol c ds) := by
  unfold readSymbol
  split
  · exact ⟨rfl,h⟩
  · exact ⟨rfl,h⟩
  · exact ⟨rfl,h⟩
  · exact ⟨rfl,h⟩
  · exact ⟨rfl,h⟩
  · exact inStep_readExtensible h _ _ _
  · exact inStep_readExtensible h _ _ _
  · exact inStep_readExtensible h _ _ _
  · cases h with
    | nil => exact ⟨rfl,.nil⟩
    | cons d h =>
      dsimp only
      split_ifs
      · exact ⟨rfl,h⟩
      · exact ⟨rfl,h.cons d⟩
    | feed h => exact ⟨rfl,h.feed⟩
  · exact ⟨rfl,h⟩

theorem thinned_skipGap : Thinned '\r' '\n' (skipGap cs) (skipGap ds) := by
  unfold skipGap
  have hd := h.dropWhile (p := isGap) rfl
  generalize cs.dropWhile isGap = xs at hd
  generalize ds.dropWhile isGap = ys at hd
  cases hd with
  | nil => exact .nil
  | cons c hd =>
    by_cases hc : c = '#'
    · subst hc
      exact hd.dropWhile (by simp)
    · split
      · simp_all
      · split
        · simp_all
        · exact hd.cons c
  | feed hd => exact hd.feed

end InStep

theorem head_skipGap (cs : List Char) : ∀ c ∈ (skipGap cs).head?, isGap c = false := by
  unfold skipGap
  split
  · intro c hc
    have hn := head_dropWhile _ _ c hc
    obtain rfl : c = '\n' := by simpa using hn
    rfl
  · exact head_dropWhile isGap cs

/-- No token begins with a carriage return, so both readings begin with the same character. -/
theorem inStep_read {cs ds : List Char} (h : Thinned '\r' '\n' cs ds) :
    (read (skipGap cs)).InStep (read (skipGap ds)) := by
  have hs := thinned_skipGap h
  have hh := head_skipGap cs
  generalize skipGap cs = xs at hs hh
  generalize skipGap ds = ys at hs
  cases hs with
  | nil => exact ⟨rfl,.nil⟩
  | cons c hs =>
    unfold read
    dsimp only
    split_ifs
    · exact inStep_readNumber (hs.cons c)
    · exact inStep_readWord (hs.cons c)
    · exact inStep_readString hs
    · exact inStep_readSymbol hs c
  | feed => exact absurd (hh '\r' rfl) (by decide)

end Lexer

/-- Faults that differ at most in the character at which the lexer has stopped. -/
inductive Fault.Matches : Fault → Fault → Prop
  | same (fault : Fault) : Matches fault fault
  | lexical (line : Int) (cause cause₁ : LexicalCause) :
    Matches ⟨line,.lexical cause⟩ ⟨line,.lexical cause₁⟩

/-- The same token, or faults that match. -/
inductive Matched : Except Fault Token → Except Fault Token → Prop
  | token (t : Token) : Matched (.ok t) (.ok t)
  | fault {fault fault₁ : Fault} (h : fault.Matches fault₁) : Matched (.error fault) (.error fault₁)

theorem Matched.ok_iff {x y : Except Fault Token} (h : Matched x y) (t : Token) :
    x = .ok t ↔ y = .ok t := by
  cases h <;> simp

structure Cursor.InStep (cursor cursor₁ : Cursor) : Prop where
  line : cursor.line = cursor₁.line
  rest : Thinned '\r' '\n' cursor.rest cursor₁.rest

/-- One call of the lexer on each side. -/
theorem Cursor.InStep.next {cursor cursor₁ : Cursor} (h : cursor.InStep cursor₁) :
    Matched cursor.next.1 cursor₁.next.1 ∧ cursor.next.2.InStep cursor₁.next.2 := by
  obtain ⟨cs,line⟩ := cursor
  obtain ⟨ds,line₁⟩ := cursor₁
  obtain rfl : line = line₁ := h.line
  obtain ⟨ho,hr⟩ := inStep_read h.rest
  unfold Cursor.next
  dsimp only
  generalize read (skipGap cs) = r at ho hr
  generalize read (skipGap ds) = r₁ at ho hr
  obtain ⟨outcome,rest⟩ := r
  obtain ⟨outcome₁,rest₁⟩ := r₁
  cases outcome with
  | error cause =>
    cases outcome₁ with
    | error cause₁ => exact ⟨.fault (.lexical _ _ _),rfl,hr⟩
    | ok x => cases ho
  | ok x =>
    cases outcome₁ with
    | error cause₁ => cases ho
    | ok x₁ =>
      cases ho
      exact ⟨.token _,rfl,hr⟩

namespace TokenStream

structure Matches (s s₁ : TokenStream) : Prop where
  items : List.Forall₂ Matched s.items s₁.items
  endLine : s.endLine = s₁.endLine

/-- The lexer comes to the end on both sides at once, though on one of them it takes more
characters. -/
theorem matches_collect {fuel fuel₁ : Nat} {cursor cursor₁ : Cursor} (h : cursor.InStep cursor₁)
    (hf : cursor.rest.length < fuel) (hf₁ : cursor₁.rest.length < fuel₁) :
    (collect fuel [] cursor).Matches (collect fuel₁ [] cursor₁) := by
  induction fuel generalizing fuel₁ cursor cursor₁ with
  | zero => omega
  | succ fuel ih =>
    obtain ⟨fuel₁,rfl⟩ : ∃ n, fuel₁ = n + 1 := ⟨fuel₁ - 1,by omega⟩
    obtain ⟨hm,hn⟩ := h.next
    by_cases he : ∃ t, cursor.next.1 = .ok t ∧ t.kind = .eof
    · obtain ⟨t,ht,hk⟩ := he
      have ht₁ := (hm.ok_iff t).mp ht
      rw [collect_eof (Prod.ext ht rfl) hk,collect_eof (Prod.ext ht₁ rfl) hk]
      exact ⟨.nil,rfl⟩
    · have he₁ : ¬∃ t, cursor₁.next.1 = .ok t ∧ t.kind = .eof := by
        rintro ⟨t,ht,hk⟩
        exact he ⟨t,(hm.ok_iff t).mpr ht,hk⟩
      have hl := cursor.length_next_lt.resolve_right he
      have hl₁ := cursor₁.length_next_lt.resolve_right he₁
      rw [collect_succ he,collect_succ he₁]
      have hrest : (collect fuel [] cursor.next.2).Matches (collect fuel₁ [] cursor₁.next.2) :=
        ih hn (by omega) (by omega)
      exact ⟨.cons hm hrest.items,hrest.endLine⟩

theorem matches_ofChars {cs ds : List Char} (h : Thinned '\r' '\n' cs ds) :
    (ofChars cs).Matches (ofChars ds) :=
  matches_collect ⟨rfl,h⟩ (Nat.lt_succ_self _) (Nat.lt_succ_self _)

theorem splitAtFault_matched {last : Token} {items items₁ : List (Except Fault Token)}
    (h : List.Forall₂ Matched items items₁) (found : List Token) :
    (splitAtFault last found items).1 = (splitAtFault last found items₁).1 ∧
      Option.Rel Fault.Matches (splitAtFault last found items).2
        (splitAtFault last found items₁).2 := by
  induction h generalizing found with
  | nil => exact ⟨rfl,.none⟩
  | cons hm _ ih =>
    cases hm with
    | token t => exact ih (t :: found)
    | fault hf => exact ⟨rfl,.some hf⟩

theorem Matches.upToFault {s s₁ : TokenStream} (h : s.Matches s₁) :
    s.upToFault.1 = s₁.upToFault.1 ∧
      Option.Rel Fault.Matches s.upToFault.2 s₁.upToFault.2 := by
  have he : s.endToken = s₁.endToken := by rw [endToken,endToken,h.endLine]
  rw [TokenStream.upToFault,TokenStream.upToFault,he]
  exact splitAtFault_matched h.items []

end TokenStream
end TeenyTiny
