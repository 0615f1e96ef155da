import TeenyTiny.Proofs.Decoding
import TeenyTiny.Proofs.Piece

/-! The lexer splits a source into tokens and the gaps between them. What it reads is a token with
its spelling in front of the rest, and the rest begins with nothing that would make the token
longer; so a source without lexical faults is its tokens and gaps, with no character lost. -/
namespace TeenyTiny
open Text Lexer

section Span
variable {α : Type} {p : α → Bool} {xs r : List α}

/-- A run that what follows does not continue. -/
theorem takeWhile_append_stop (hx : ∀ x ∈ xs, p x = true) (hr : ∀ x ∈ r.head?, p x = false) :
    (xs ++ r).takeWhile p = xs := by
  rw [List.takeWhile_append_of_pos hx]
  cases r with
  | nil => simp
  | cons y r => simp [hr y rfl]

theorem dropWhile_append_stop (hx : ∀ x ∈ xs, p x = true) (hr : ∀ x ∈ r.head?, p x = false) :
    (xs ++ r).dropWhile p = r := by
  rw [List.dropWhile_append_of_pos hx]
  cases r with
  | nil => rfl
  | cons y r => simp [hr y rfl]

theorem stop_of_head {x : α} (h : r.head? = some x) (hx : p x = false) :
    ∀ y ∈ r.head?, p y = false := by
  intro y hy
  obtain rfl : x = y := by simpa [h] using hy
  exact hx

/-- Dropping stops in front of an element that is not dropped. -/
theorem head_dropWhile (p : α → Bool) (xs : List α) :
    ∀ x ∈ (xs.dropWhile p).head?, p x = false := by
  intro x hx
  have h := List.head?_dropWhile_not p xs
  rw [Option.mem_def.mp hx] at h
  simpa using h

end Span

/-- The token as it stands in a source. -/
def Piece.spelling (p : Piece) : List Char :=
  if p.kind = .string then '"' :: (p.lexeme ++ ['"']) else p.lexeme

/-- A character that would belong to a token of this kind if it stood behind it. -/
def Kind.extendedBy : Kind → Char → Bool
  | ident,c | keyword _,c => isWordChar c
  | number,c => c.isDigit
  | assign,c | comparison .lt,c | comparison .gt,c => c = '='
  | _,_ => false

/-- Blanks, and then perhaps a comment, which goes on to the end of the line. -/
def IsGap (gap : List Char) : Prop :=
  ∃ blanks comment, gap = blanks ++ comment ∧ (∀ c ∈ blanks, isGap c = true) ∧
    (comment = [] ∨ ∃ cs, comment = '#' :: cs ∧ '\n' ∉ cs)

/-- A text is made of these tokens, each as long as it can be, with gaps between them. Behind a
comment comes a line feed or the end. -/
inductive Spaced : List Char → List Piece → Prop
  | done {gap : List Char} (hg : IsGap gap) : Spaced gap []
  | token {gap rest : List Char} {p : Piece} {ps : List Piece} (hg : IsGap gap)
    (hc : '#' ∈ gap → p.kind = .newline) (hp : ∀ c ∈ rest.head?, p.kind.extendedBy c = false)
    (h : Spaced rest ps) : Spaced (gap ++ p.spelling ++ rest) (p :: ps)

namespace Lexer

/-- A token stands at the start of the characters, and what follows does not extend it. -/
structure Takes (cs : List Char) (p : Piece) (rest : List Char) : Prop where
  proper : p.kind ≠ .eof
  split : cs = p.spelling ++ rest
  longest : ∀ c ∈ rest.head?, p.kind.extendedBy c = false

theorem takes_readWord {cs rest : List Char} {kind : Kind} {lexeme : List Char}
    (h : readWord cs = ⟨.ok (kind,lexeme),rest⟩) : Takes cs ⟨kind,lexeme⟩ rest := by
  simp only [readWord,Reading.mk.injEq,Except.ok.injEq,Prod.mk.injEq] at h
  obtain ⟨⟨rfl,rfl⟩,rfl⟩ := h
  have hs := head_dropWhile isWordChar cs
  have hsplit := (List.takeWhile_append_dropWhile (p := isWordChar) (l := cs)).symm
  unfold Kind.ofWord
  cases Keyword.ofChars? (cs.takeWhile isWordChar) with
  | some k => exact ⟨by simp,hsplit,hs⟩
  | none => exact ⟨by simp,hsplit,hs⟩

theorem takes_readNumber {cs rest : List Char} {kind : Kind} {lexeme : List Char}
    (h : readNumber cs = ⟨.ok (kind,lexeme),rest⟩) : Takes cs ⟨kind,lexeme⟩ rest := by
  have hsplit := (List.takeWhile_append_dropWhile (p := Char.isDigit) (l := cs)).symm
  unfold readNumber at h
  dsimp only at h
  split at h
  · rename_i fraction hd
    rw [hd] at hsplit
    split at h
    · cases h
    · rename_i c more
      split_ifs at h with hc
      · cases h
        refine ⟨by simp,hsplit.trans ?_,head_dropWhile _ _⟩
        rw [Piece.spelling,if_neg (by simp),List.append_assoc,List.cons_append,
          List.takeWhile_append_dropWhile]
      · cases h
  · cases h
    exact ⟨by simp,hsplit,head_dropWhile _ _⟩

theorem takes_readString {cs rest : List Char} {kind : Kind} {lexeme : List Char}
    (h : readString cs = ⟨.ok (kind,lexeme),rest⟩) : Takes ('"' :: cs) ⟨kind,lexeme⟩ rest := by
  have hsplit := (List.takeWhile_append_dropWhile (p := isStringChar) (l := cs)).symm
  unfold readString at h
  split at h
  · cases h
  · rename_i c more hd
    rw [hd] at hsplit
    split_ifs at h with hc
    · cases h
      refine ⟨by simp,?_,fun _ _ => rfl⟩
      rw [Piece.spelling,if_pos rfl]
      simpa [hc] using hsplit
    · cases h

theorem takes_readExtensible {c : Char} {short long kind : Kind} {cs rest lexeme : List Char}
    (h : readExtensible c short long cs = ⟨.ok (kind,lexeme),rest⟩) (hne : cs ≠ [])
    (hs : short ≠ .eof ∧ short ≠ .string) (hl : long ≠ .eof ∧ long ≠ .string)
    (hx : ∀ d, long.extendedBy d = false)
    (hd : ∀ d, d ≠ '=' → short.extendedBy d = false) : Takes (c :: cs) ⟨kind,lexeme⟩ rest := by
  cases cs with
  | nil => exact absurd rfl hne
  | cons d cs =>
    rw [readExtensible] at h
    split_ifs at h with he
    · cases h
      refine ⟨hl.1,?_,fun d _ => hx d⟩
      rw [Piece.spelling,if_neg hl.2,he]
      rfl
    · cases h
      refine ⟨hs.1,?_,stop_of_head rfl (hd d he)⟩
      rw [Piece.spelling,if_neg hs.2]
      rfl

/-- Operators that an equals sign may extend. -/
def extensible : List Char := ['=','<','>']

theorem takes_readSymbol {c : Char} {cs rest : List Char} {kind : Kind} {lexeme : List Char}
    (h : readSymbol c cs = ⟨.ok (kind,lexeme),rest⟩) (hc : c ∈ extensible → cs ≠ []) :
    Takes (c :: cs) ⟨kind,lexeme⟩ rest := by
  unfold readSymbol at h
  split at h
  case h_6 | h_7 | h_8 =>
    refine takes_readExtensible h (hc (by simp [extensible])) (by simp) (by simp)
      (fun _ => rfl) fun d hd => ?_
    simpa [Kind.extendedBy] using hd
  case h_9 =>
    split at h
    · cases h
    · split_ifs at h with hd
      · cases h
        exact ⟨by simp,by simp [Piece.spelling,hd],fun _ _ => rfl⟩
      · cases h
  case h_10 => cases h
  all_goals
    cases h
    exact ⟨by simp,rfl,fun _ _ => rfl⟩

/-- A token that is read stands at the start of the characters, unless these are one last
operator. -/
theorem takes_read {cs rest : List Char} {kind : Kind} {lexeme : List Char}
    (h : read cs = ⟨.ok (kind,lexeme),rest⟩) (hne : cs ≠ [])
    (hc : ∀ c ∈ extensible, cs ≠ [c]) : Takes cs ⟨kind,lexeme⟩ rest := by
  cases cs with
  | nil => exact absurd rfl hne
  | cons c cs =>
    rw [read] at h
    split_ifs at h with hd hl hq
    · exact takes_readNumber h
    · exact takes_readWord h
    · rw [hq]
      exact takes_readString h
    · refine takes_readSymbol h fun hm hn => hc c hm ?_
      rw [hn]

/-- What is passed before a token is a gap. -/
theorem exists_gap (cs : List Char) : ∃ gap, cs = gap ++ skipGap cs ∧ IsGap gap ∧
    ('#' ∈ gap → ∀ c ∈ (skipGap cs).head?, c = '\n') := by
  have hblank : ∀ c ∈ cs.takeWhile isGap, isGap c = true := fun c hc => List.mem_takeWhile_imp hc
  have hsplit := (List.takeWhile_append_dropWhile (p := isGap) (l := cs)).symm
  unfold skipGap
  split
  · rename_i rest hd
    rw [hd] at hsplit
    refine ⟨cs.takeWhile isGap ++ '#' :: rest.takeWhile (· ≠ '\n'),?_,?_,fun _ c hc => ?_⟩
    · rw [List.append_assoc,List.cons_append,List.takeWhile_append_dropWhile]
      exact hsplit
    · refine ⟨_,_,rfl,hblank,.inr ⟨_,rfl,fun hm => ?_⟩⟩
      simpa using List.mem_takeWhile_imp hm
    · simpa using head_dropWhile _ _ c hc
  · refine ⟨cs.takeWhile isGap,hsplit,⟨_,[],by simp,hblank,.inl rfl⟩,fun hm => ?_⟩
    cases hblank '#' hm

end Lexer

namespace Cursor

/-- Places that a run of the lexer over the source comes to. -/
inductive Reached (source : List Char) : Cursor → Prop
  | start : Reached source (start source)
  | next {cursor : Cursor} (h : Reached source cursor) : Reached source cursor.next.2

theorem next_rest (cursor : Cursor) : cursor.next.2.rest = (read (skipGap cursor.rest)).rest := by
  unfold next
  dsimp only
  split <;> rfl

theorem next_ok {cursor after : Cursor} {t : Token} (h : cursor.next = (.ok t,after)) :
    read (skipGap cursor.rest) = ⟨.ok (t.kind,t.lexeme),after.rest⟩ ∧ t.line = cursor.line ∧
      after.line = if t.kind = .newline then cursor.line + 1 else cursor.line := by
  unfold next at h
  dsimp only at h
  cases hr : read (skipGap cursor.rest) with
  | mk outcome rest =>
    rw [hr] at h
    cases outcome with
    | ok x =>
      cases h
      exact ⟨rfl,rfl,rfl⟩
    | error cause => cases h

end Cursor

/-- No line is left without its end. -/
def EndsLine (cs : List Char) : Prop := ∀ c ∈ cs.getLast?, c = '\n'

theorem EndsLine.of_suffix {cs rest : List Char} (h : EndsLine cs) (hs : rest <:+ cs) :
    EndsLine rest := by
  obtain ⟨before,rfl⟩ := hs
  intro c hc
  refine h c ?_
  have hne : rest ≠ [] := by
    rintro rfl
    simp at hc
  rwa [List.getLast?_append_of_ne_nil _ hne]

theorem endsLine_preprocess (src : Bytes) : EndsLine (decode (preprocess src)) := by
  intro c hc
  rcases decode_preprocess src with h | ⟨cs,h⟩
  · simp [h] at hc
  · simpa [h,eq_comm] using hc

/-- An operator is not the last character of a text whose lines are ended. -/
theorem EndsLine.ne_operator {cs : List Char} (h : EndsLine cs) : ∀ c ∈ extensible, cs ≠ [c] := by
  rintro c hc rfl
  obtain rfl := h c rfl
  simp [extensible] at hc

namespace Lexer

theorem skipGap_suffix (cs : List Char) : skipGap cs <:+ cs := by
  obtain ⟨gap,h,-⟩ := exists_gap cs
  exact ⟨gap,h.symm⟩

theorem suffix_readSymbol (c : Char) (cs : List Char) : (readSymbol c cs).rest <:+ cs := by
  have hext : ∀ short long, (readExtensible c short long cs).rest <:+ cs := by
    intro short long
    cases cs with
    | nil => exact List.suffix_rfl
    | cons d cs =>
      rw [readExtensible]
      split_ifs
      · exact List.suffix_cons d cs
      · exact List.suffix_rfl
  unfold readSymbol
  split
  case h_6 | h_7 | h_8 => exact hext _ _
  case h_9 =>
    split
    · exact List.suffix_rfl
    · split_ifs
      · exact List.suffix_cons _ _
      · exact List.suffix_rfl
  all_goals exact List.suffix_rfl

theorem suffix_readNumber (cs : List Char) : (readNumber cs).rest <:+ cs.dropWhile Char.isDigit := by
  unfold readNumber
  dsimp only
  split
  · rename_i fraction he
    have hf : fraction <:+ cs.dropWhile Char.isDigit := he ▸ List.suffix_cons '.' fraction
    split
    · exact hf
    · split_ifs
      · exact (List.dropWhile_suffix _).trans hf
      · exact hf
  · exact List.suffix_rfl

theorem suffix_readString (cs : List Char) : (readString cs).rest <:+ cs := by
  have hd : cs.dropWhile isStringChar <:+ cs := List.dropWhile_suffix _
  unfold readString
  split
  · rename_i he
    exact he ▸ hd
  · rename_i c rest he
    rw [he] at hd
    split_ifs
    · exact (List.suffix_cons c rest).trans hd
    · exact hd

/-- Whatever is read, or found to be wrong, the lexer goes on behind it. -/
theorem suffix_read_cons (c : Char) (cs : List Char) : (read (c :: cs)).rest <:+ cs := by
  rw [read]
  split_ifs with hd hl
  · refine (suffix_readNumber _).trans ?_
    rw [List.dropWhile_cons_of_pos hd]
    exact List.dropWhile_suffix _
  · have hw : isWordChar c = true := by rw [isWordChar,hl,Bool.true_or]
    change (c :: cs).dropWhile isWordChar <:+ cs
    rw [List.dropWhile_cons_of_pos hw]
    exact List.dropWhile_suffix _
  · exact suffix_readString cs
  · exact suffix_readSymbol c cs

theorem suffix_read (cs : List Char) : (read cs).rest <:+ cs := by
  cases cs with
  | nil => exact List.suffix_rfl
  | cons c cs => exact (suffix_read_cons c cs).trans (List.suffix_cons c cs)

end Lexer

theorem Cursor.next_suffix (cursor : Cursor) : cursor.next.2.rest <:+ cursor.rest := by
  rw [next_rest]
  exact (suffix_read _).trans (skipGap_suffix _)

theorem Cursor.Reached.suffix {source : List Char} {cursor : Cursor} (h : Reached source cursor) :
    cursor.rest <:+ source := by
  induction h with
  | start => exact List.suffix_rfl
  | next _ ih => exact (next_suffix _).trans ih

/-- A token begins with a character that begins no gap. -/
theorem Piece.WellFormed.exists_spelling {p : Piece} (h : p.WellFormed) (hp : p.kind ≠ .eof) :
    ∃ c cs, p.spelling = c :: cs ∧ isGap c = false ∧ c ≠ '#' := by
  have hgap : ∀ {q : Char → Bool} {c : Char}, q c = true → q ' ' = false → q '\t' = false →
      q '\r' = false → q '#' = false → isGap c = false ∧ c ≠ '#' := by
    intro q c hc h₁ h₂ h₃ h₄
    have hne : ∀ d, q d = false → c ≠ d := by
      rintro d hd rfl
      rw [hc] at hd
      cases hd
    simp [isGap,hne _ h₁,hne _ h₂,hne _ h₃,hne _ h₄]
  obtain ⟨kind,lexeme⟩ := p
  cases kind with
  | eof => exact absurd rfl hp
  | number =>
    have hn : IsNumber lexeme := h
    obtain ⟨c,rest,rfl,hc⟩ := hn.exists_head
    exact ⟨c,rest,rfl,hgap hc rfl rfl rfl rfl⟩
  | ident =>
    obtain ⟨c,rest,rfl,hc,-⟩ := h.1
    exact ⟨c,rest,rfl,hgap hc rfl rfl rfl rfl⟩
  | string => exact ⟨'"',_,rfl,rfl,by decide⟩
  | keyword k =>
    obtain rfl := Option.some.inj h
    cases k <;> exact ⟨_,_,rfl,rfl,by decide⟩
  | comparison op =>
    obtain rfl := Option.some.inj h
    cases op <;> exact ⟨_,_,rfl,rfl,by decide⟩
  | newline | assign | plus | minus | times | slash =>
    obtain rfl := Option.some.inj h
    exact ⟨_,_,rfl,rfl,by decide⟩

namespace Cursor

/-- In a text whose lines are ended, the next token is the end token, and nothing but a gap is left,
or it stands behind a gap. -/
theorem next_spaced {cursor after : Cursor} {t : Token} (h : cursor.next = (.ok t,after))
    (he : EndsLine cursor.rest) : (t.kind = .eof ∧ IsGap cursor.rest) ∨
      (t.kind ≠ .eof ∧ after.rest.length < cursor.rest.length ∧
        ∀ ps, Spaced after.rest ps → Spaced cursor.rest (t.piece :: ps)) := by
  obtain ⟨hr,-,-⟩ := next_ok h
  obtain ⟨gap,hgap,hg,hcomment⟩ := exists_gap cursor.rest
  cases hs : skipGap cursor.rest with
  | nil =>
    rw [hs,List.append_nil] at hgap
    rw [hs] at hr
    refine .inl ⟨?_,hgap.symm ▸ hg⟩
    injection hr with ho
    injection ho with ho
    injection ho with hk
    exact hk.symm
  | cons c cs =>
    have hx := (he.of_suffix (skipGap_suffix cursor.rest)).ne_operator
    rw [hs] at hx hr hcomment hgap
    obtain ⟨hp,hsplit,hlongest⟩ := takes_read hr (by simp) hx
    have hrest : cursor.rest = gap ++ t.piece.spelling ++ after.rest := by
      rw [List.append_assoc]
      exact hsplit ▸ hgap
    refine .inr ⟨hp,?_,fun ps hps => ?_⟩
    · obtain ⟨d,ds,hd,-⟩ := (wellFormed_next h).exists_spelling hp
      rw [hrest,List.length_append,List.length_append,hd,List.length_cons]
      omega
    · rw [hrest]
      refine .token hg (fun hm => ?_) hlongest hps
      -- behind a comment the line feed is the only character that can come
      obtain rfl := hcomment hm c rfl
      injection hr with ho
      injection ho with ho
      injection ho with hk
      exact hk.symm

end Cursor

namespace TokenStream

/-- What was found before stands in front of what is found from here. -/
theorem collect_found (fuel : Nat) (found : List (Except Fault Token)) (cursor : Cursor) :
    collect fuel found cursor = ⟨found.reverse ++ (collect fuel [] cursor).items,
      (collect fuel [] cursor).endLine⟩ := by
  induction fuel generalizing found cursor with
  | zero => simp [collect]
  | succ fuel ih =>
    simp only [collect]
    rcases cursor.next with ⟨_ | t,after⟩
    · dsimp only
      rw [ih (_ :: found),ih [_]]
      simp
    · dsimp only
      split_ifs
      · simp
      · rw [ih (_ :: found),ih [_]]
        simp

theorem collect_ok {cursor after : Cursor} {t : Token} (h : cursor.next = (.ok t,after))
    (ht : t.kind ≠ .eof) (fuel : Nat) : collect (fuel + 1) [] cursor =
      ⟨.ok t :: (collect fuel [] after).items,(collect fuel [] after).endLine⟩ := by
  rw [collect,h]
  dsimp only
  rw [if_neg ht,collect_found]
  rfl

theorem collect_eof {cursor after : Cursor} {t : Token} (h : cursor.next = (.ok t,after))
    (ht : t.kind = .eof) (fuel : Nat) : collect (fuel + 1) [] cursor = ⟨[],t.line⟩ := by
  rw [collect,h]
  dsimp only
  rw [if_pos ht]
  rfl

theorem collect_error {cursor after : Cursor} {fault : Fault}
    (h : cursor.next = (.error fault,after)) (fuel : Nat) : collect (fuel + 1) [] cursor =
      ⟨.error fault :: (collect fuel [] after).items,(collect fuel [] after).endLine⟩ := by
  rw [collect,h]
  dsimp only
  rw [collect_found]
  rfl

/-- As many steps as there are characters are enough to come to the end. -/
theorem spaced_of_collect {fuel : Nat} {cursor : Cursor} {us : List Token}
    (hf : cursor.rest.length < fuel) (he : EndsLine cursor.rest)
    (h : (collect fuel [] cursor).items = us.map .ok) :
    Spaced cursor.rest (us.map Token.piece) := by
  induction fuel generalizing cursor us with
  | zero => exact absurd hf (Nat.not_lt_zero _)
  | succ fuel ih =>
    rcases hn : cursor.next with ⟨fault | t,after⟩
    · rw [collect_error hn] at h
      cases us <;> simp at h
    · rcases Cursor.next_spaced hn he with ⟨hk,hg⟩ | ⟨hk,hl,hs⟩
      · rw [collect_eof hn hk] at h
        obtain rfl : us = [] := by simpa using h
        exact .done hg
      · rw [collect_ok hn hk] at h
        cases us with
        | nil => simp at h
        | cons u us =>
          simp only [List.map_cons,List.cons.injEq,Except.ok.injEq] at h
          obtain ⟨rfl,h⟩ := h
          have ha := he.of_suffix (cursor.next_suffix)
          rw [hn] at ha
          exact hs _ (ih (by omega) ha h)

end TokenStream

/-- A source without lexical faults is its tokens, each as long as it can be, and the gaps between
them; and in no source is the end token read where an operator is still left. -/
theorem spaced_tokens (src : Bytes) :
    (∀ tokens, (TokenStream.ofChars (decode (preprocess src))).upToFault = (tokens,none) →
      ∃ us last, tokens = us ++ [last] ∧ last.piece = ⟨.eof,[]⟩ ∧
        (∀ u ∈ us, u.piece.WellFormed) ∧ Spaced (decode (preprocess src)) (us.map Token.piece)) ∧
      ∀ cursor, Cursor.Reached (decode (preprocess src)) cursor →
        ∀ c ∈ extensible, skipGap cursor.rest ≠ [c] := by
  have hend := endsLine_preprocess src
  constructor
  · intro tokens h
    obtain ⟨us,hi,rfl⟩ := TokenStream.upToFault_eq_none.mp h
    refine ⟨us,_,rfl,rfl,fun u hu => ?_,
      TokenStream.spaced_of_collect (Nat.lt_succ_self _) hend hi⟩
    exact (TokenStream.proper_ofChars _ u (hi ▸ List.mem_map_of_mem hu)).1
  · intro cursor hc
    exact (hend.of_suffix ((skipGap_suffix _).trans hc.suffix)).ne_operator

/-- A string with a number sign, a comment with an invalid byte, and an operator at the end. -/
theorem spaced_tokens_of_lines :
    let src : Bytes := ("PRINT\t\"a#b\"# " : Bytes) ++ [0xff] ++ ("\r\nβ1<=2 =" : Bytes)
    let tokens : List Token := [⟨.keyword .print,"PRINT".toList,1⟩,⟨.string,"a#b".toList,1⟩,
      ⟨.newline,['\n'],1⟩,⟨.ident,['β','1'],2⟩,⟨.comparison .le,['<','='],2⟩,⟨.number,['2'],2⟩,
      ⟨.assign,['='],2⟩,⟨.newline,['\n'],2⟩,⟨.eof,[],3⟩]
    (TokenStream.ofChars (decode (preprocess src))).upToFault = (tokens,none) ∧
      ∃ us last, tokens = us ++ [last] ∧ last.piece = ⟨.eof,[]⟩ ∧
        (∀ u ∈ us, u.piece.WellFormed) ∧
          Spaced (decode (preprocess src)) (us.map Token.piece) := by
  intro src tokens
  have h : (TokenStream.ofChars (decode (preprocess src))).upToFault = (tokens,none) :=
    Prod.ext (by decide +kernel) (Option.isNone_iff_eq_none.mp (by decide +kernel))
  exact ⟨h,(spaced_tokens src).1 tokens h⟩

end TeenyTiny
