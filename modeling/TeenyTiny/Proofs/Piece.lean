import Mathlib.Data.List.TakeWhile
import TeenyTiny.Token.Stream

/-! Tokens without their lines, and the lexemes that a kind of token can have. Every token that
the lexer reads, from whatever characters, has such a lexeme. -/
namespace TeenyTiny
open Text Lexer

/-- A token without its line. -/
structure Piece where
  kind : Kind
  lexeme : List Char
  deriving DecidableEq, Repr

def Token.piece (t : Token) : Piece := ⟨t.kind,t.lexeme⟩

/-- Digits, with or without a point and digits behind it. -/
inductive IsNumber : List Char → Prop
  | whole {ds : List Char} (hd : ds ≠ []) (h : ∀ d ∈ ds, d.isDigit) : IsNumber ds
  | pointed {ds fs : List Char} (hd : ds ≠ []) (h : ∀ d ∈ ds, d.isDigit)
      (hf : fs ≠ []) (h' : ∀ d ∈ fs, d.isDigit) : IsNumber (ds ++ '.' :: fs)

theorem IsNumber.exists_head {cs : List Char} (h : IsNumber cs) :
    ∃ c rest, cs = c :: rest ∧ c.isDigit = true := by
  cases h with
  | whole hd h =>
    obtain ⟨c,rest,rfl⟩ := List.exists_cons_of_ne_nil hd
    exact ⟨c,rest,rfl,h c (by simp)⟩
  | pointed hd h =>
    obtain ⟨c,rest,rfl⟩ := List.exists_cons_of_ne_nil hd
    exact ⟨c,_,rfl,h c (by simp)⟩

theorem IsNumber.isDigit_or {cs : List Char} (h : IsNumber cs) :
    ∀ c ∈ cs, c.isDigit = true ∨ c = '.' := by
  intro c hm
  cases h with
  | whole _ h => exact .inl (h c hm)
  | pointed _ h _ h' =>
    rcases List.mem_append.mp hm with hm | hm
    · exact .inl (h c hm)
    · rcases List.mem_cons.mp hm with rfl | hm
      · exact .inr rfl
      · exact .inl (h' c hm)

/-- A letter followed by letters and digits. -/
def IsWord (cs : List Char) : Prop :=
  ∃ c rest, cs = c :: rest ∧ isLetter c ∧ ∀ d ∈ rest, isWordChar d

/-- The spelling of a kind that has only one. -/
def Kind.spelling? : Kind → Option (List Char)
  | eof => some []
  | newline => some ['\n']
  | number | ident | string => none
  | keyword k => some k.spelling.toList
  | assign => some ['=']
  | plus => some ['+']
  | minus => some ['-']
  | times => some ['*']
  | slash => some ['/']
  | comparison op => some op.spelling.toList

def Piece.WellFormed (p : Piece) : Prop :=
  match p.kind with
  | .number => IsNumber p.lexeme
  | .ident => IsWord p.lexeme ∧ Keyword.ofChars? p.lexeme = none
  | .string => ∀ c ∈ p.lexeme, isStringChar c
  | kind => kind.spelling? = some p.lexeme

theorem Piece.wellFormed_of_spelling {kind : Kind} {cs : List Char}
    (h : kind.spelling? = some cs) : WellFormed ⟨kind,cs⟩ := by
  cases kind <;> simp_all [WellFormed,Kind.spelling?]

theorem Piece.WellFormed.eq_of_spelling {p : Piece} (h : p.WellFormed) {cs : List Char}
    (hs : p.kind.spelling? = some cs) : p = ⟨p.kind,cs⟩ := by
  obtain ⟨kind,lexeme⟩ := p
  cases kind <;> simp_all [WellFormed,Kind.spelling?]

theorem Keyword.spelling_of_ofChars? {cs : List Char} {k : Keyword} (h : ofChars? cs = some k) :
    k.spelling.toList = cs := by
  simp only [ofChars?,Option.map_eq_some_iff] at h
  obtain ⟨⟨spelling,k'⟩,hf,rfl⟩ := h
  have hm := List.mem_of_find?_eq_some hf
  have hp := List.find?_some hf
  simp only [spelled,List.mem_map,Prod.mk.injEq] at hm
  obtain ⟨_,_,hs,rfl⟩ := hm
  simpa [← hs] using hp

namespace Lexer

theorem wellFormed_readWord {c : Char} {rest : List Char} (hc : isLetter c) {kind : Kind}
    {lexeme : List Char} (h : (readWord (c :: rest)).outcome = .ok (kind,lexeme)) :
    Piece.WellFormed ⟨kind,lexeme⟩ := by
  have hw : isWordChar c := by simp [isWordChar,hc]
  simp only [readWord,List.takeWhile_cons_of_pos hw,Except.ok.injEq,Prod.mk.injEq] at h
  obtain ⟨rfl,rfl⟩ := h
  simp only [Kind.ofWord]
  cases hk : Keyword.ofChars? (c :: rest.takeWhile isWordChar) with
  | some k => simp [Piece.WellFormed,Kind.spelling?,Keyword.spelling_of_ofChars? hk]
  | none =>
    simp only [Piece.WellFormed]
    exact ⟨⟨c,_,rfl,hc,fun d hd => List.mem_takeWhile_imp hd⟩,hk⟩

theorem wellFormed_readNumber {c : Char} {rest : List Char} (hc : c.isDigit) {kind : Kind}
    {lexeme : List Char} (h : (readNumber (c :: rest)).outcome = .ok (kind,lexeme)) :
    Piece.WellFormed ⟨kind,lexeme⟩ := by
  have hne : (c :: rest).takeWhile Char.isDigit ≠ [] := by simp [hc]
  simp only [readNumber] at h
  split at h
  · split at h
    · cases h
    · rename_i d more hd
      split at h
      · rename_i hdigit
        obtain ⟨rfl,rfl⟩ : Kind.number = kind ∧ _ = lexeme := by simpa using h
        refine IsNumber.pointed hne (fun _ h => List.mem_takeWhile_imp h) ?_
          (fun _ h => List.mem_takeWhile_imp h)
        simp [hdigit]
      · cases h
  · obtain ⟨rfl,rfl⟩ : Kind.number = kind ∧ _ = lexeme := by simpa using h
    exact IsNumber.whole hne (fun _ h => List.mem_takeWhile_imp h)

theorem wellFormed_readString {cs : List Char} {kind : Kind} {lexeme : List Char}
    (h : (readString cs).outcome = .ok (kind,lexeme)) : Piece.WellFormed ⟨kind,lexeme⟩ := by
  simp only [readString] at h
  split at h
  · cases h
  · split at h
    · obtain ⟨rfl,rfl⟩ : Kind.string = kind ∧ _ = lexeme := by simpa using h
      exact fun c hc => List.mem_takeWhile_imp hc
    · cases h

theorem wellFormed_readExtensible {c : Char} {short long : Kind} {rest : List Char} {kind : Kind}
    {lexeme : List Char} (h : (readExtensible c short long rest).outcome = .ok (kind,lexeme))
    (hs : short.spelling? = some [c]) (hl : long.spelling? = some [c,'=']) :
    Piece.WellFormed ⟨kind,lexeme⟩ := by
  cases rest with
  | nil =>
    cases h
    rfl
  | cons d rest =>
    simp only [readExtensible] at h
    split at h
    · obtain ⟨rfl,rfl⟩ : long = kind ∧ _ = lexeme := by simpa using h
      exact Piece.wellFormed_of_spelling hl
    · obtain ⟨rfl,rfl⟩ : short = kind ∧ _ = lexeme := by simpa using h
      exact Piece.wellFormed_of_spelling hs

theorem wellFormed_readSymbol {c : Char} {rest : List Char} {kind : Kind} {lexeme : List Char}
    (h : (readSymbol c rest).outcome = .ok (kind,lexeme)) : Piece.WellFormed ⟨kind,lexeme⟩ := by
  unfold readSymbol at h
  split at h
  case h_6 => exact wellFormed_readExtensible h rfl rfl
  case h_7 => exact wellFormed_readExtensible h rfl rfl
  case h_8 => exact wellFormed_readExtensible h rfl rfl
  case h_9 =>
    split at h
    · cases h
    · split at h
      · cases h; rfl
      · cases h
  case h_10 => cases h
  all_goals cases h; rfl

/-- Whatever characters are read, a token that is read is well formed. -/
theorem wellFormed_read {cs : List Char} {kind : Kind} {lexeme : List Char}
    (h : (read cs).outcome = .ok (kind,lexeme)) : Piece.WellFormed ⟨kind,lexeme⟩ := by
  cases cs with
  | nil =>
    cases h
    rfl
  | cons c rest =>
    simp only [read] at h
    split at h
    · exact wellFormed_readNumber ‹_› h
    · split at h
      · exact wellFormed_readWord ‹_› h
      · split at h
        · exact wellFormed_readString h
        · exact wellFormed_readSymbol h

end Lexer

theorem Cursor.wellFormed_next {cursor after : Cursor} {t : Token}
    (h : cursor.next = (.ok t,after)) : t.piece.WellFormed := by
  simp only [next] at h
  split at h
  · rename_i kind lexeme ho
    obtain ⟨rfl,-⟩ : Token.mk kind lexeme cursor.line = t ∧ _ = after := by simpa using h
    exact wellFormed_read ho
  · simp at h

namespace TokenStream

/-- A token in the stream is well formed, and it is not the end token. -/
def Proper (items : List (Except Fault Token)) : Prop :=
  ∀ t, .ok t ∈ items → t.piece.WellFormed ∧ t.kind ≠ .eof

theorem proper_collect (fuel : Nat) (found : List (Except Fault Token)) (cursor : Cursor)
    (h : Proper found) : Proper (collect fuel found cursor).items := by
  induction fuel generalizing found cursor with
  | zero => simpa [collect,Proper] using h
  | succ fuel ih =>
    simp only [collect]
    split
    · rename_i t after hn
      split
      · simpa [Proper] using h
      · rename_i hk
        apply ih
        intro u hu
        rcases List.mem_cons.mp hu with hu | hu
        · cases hu
          exact ⟨Cursor.wellFormed_next hn,hk⟩
        · exact h u hu
    · apply ih
      intro u hu
      exact h u (by simpa using hu)

theorem proper_ofChars (source : List Char) : Proper (ofChars source).items :=
  proper_collect _ _ _ (by simp [Proper])

theorem splitAtFault_eq_none {last : Token} {found : List Token}
    {items : List (Except Fault Token)} {ts : List Token} :
    splitAtFault last found items = (ts,none) ↔
      ∃ us : List Token, items = us.map .ok ∧ ts = found.reverse ++ us ++ [last] := by
  induction items generalizing found with
  | nil => simp [splitAtFault,eq_comm]
  | cons item items ih =>
    cases item with
    | ok t =>
      simp only [splitAtFault,ih]
      constructor
      · rintro ⟨us,rfl,rfl⟩
        exact ⟨t :: us,by simp,by simp⟩
      · rintro ⟨us,hu,rfl⟩
        cases us with
        | nil => simp at hu
        | cons u us =>
          obtain ⟨rfl,rfl⟩ : t = u ∧ items = us.map .ok := by simpa using hu
          exact ⟨us,rfl,by simp⟩
    | error fault =>
      simp only [splitAtFault,Prod.mk.injEq,reduceCtorEq,and_false,false_iff]
      rintro ⟨us,hu,-⟩
      cases us <;> simp at hu

/-- The stream has no fault exactly when all its items are tokens. -/
theorem upToFault_eq_none {s : TokenStream} {ts : List Token} :
    s.upToFault = (ts,none) ↔
      ∃ us : List Token, s.items = us.map .ok ∧ ts = us ++ [s.endToken] := by
  simp [upToFault,splitAtFault_eq_none]

theorem splitAtFault_eq_some {last : Token} {found : List Token}
    {items : List (Except Fault Token)} {ts : List Token} {fault : Fault} :
    splitAtFault last found items = (ts,some fault) ↔
      ∃ (us : List Token) (rest : List (Except Fault Token)),
        items = us.map .ok ++ .error fault :: rest ∧ ts = found.reverse ++ us := by
  induction items generalizing found with
  | nil => simp [splitAtFault]
  | cons item items ih =>
    cases item with
    | ok t =>
      simp only [splitAtFault,ih]
      constructor
      · rintro ⟨us,rest,rfl,rfl⟩
        exact ⟨t :: us,rest,by simp,by simp⟩
      · rintro ⟨us,rest,hu,rfl⟩
        cases us with
        | nil => simp at hu
        | cons u us =>
          obtain ⟨rfl,rfl⟩ : t = u ∧ items = us.map .ok ++ .error fault :: rest := by
            simpa using hu
          exact ⟨us,rest,rfl,by simp⟩
    | error fault' =>
      simp only [splitAtFault,Prod.mk.injEq,Option.some.injEq]
      constructor
      · rintro ⟨rfl,rfl⟩
        exact ⟨[],items,rfl,by simp⟩
      · rintro ⟨us,rest,hu,rfl⟩
        cases us with
        | nil => simpa using (List.cons_eq_cons.mp hu).1
        | cons u us => simp at hu

/-- The first fault and the tokens before it. -/
theorem upToFault_eq_some {s : TokenStream} {ts : List Token} {fault : Fault} :
    s.upToFault = (ts,some fault) ↔
      ∃ rest, s.items = ts.map .ok ++ .error fault :: rest := by
  simp [upToFault,splitAtFault_eq_some]

theorem splitAtFault_append (last : Token) (found us : List Token)
    (items : List (Except Fault Token)) : splitAtFault last found (us.map .ok ++ items) =
      splitAtFault last (us.reverse ++ found) items := by
  induction us generalizing found with
  | nil => rfl
  | cons u us ih =>
    rw [List.map_cons,List.cons_append,splitAtFault,ih]
    simp

theorem exists_splitAtFault (last : Token) (found : List Token)
    (items : List (Except Fault Token)) :
    ∃ more, (splitAtFault last found items).1 = found.reverse ++ more := by
  induction items generalizing found with
  | nil => exact ⟨[last],by simp [splitAtFault]⟩
  | cons item items ih =>
    cases item with
    | ok t =>
      obtain ⟨more,h⟩ := ih (t :: found)
      exact ⟨t :: more,by simpa [splitAtFault] using h⟩
    | error fault => exact ⟨[],by simp [splitAtFault]⟩

end TokenStream
end TeenyTiny
