import TeenyTiny.Proofs.Scanning
import TeenyTiny.Proofs.Utf8

/-! Reading back what was printed. A token is read from its spelling whenever what follows does not
extend it, so a list of tokens with blanks behind each of them is read as it was. -/
namespace TeenyTiny
open Text Lexer

theorem IsWord.isWordChar {w : List Char} (h : IsWord w) : ∀ c ∈ w, Lexer.isWordChar c = true := by
  obtain ⟨c,cs,rfl,hc,hcs⟩ := h
  refine List.forall_mem_cons.mpr ⟨?_,hcs⟩
  rw [Lexer.isWordChar,hc,Bool.true_or]

theorem le_of_isDigit {c : Char} (h : c.isDigit = true) : 48 ≤ c.toNat ∧ c.toNat ≤ 57 := by
  simpa [Char.isDigit,UInt32.le_iff_toNat_le] using h

theorem not_isAlpha_of_isDigit {c : Char} (h : c.isDigit = true) : c.isAlpha = false := by
  have hn := le_of_isDigit h
  have hc : c.val.toNat = c.toNat := rfl
  change (decide (65 ≤ c.val ∧ c.val ≤ 90) ||
    decide (97 ≤ c.val) && decide (c.val ≤ 122)) = false
  simp [UInt32.le_iff_toNat_le]
  omega

theorem not_isDigit_of_isLetter {c : Char} (h : isLetter c = true) : c.isDigit = false := by
  cases hd : c.isDigit with
  | false => rfl
  | true =>
    have hn := le_of_isDigit hd
    rw [isLetter,if_pos (by omega),not_isAlpha_of_isDigit hd] at h
    cases h

theorem Keyword.isWord (k : Keyword) : IsWord k.spelling.toList := by
  cases k <;> exact ⟨_,_,rfl,rfl,List.all_eq_true.mp rfl⟩

theorem Keyword.ofChars?_spelling (k : Keyword) : ofChars? k.spelling.toList = some k := by
  cases k <;> decide

/-- Kinds that are spelled with signs; only an equals sign can make them longer. -/
def Kind.isSymbol : Kind → Bool
  | newline | assign | plus | minus | times | slash | comparison _ => true
  | _ => false

namespace Lexer
variable {r : List Char}

theorem readNumber_append {n : List Char} (hn : IsNumber n)
    (hr : ∀ c ∈ r.head?, c.isDigit = false ∧ c ≠ '.') :
    readNumber (n ++ r) = ⟨.ok (.number,n),r⟩ := by
  have hd : ∀ c ∈ r.head?, c.isDigit = false := fun c hc => (hr c hc).1
  unfold readNumber
  cases hn with
  | whole _ h =>
    rw [takeWhile_append_stop h hd,dropWhile_append_stop h hd]
    cases r with
    | nil => rfl
    | cons c r =>
      have hc := (hr c rfl).2
      split
      · simp_all
      · rfl
  | @pointed ds fs _ h hf h' =>
    obtain ⟨f,fs,rfl⟩ := List.exists_cons_of_ne_nil hf
    have hp : ∀ c ∈ ('.' :: (f :: fs ++ r)).head?, c.isDigit = false := by simp
    rw [List.append_assoc,List.cons_append,takeWhile_append_stop h hp,dropWhile_append_stop h hp]
    simp only [List.cons_append,h' f (by simp),if_true]
    rw [← List.cons_append,takeWhile_append_stop h' hd,dropWhile_append_stop h' hd]

theorem read_number {n : List Char} (hn : IsNumber n)
    (hr : ∀ c ∈ r.head?, c.isDigit = false ∧ c ≠ '.') : read (n ++ r) = ⟨.ok (.number,n),r⟩ := by
  have h := readNumber_append hn hr
  obtain ⟨c,cs,rfl,hc⟩ := hn.exists_head
  rw [List.cons_append] at h ⊢
  rw [read,if_pos hc,h]

theorem read_word {w : List Char} (hw : IsWord w) (hr : ∀ c ∈ r.head?, isWordChar c = false) :
    read (w ++ r) = ⟨.ok (Kind.ofWord w,w),r⟩ := by
  have h : readWord (w ++ r) = ⟨.ok (Kind.ofWord w,w),r⟩ := by
    rw [readWord,takeWhile_append_stop hw.isWordChar hr,dropWhile_append_stop hw.isWordChar hr]
  obtain ⟨c,cs,rfl,hc,-⟩ := hw
  rw [List.cons_append] at h ⊢
  rw [read,not_isDigit_of_isLetter hc,if_neg (by simp),if_pos hc,h]

theorem read_ident {w : List Char} (hw : IsWord w) (hk : Keyword.ofChars? w = none)
    (hr : ∀ c ∈ r.head?, isWordChar c = false) : read (w ++ r) = ⟨.ok (.ident,w),r⟩ := by
  rw [read_word hw hr,Kind.ofWord,hk]

theorem read_string {text : List Char} (ht : ∀ c ∈ text, isStringChar c = true) :
    read ('"' :: (text ++ '"' :: r)) = ⟨.ok (.string,text),r⟩ := by
  have hq : ∀ c ∈ ('"' :: r).head?, isStringChar c = false := stop_of_head rfl rfl
  change readString (text ++ '"' :: r) = _
  rw [readString,takeWhile_append_stop ht hq,dropWhile_append_stop ht hq]
  rfl

theorem read_symbol {p : Piece} (hp : p.WellFormed) (hs : p.kind.isSymbol = true) {c : Char}
    (hc : c ≠ '=') : read (p.lexeme ++ c :: r) = ⟨.ok (p.kind,p.lexeme),c :: r⟩ := by
  have hx : ∀ (d : Char) (short long : Kind),
      readExtensible d short long (c :: r) = ⟨.ok (short,[d]),c :: r⟩ :=
    fun d short long => if_neg hc
  obtain ⟨kind,lexeme⟩ := p
  cases kind with
  | newline | plus | minus | times | slash =>
    obtain rfl := Option.some.inj hp
    rfl
  | assign =>
    obtain rfl := Option.some.inj hp
    exact hx _ _ _
  | comparison op =>
    obtain rfl := Option.some.inj hp
    cases op with
    | eq | ne | le | ge => rfl
    | lt | gt => exact hx _ _ _
  | _ => cases hs

/-- A token is read from its spelling, whatever follows that is neither part of it nor a point or
an equals sign. -/
theorem read_spelling {p : Piece} (hp : p.WellFormed) (hk : p.kind ≠ .eof) {c : Char}
    (hx : p.kind.extendedBy c = false) (hd : c ≠ '.') (he : c ≠ '=') :
    read (p.spelling ++ c :: r) = ⟨.ok (p.kind,p.lexeme),c :: r⟩ := by
  have hr : ∀ {q : Char → Bool}, q c = false → ∀ d ∈ (c :: r).head?, q d = false :=
    fun hq => stop_of_head rfl hq
  obtain ⟨kind,lexeme⟩ := p
  cases kind with
  | eof => exact absurd rfl hk
  | number =>
    have hn : IsNumber lexeme := hp
    refine read_number hn fun d hm => ?_
    obtain rfl : c = d := by simpa using hm
    exact ⟨hx,hd⟩
  | ident =>
    rw [Piece.spelling,if_neg (by simp)]
    exact read_ident hp.1 hp.2 (hr hx)
  | keyword k =>
    obtain rfl := Option.some.inj hp
    rw [Piece.spelling,if_neg (by simp),read_word k.isWord (hr hx),Kind.ofWord,
      k.ofChars?_spelling]
  | string =>
    rw [Piece.spelling,if_pos rfl,List.cons_append,List.append_assoc]
    exact read_string hp
  | newline | assign | plus | minus | times | slash | comparison =>
    exact read_symbol hp rfl he

theorem skipGap_append {gap : List Char} (hg : ∀ c ∈ gap, isGap c = true)
    (hr : ∀ c ∈ r.head?, isGap c = false ∧ c ≠ '#') : skipGap (gap ++ r) = r := by
  rw [skipGap,dropWhile_append_stop hg fun c hc => (hr c hc).1]
  split
  · exact absurd rfl (hr '#' rfl).2
  · rfl

end Lexer

/-- A token with blanks behind it. -/
structure Padded where
  piece : Piece
  padding : List Char
  wellFormed : piece.WellFormed
  proper : piece.kind ≠ .eof
  padded : padding ≠ []
  blank : ∀ c ∈ padding, c = ' ' ∨ c = '\t'

namespace Padded

def text (x : Padded) : List Char := x.piece.spelling ++ x.padding

theorem isGap_padding (x : Padded) : ∀ c ∈ x.padding, isGap c = true := by
  intro c hc
  rcases x.blank c hc with rfl | rfl <;> rfl

/-- A blank ends every token. -/
theorem read_append (x : Padded) (r : List Char) : read (x.text ++ r) =
    ⟨.ok (x.piece.kind,x.piece.lexeme),x.padding ++ r⟩ := by
  obtain ⟨c,cs,hc⟩ := List.exists_cons_of_ne_nil x.padded
  have hb : c = ' ' ∨ c = '\t' := x.blank c (by simp [hc])
  have hx : x.piece.kind.extendedBy c = false := by
    cases x.piece.kind with
    | comparison op => rcases hb with rfl | rfl <;> cases op <;> rfl
    | _ => rcases hb with rfl | rfl <;> rfl
  rw [text,List.append_assoc,hc,List.cons_append]
  refine read_spelling x.wellFormed x.proper hx ?_ ?_
  · rcases hb with rfl | rfl <;> decide
  · rcases hb with rfl | rfl <;> decide

end Padded

/-- Tokens one behind the other. -/
def paddedText (xs : List Padded) : List Char := xs.flatMap Padded.text

theorem length_le_paddedText (xs : List Padded) : xs.length ≤ (paddedText xs).length := by
  induction xs with
  | nil => simp
  | cons x xs ih =>
    obtain ⟨c,cs,hc,-⟩ := x.wellFormed.exists_spelling x.proper
    rw [paddedText,List.flatMap_cons,← paddedText,Padded.text,hc]
    simp only [List.length_append,List.length_cons]
    omega

def isFeed (t : Token) : Bool := t.kind = .newline

/-- The line behind a token of the given line. -/
def Piece.lineAfter (p : Piece) (line : Nat) : Nat :=
  if p.kind = .newline then line + 1 else line

theorem Piece.lineAfter_add (p : Piece) (line : Nat) (ts : List Token) :
    p.lineAfter line + ts.countP isFeed =
      line + (⟨p.kind,p.lexeme,line⟩ :: ts).countP isFeed := by
  by_cases hk : p.kind = .newline
  · simp [lineAfter,isFeed,hk]
    omega
  · simp [lineAfter,isFeed,hk]

/-- Tokens with their lines, the first of them on the given one. -/
def numbered : (line : Nat) → List Piece → List Token
  | _,[] => []
  | line,p :: ps => ⟨p.kind,p.lexeme,line⟩ :: numbered (p.lineAfter line) ps

theorem piece_numbered (line : Nat) (ps : List Piece) :
    (numbered line ps).map Token.piece = ps := by
  induction ps generalizing line with
  | nil => rfl
  | cons p ps ih =>
    rw [numbered,List.map_cons,ih]
    rfl

theorem map_numbered {β : Type} (f : Piece → β) (line : Nat) (ps : List Piece) :
    (numbered line ps).map (fun t => f t.piece) = ps.map f :=
  List.map_map.symm.trans (congrArg (List.map f) (piece_numbered line ps))

theorem numbered_append (line : Nat) (ps qs : List Piece) : numbered line (ps ++ qs) =
    numbered line ps ++ numbered (line + (numbered line ps).countP isFeed) qs := by
  induction ps generalizing line with
  | nil => rfl
  | cons p ps ih =>
    rw [List.cons_append,numbered,numbered,ih,p.lineAfter_add]
    rfl

/-- A token stands as many lines below the first as there are line feeds before it. -/
theorem line_numbered {line : Nat} {ps : List Piece} {before after : List Token} {t : Token}
    (h : numbered line ps = before ++ t :: after) : t.line = line + before.countP isFeed := by
  induction before generalizing line ps with
  | nil =>
    cases ps with
    | nil => cases h
    | cons p ps =>
      obtain ⟨rfl,-⟩ := List.cons_eq_cons.mp h
      rfl
  | cons u before ih =>
    cases ps with
    | nil => cases h
    | cons p ps =>
      obtain ⟨rfl,ht⟩ := List.cons_eq_cons.mp h
      rw [ih ht,p.lineAfter_add]

namespace Cursor

theorem next_padded (x : Padded) {gap : List Char} (hg : ∀ c ∈ gap, isGap c = true)
    (r : List Char) (line : Nat) : (Cursor.mk (gap ++ (x.text ++ r)) line).next =
      (.ok ⟨x.piece.kind,x.piece.lexeme,line⟩,
        ⟨x.padding ++ r,x.piece.lineAfter line⟩) := by
  have hs : skipGap (gap ++ (x.text ++ r)) = x.text ++ r := by
    refine skipGap_append hg fun c hc => ?_
    obtain ⟨d,ds,hd,h⟩ := x.wellFormed.exists_spelling x.proper
    rw [Padded.text,hd] at hc
    obtain rfl : d = c := by simpa using hc
    exact h
  unfold next
  simp only [hs,x.read_append r]
  rfl

theorem next_gap {gap : List Char} (hg : ∀ c ∈ gap, isGap c = true) (line : Nat) :
    (Cursor.mk gap line).next = (.ok ⟨.eof,[],line⟩,⟨[],line⟩) := by
  have hs : skipGap gap = [] := by simpa using skipGap_append (r := []) hg (by simp)
  unfold next
  simp only [hs]
  rfl

end Cursor

/-- The lexer finds the tokens, one with every step. -/
theorem TokenStream.collect_padded (xs : List Padded) (gap : List Char)
    (hg : ∀ c ∈ gap, isGap c = true) (line : Nat) {fuel : Nat} (hf : xs.length < fuel) :
    collect fuel [] ⟨gap ++ paddedText xs,line⟩ =
      ⟨(numbered line (xs.map Padded.piece)).map .ok,
        line + (numbered line (xs.map Padded.piece)).countP isFeed⟩ := by
  induction xs generalizing gap line fuel with
  | nil =>
    obtain ⟨fuel,rfl⟩ := Nat.exists_eq_add_one_of_ne_zero (n := fuel) (by omega)
    rw [show gap ++ paddedText [] = gap from List.append_nil gap,
      collect_eof (Cursor.next_gap hg line) rfl]
    rfl
  | cons x xs ih =>
    obtain ⟨fuel,rfl⟩ := Nat.exists_eq_add_one_of_ne_zero (n := fuel) (by omega)
    have hn := Cursor.next_padded x hg (paddedText xs) line
    have ht : paddedText (x :: xs) = x.text ++ paddedText xs := rfl
    rw [ht,collect_ok hn x.proper,ih _ x.isGap_padding _ (by simpa using hf),
      x.piece.lineAfter_add]
    rfl

/-- Tokens with blanks behind them are read as they were, each with the line that it stands on. -/
theorem TokenStream.upToFault_padded (xs : List Padded) :
    (ofChars (paddedText xs)).upToFault =
      (numbered 1 (xs.map Padded.piece ++ [⟨.eof,[]⟩]),none) := by
  have hs : ofChars (paddedText xs) =
      ⟨(numbered 1 (xs.map Padded.piece)).map .ok,
        1 + (numbered 1 (xs.map Padded.piece)).countP isFeed⟩ :=
    collect_padded xs [] (by simp) 1 (Nat.lt_succ_of_le (length_le_paddedText xs))
  rw [hs,upToFault_eq_none,numbered_append]
  exact ⟨_,rfl,rfl⟩

/-! ## Bytes -/

/-- The lexemes that a token of a kind may have. A string may have all bytes but those of a few
characters; everything else is spelled with characters. -/
def Kind.Allows : Kind → Bytes → Prop
  | .string,lexeme => ∀ b ∈ lexeme, b ∉ ofString "\"\r\n\t\\%"
  | kind,lexeme => ∃ cs, lexeme = encode cs ∧ Piece.WellFormed ⟨kind,cs⟩

instance (lexeme : Bytes) : Decidable (Kind.Allows .string lexeme) :=
  inferInstanceAs (Decidable (∀ b ∈ lexeme, b ∉ ofString "\"\r\n\t\\%"))

/-- A token as it is printed, with blanks behind it. -/
structure Printed where
  kind : Kind
  lexeme : Bytes
  padding : Bytes
  allowed : kind.Allows lexeme
  proper : kind ≠ .eof
  padded : padding ≠ []
  blank : ∀ b ∈ padding, b = 32 ∨ b = 9

theorem Kind.Allows.wellFormed {kind : Kind} {lexeme : Bytes} (h : kind.Allows lexeme) :
    Piece.WellFormed ⟨kind,decode lexeme⟩ := by
  by_cases hk : kind = .string
  · subst hk
    intro c hc
    by_contra hs
    -- what a string refuses has bytes of its own, and they would stand in the lexeme
    have hm : c ∈ ['"','\r','\n','\t','\\','%'] := by
      simpa [isStringChar,or_iff_not_imp_left] using hs
    have hne : c ≠ replacement := by
      rintro rfl
      exact absurd hm (by decide)
    obtain ⟨b,hb⟩ := List.exists_mem_of_ne_nil _ (String.utf8EncodeChar_ne_nil (c := c))
    exact h b ((bytes_of_mem_decode hc hne).subset hb) (List.mem_flatMap.mpr ⟨c,hm,hb⟩)
  · have h : ∃ cs, lexeme = encode cs ∧ Piece.WellFormed ⟨kind,cs⟩ := by
      cases kind with
      | string => exact absurd rfl hk
      | _ => exact h
    obtain ⟨cs,rfl,hw⟩ := h
    rwa [decode_encode]

theorem Kind.Allows.isUtf8 {kind : Kind} {lexeme : Bytes} (h : kind.Allows lexeme)
    (hk : kind ≠ .string) : IsUtf8 lexeme := by
  cases kind with
  | string => exact absurd rfl hk
  | _ =>
    obtain ⟨cs,rfl,-⟩ := h
    exact isUtf8_encode cs

namespace Printed

/-- Strings stand in quotes, everything else as it is. -/
def text (x : Printed) : Bytes :=
  (if x.kind = .string then "\"" ++ x.lexeme ++ "\"" else x.lexeme) ++ x.padding

theorem decode_blanks {padding : Bytes} (h : ∀ b ∈ padding, b = 32 ∨ b = 9) (rest : Bytes) :
    decode (padding ++ rest) = padding.map Char.ofUInt8 ++ decode rest := by
  induction padding with
  | nil => rfl
  | cons b padding ih =>
    obtain ⟨hb,hp⟩ := List.forall_mem_cons.mp h
    have hlt : b < 0x80 := by
      rcases hb with rfl | rfl <;> decide
    rw [List.cons_append,decode_cons_of_lt hlt,ih hp]
    rfl

/-- The characters of a printed token. -/
def decoded (x : Printed) : Padded where
  piece := ⟨x.kind,decode x.lexeme⟩
  padding := x.padding.map Char.ofUInt8
  wellFormed := x.allowed.wellFormed
  proper := x.proper
  padded := by simpa using x.padded
  blank := by
    intro c hc
    obtain ⟨b,hb,rfl⟩ := List.mem_map.mp hc
    rcases x.blank b hb with rfl | rfl
    · exact .inl rfl
    · exact .inr rfl

theorem decode_text (x : Printed) (rest : Bytes) :
    decode (x.text ++ rest) = x.decoded.text ++ decode rest := by
  have hblank := decode_blanks x.blank rest
  obtain ⟨b,padding,hp⟩ := List.exists_cons_of_ne_nil x.padded
  have hb : b < 0x80 := by
    rcases x.blank b (by simp [hp]) with rfl | rfl <;> decide
  -- a blank or a quote begins what follows the lexeme, so that it is read on its own
  have hlexeme : decode (x.lexeme ++ (x.padding ++ rest)) =
      decode x.lexeme ++ (x.padding.map Char.ofUInt8 ++ decode rest) := by
    rw [decode_append_of_boundary (.inr ⟨b,by simp [hp],hb⟩),hblank]
  have hquoted : decode ([34] ++ (x.lexeme ++ ([34] ++ (x.padding ++ rest)))) =
      '"' :: (decode x.lexeme ++ '"' :: (x.padding.map Char.ofUInt8 ++ decode rest)) := by
    rw [List.singleton_append,decode_cons_of_lt (by decide),
      decode_append_of_boundary (.inr ⟨34,by simp,by decide⟩),List.singleton_append,
      decode_cons_of_lt (by decide),hblank]
    rfl
  have hquote : ofString "\"" = [34] := by decide
  rw [text,Padded.text,List.append_assoc]
  by_cases hk : x.kind = .string
  · have hs : x.decoded.piece.spelling = '"' :: decode x.lexeme ++ ['"'] := if_pos hk
    rw [if_pos hk,hs,hquote]
    simp only [List.append_assoc,List.cons_append]
    exact hquoted
  · have hs : x.decoded.piece.spelling = decode x.lexeme := if_neg hk
    rw [if_neg hk,hs,hlexeme,List.append_assoc]
    rfl

end Printed

def printedText (xs : List Printed) : Bytes := xs.flatMap Printed.text

theorem decode_printedText (xs : List Printed) :
    decode (printedText xs) = paddedText (xs.map Printed.decoded) := by
  induction xs with
  | nil => rfl
  | cons x xs ih =>
    rw [printedText,List.flatMap_cons,x.decode_text]
    exact congrArg _ ih

/-- Printed tokens are read as they were, each with the line that it stands on, but for strings that
are no valid UTF-8. -/
theorem lex_printedText (xs : List Printed) :
    ∃ tokens, (TokenStream.ofChars (decode (printedText xs))).upToFault = (tokens,none) ∧
      tokens.map Token.kind = xs.map Printed.kind ++ [.eof] ∧
      (∀ before t after, tokens = before ++ t :: after → t.line = 1 + before.countP isFeed) ∧
      (tokens.map Token.text = xs.map Printed.lexeme ++ [[]] ↔
        ∀ x ∈ xs, x.kind = .string → IsUtf8 x.lexeme) := by
  let ps := xs.map (fun x => x.decoded.piece) ++ [⟨.eof,[]⟩]
  have hkinds : (numbered 1 ps).map Token.kind = ps.map Piece.kind :=
    map_numbered Piece.kind 1 ps
  have htexts : (numbered 1 ps).map Token.text = ps.map fun p => encode p.lexeme :=
    map_numbered (fun p => encode p.lexeme) 1 ps
  refine ⟨numbered 1 ps,?_,?_,fun before t after h => line_numbered h,?_⟩
  · rw [decode_printedText,TokenStream.upToFault_padded,List.map_map]
    rfl
  · rw [hkinds,List.map_append,List.map_map]
    rfl
  · have hs : ps.map (fun p => encode p.lexeme) =
        xs.map (fun x => encode (decode x.lexeme)) ++ [[]] := by
      rw [List.map_append,List.map_map]
      rfl
    rw [htexts,hs,List.append_cancel_right_eq,List.map_inj_left]
    refine forall₂_congr fun x _ => ?_
    rw [encode_decode_iff]
    constructor
    · exact fun h _ => h
    · intro h
      by_cases hk : x.kind = .string
      · exact h hk
      · exact x.allowed.isUtf8 hk

example : (TokenStream.ofChars (decode (printedText [
    ⟨.keyword .print,"PRINT",[32],⟨_,rfl,rfl⟩,by simp,by simp,by simp⟩,
    ⟨.string,"a #b",[9,32],by decide +kernel,by simp,by simp,by simp⟩,
    ⟨.newline,"\n",[32],⟨_,rfl,rfl⟩,by simp,by simp,by simp⟩]))).upToFault =
      ([⟨.keyword .print,"PRINT".toList,1⟩,⟨.string,"a #b".toList,1⟩,⟨.newline,['\n'],1⟩,
        ⟨.eof,[],2⟩],none) := by decide +kernel

/-- A string of one stray byte. -/
def strayString : Printed :=
  ⟨.string,[0xFF],[32],by decide +kernel,by simp,by simp,by simp⟩

/-- A stray byte in a string comes back as the three bytes of U+FFFD. -/
theorem lex_strayString : printedText [strayString] = [34,0xFF,34,32] ∧
    (TokenStream.ofChars (decode (printedText [strayString]))).upToFault =
      ([⟨.string,[replacement],1⟩,⟨.eof,[],1⟩],none) ∧
    (⟨.string,[replacement],1⟩ : Token).text = [0xEF,0xBF,0xBD] := by
  decide +kernel

end TeenyTiny
