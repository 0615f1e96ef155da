import TeenyTiny.Proofs.ProgramLines
import TeenyTiny.Proofs.Snippets

/-! Nothing breaks out of a literal. The strings of a source hold no character that ends or changes
a literal of C, so the line that prints a string is one line, and its literal ends where it was
meant to end. Until C17 there is one way left to an escape: two question marks and a slash are read
as a backslash before anything else is looked at. Where they do not stand, and everywhere since
C23, the output function finds nothing in the literal but text. -/
namespace TeenyTiny
open Text Piece Ast Lexer Generator

namespace C

/-- Editions of C that differ in their first phase of translation. -/
inductive Edition where
  | c17 | c23
  deriving DecidableEq

/-- The character that stands for this one behind two question marks. -/
def trigraph? : Char → Option Char
  | '=' => some '#'
  | '/' => some '\\'
  | '\'' => some '^'
  | '(' => some '['
  | ')' => some ']'
  | '!' => some '|'
  | '<' => some '\x7b'
  | '>' => some '\x7d'
  | '-' => some '~'
  | _ => none

def replaceTrigraphs : List Char → List Char
  | '?' :: '?' :: c :: rest =>
    match trigraph? c with
    | some d => d :: replaceTrigraphs rest
    | none => '?' :: replaceTrigraphs ('?' :: c :: rest)
  | c :: rest => c :: replaceTrigraphs rest
  | [] => []

/-- The first phase of translation. Trigraphs are replaced wherever they stand, until C17. -/
def phaseOne : Edition → List Char → List Char
  | .c17,cs => replaceTrigraphs cs
  | .c23,cs => cs

/-- Characters that end or change a literal, a format or a line. -/
def special : List Char := ['"','\r','\n','\t','\\','%']

/-- What stands inside of a literal and what stands behind its closing quote, once trigraphs are
replaced. A backslash takes the next character with it, and no literal goes on over the end of a
line. -/
def literalBody : List Char → Option (List Char × List Char)
  | [] => none
  | c :: rest =>
    if c = '"' then some ([],rest)
    else if c = '\n' then none
    else if c = '\\' then
      match rest with
      | [] => none
      | d :: rest => (literalBody rest).map fun x => (c :: d :: x.1,x.2)
    else (literalBody rest).map fun x => (c :: x.1,x.2)

structure Literal where
  before : List Char
  body : List Char
  behind : List Char
  deriving DecidableEq

/-- The first string literal of a line, which has been through the first phase. -/
def literal? (line : List Char) : Option Literal :=
  match line.dropWhile (· ≠ '"') with
  | [] => none
  | _ :: rest => (literalBody rest).map fun x => ⟨line.takeWhile (· ≠ '"'),x.1,x.2⟩

example : literal? (phaseOne .c17 "f(\"a??/\"b\", \"c\")".toList) =
    some ⟨"f(".toList,"a\\\"b".toList,", \"c\")".toList⟩ := by decide +kernel

/-- Calls of the output function with no value. -/
def printsText (line : List Char) : Bool :=
  Code.textStart.isPrefixOf line && !Code.valueStart.isPrefixOf line

/-- The line is one call of the output function with one literal, which ends where the line closes
it and holds the text and the escape of a line feed. -/
structure Closes (e : Edition) (text line : List Char) : Prop where
  line_eq : line = "printf(\"".toList ++ text ++ "\\n\");".toList
  single : '\n' ∉ line ∧ '\r' ∉ line
  literal : literal? (phaseOne e line) =
    some ⟨"printf(".toList,phaseOne e text ++ "\\n".toList,");".toList⟩

/-- No other escape and no conversion stands in the literal. -/
structure PrintsOnly (e : Edition) (text line : List Char) : Prop extends Closes e text line where
  conversions : '%' ∉ phaseOne e text ++ "\\n".toList
  escapes : '\\' ∉ phaseOne e text

section Trigraphs
variable {c d x : Char} {cs rest r : List Char}

theorem trigraph?_eq_backslash : trigraph? c = some '\\' ↔ c = '/' := by
  constructor
  · intro h
    unfold trigraph? at h
    split at h <;> simp_all
  · rintro rfl
    rfl

theorem not_special_of_trigraph? (h : trigraph? c = some d) :
    d ∉ ['"','\r','\n','\t','%'] := by
  unfold trigraph? at h
  split at h <;> cases h <;> decide

/-- What begins no trigraph stays. -/
theorem replaceTrigraphs_cons
    (h : ∀ d more, c = '?' → rest = '?' :: d :: more → trigraph? d = none) :
    replaceTrigraphs (c :: rest) = c :: replaceTrigraphs rest := by
  rw [replaceTrigraphs.eq_def]
  split
  · next d more he =>
    obtain ⟨rfl,rfl⟩ := List.cons_eq_cons.mp he
    rw [h d more rfl rfl]
  · next he =>
    obtain ⟨rfl,rfl⟩ := List.cons_eq_cons.mp he
    rfl
  · next he => cases he

theorem replaceTrigraphs_append (hr : ∀ c ∈ r.head?, c ≠ '?' ∧ trigraph? c = none) :
    replaceTrigraphs (cs ++ r) = replaceTrigraphs cs ++ replaceTrigraphs r := by
  fun_induction replaceTrigraphs cs with
  | case1 c rest d hd ih =>
    simp only [List.cons_append,replaceTrigraphs,hd,ih]
  | case2 c rest hd ih =>
    simp only [List.cons_append] at ih
    simp only [List.cons_append,replaceTrigraphs,hd,ih]
  | case3 c rest h ih =>
    rw [List.cons_append,replaceTrigraphs_cons,ih,List.cons_append]
    intro d more hc he
    -- a trigraph over the seam would begin in front of it and end in `r`
    rcases rest with _ | ⟨y,_ | ⟨z,rest⟩⟩
    · exact absurd rfl (hr '?' (by simp [show r = '?' :: d :: more from he])).1
    · obtain ⟨-,rfl⟩ := List.cons_eq_cons.mp he
      exact (hr d (by simp)).2
    · obtain ⟨rfl,he⟩ := List.cons_eq_cons.mp he
      exact absurd rfl (fun hz => h z rest hc hz)
  | case4 => rfl

theorem mem_replaceTrigraphs (h : x ∈ replaceTrigraphs cs) :
    x ∈ cs ∨ ∃ c, trigraph? c = some x := by
  fun_induction replaceTrigraphs cs with
  | case1 c rest d hd ih =>
    rcases List.mem_cons.mp h with rfl | h
    · exact .inr ⟨c,hd⟩
    · exact (ih h).imp_left fun hm => by simp [hm]
  | case2 c rest hd ih =>
    rcases List.mem_cons.mp h with rfl | h
    · exact .inl List.mem_cons_self
    · exact (ih h).imp_left (List.mem_cons_of_mem _)
  | case3 c rest _ ih =>
    rcases List.mem_cons.mp h with rfl | h
    · exact .inl List.mem_cons_self
    · exact (ih h).imp_left (List.mem_cons_of_mem _)
  | case4 => cases h

/-- A backslash comes from the one trigraph that stands for it. Trigraphs do not overlap, so it is
replaced wherever it stands. -/
theorem backslash_mem_replaceTrigraphs (h : '\\' ∉ cs) :
    '\\' ∈ replaceTrigraphs cs ↔ ['?','?','/'] <:+: cs := by
  fun_induction replaceTrigraphs cs with
  | case1 c rest d hd ih =>
    have hc : '?' ≠ c := by
      rintro rfl
      cases hd
    have hslash : '\\' = d ↔ '/' = c := by
      rw [eq_comm (b := c),← trigraph?_eq_backslash,hd,Option.some.injEq,eq_comm]
    have hrest : '\\' ∉ rest := fun hm => h (by simp [hm])
    rw [List.mem_cons,ih hrest,hslash]
    simp [List.infix_cons_iff,List.cons_prefix_cons,hc]
  | case2 c rest hd ih =>
    have hc : '/' ≠ c := by
      rintro rfl
      cases hd
    have hskip : ['?','?','/'] <:+: '?' :: '?' :: c :: rest ↔
        ['?','?','/'] <:+: '?' :: c :: rest := by
      rw [List.infix_cons_iff,or_iff_right]
      simp [List.cons_prefix_cons,hc]
    rw [List.mem_cons,or_iff_right (by decide),ih (fun hm => h (List.mem_cons_of_mem _ hm)),hskip]
  | case3 c rest hc ih =>
    have hskip : ['?','?','/'] <:+: c :: rest ↔ ['?','?','/'] <:+: rest := by
      rw [List.infix_cons_iff,or_iff_right]
      intro hp
      obtain ⟨rfl,more,rfl⟩ := List.cons_prefix_cons.mp hp
      exact hc '/' more rfl rfl
    rw [List.mem_cons,not_or] at h
    rw [List.mem_cons,or_iff_right h.1,ih h.2,hskip]
  | case4 => simp

end Trigraphs

theorem literalBody_cons {c : Char} (hq : c ≠ '"') (hn : c ≠ '\n') (hb : c ≠ '\\')
    (rest : List Char) :
    literalBody (c :: rest) = (literalBody rest).map fun x => (c :: x.1,x.2) := by
  rw [literalBody.eq_def]
  simp only [if_neg hq,if_neg hn,if_neg hb]

theorem literalBody_escape (d : Char) (rest : List Char) : literalBody ('\\' :: d :: rest) =
    (literalBody rest).map fun x => ('\\' :: d :: x.1,x.2) := rfl

/-- A literal goes on to the quote that the line closes it with, also behind a backslash: that one
takes only the backslash of the line feed with it. -/
theorem literalBody_append {body : List Char} (h : ∀ c ∈ body, c ≠ '"' ∧ c ≠ '\n') :
    literalBody (body ++ "\\n\");".toList) = some (body ++ "\\n".toList,");".toList) := by
  induction body using List.twoStepInduction with
  | nil => rfl
  | singleton c =>
    obtain ⟨hq,hn⟩ := h c List.mem_cons_self
    by_cases hb : c = '\\'
    · subst hb
      rfl
    · rw [List.singleton_append,literalBody_cons hq hn hb]
      rfl
  | cons_cons c d rest ih ihd =>
    obtain ⟨hc,hd⟩ := List.forall_mem_cons.mp h
    by_cases hb : c = '\\'
    · subst hb
      rw [List.cons_append,List.cons_append,literalBody_escape,
        ih (List.forall_mem_cons.mp hd).2]
      rfl
    · rw [List.cons_append,literalBody_cons hc.1 hc.2 hb,ihd d hd]
      rfl

theorem literal?_call (rest : List Char) : literal? ("printf(\"".toList ++ rest) =
    (literalBody rest).map fun x => ⟨"printf(".toList,x.1,x.2⟩ := rfl

/-- The first phase finds trigraphs in the text of a line only. -/
theorem phaseOne_content (e : Edition) (text : List Char) :
    phaseOne e (BodyLine.text text).content =
      "printf(\"".toList ++ (phaseOne e text ++ "\\n\");".toList) := by
  have hc : (BodyLine.text text).content = "printf(\"".toList ++ (text ++ "\\n\");".toList) :=
    List.append_assoc _ _ _
  have hopen : ∀ r, replaceTrigraphs ("printf(\"".toList ++ r) =
    "printf(\"".toList ++ replaceTrigraphs r := fun _ => rfl
  have hclose : replaceTrigraphs (text ++ "\\n\");".toList) =
      replaceTrigraphs text ++ "\\n\");".toList := by
    refine replaceTrigraphs_append fun c hc => ?_
    obtain rfl : '\\' = c := Option.some.inj hc
    decide
  rw [hc]
  cases e with
  | c17 => rw [phaseOne,phaseOne,hopen,hclose]
  | c23 => rfl

section Text
variable {text : List Char} (h : ∀ c ∈ text, c ∉ special) (e : Edition)
include h

theorem not_mem_phaseOne {x : Char} (hx : x ∈ ['"','\r','\n','\t','%']) : x ∉ phaseOne e text := by
  have hsub : ['"','\r','\n','\t','%'] ⊆ special := by decide
  have hs : x ∉ text := fun hm => h x hm (hsub hx)
  cases e with
  | c17 =>
    intro hm
    rcases mem_replaceTrigraphs hm with hm | ⟨c,hc⟩
    · exact hs hm
    · exact not_special_of_trigraph? hc hx
  | c23 => exact hs

theorem closes_text : Closes e text (BodyLine.text text).content := by
  have hnot : ∀ c ∈ special, c ∉ text := fun c hc hm => h c hm hc
  refine ⟨rfl,⟨?_,?_⟩,?_⟩
  · exact List.not_mem_append (List.not_mem_append (by decide) (hnot '\n' (by decide))) (by decide)
  · exact List.not_mem_append (List.not_mem_append (by decide) (hnot '\r' (by decide))) (by decide)
  · rw [phaseOne_content,literal?_call,literalBody_append]
    · rfl
    · intro c hc
      constructor
      · rintro rfl
        exact not_mem_phaseOne h e (by decide) hc
      · rintro rfl
        exact not_mem_phaseOne h e (by decide) hc

/-- Text is all that stands in the literal, unless a trigraph there stands for a backslash. -/
theorem printsOnly_iff : PrintsOnly e text (BodyLine.text text).content ↔
    (e = .c17 → ¬['?','?','/'] <:+: text) := by
  have hb : '\\' ∉ text := fun hm => h '\\' hm (by decide)
  have he : '\\' ∉ phaseOne e text ↔ (e = .c17 → ¬['?','?','/'] <:+: text) := by
    cases e with
    | c17 => simp [phaseOne,backslash_mem_replaceTrigraphs hb]
    | c23 => simp [phaseOne,hb]
  rw [← he]
  constructor
  · exact fun hp => hp.escapes
  · intro hp
    exact ⟨closes_text h e,List.not_mem_append (not_mem_phaseOne h e (by decide)) (by decide),hp⟩

end Text

theorem printsText_word {w r : List Char} {c : Char} (hw : ∀ d ∈ w, isNameChar d = true)
    (hc : isNameChar c = false) (hp : '(' ≠ c) : printsText (w ++ c :: r) = false := by
  have h : Code.textStart.isPrefixOf (w ++ c :: r) = false :=
    not_isPrefixOf hw hc (v := "printf".toList) (List.all_eq_true.mp rfl) rfl hp
  rw [printsText,h,Bool.false_and]

end C

theorem isStringChar_iff {c : Char} : isStringChar c = true ↔ c ∉ C.special := by
  simp [isStringChar,C.special,and_assoc]

namespace BodyLine

def text? : BodyLine → Option (List Char)
  | text content => some content
  | _ => none

theorem WellFormed.printsText_eq {l : BodyLine} (h : l.WellFormed) :
    C.printsText l.content = l.text?.isSome := by
  cases l with
  | text content =>
    have hc : (text content).content = Code.textStart ++ (content ++ "\\n\");".toList) :=
      List.append_assoc _ _ _
    rw [hc,C.printsText,C.isPrefixOf_append,C.not_isPrefixOf_text h]
    rfl
  | formula f ps =>
    cases f with
    | value =>
      have hc : (formula .value ps).content =
          Code.valueStart ++ (copied ps ++ Formula.value.mark) := List.append_assoc _ _ _
      rw [hc,C.printsText,C.isPrefixOf_append,Bool.not_true,Bool.and_false]
      rfl
    | condition kind => cases kind <;> rfl
    | assigned n =>
      have hn : IsWord n := h.1
      rw [content_assigned]
      exact C.printsText_word hn.isNameChar rfl (by decide)
  | label n =>
    have hn : IsWord n := h
    exact C.printsText_word hn.isNameChar rfl (by decide)
  | zero n =>
    have hn : IsWord n := h
    exact C.printsText_word hn.isNameChar rfl (by decide)
  | jump | read | skip | close | final => rfl

theorem filter_printsText {ls : List BodyLine} (h : ∀ l ∈ ls, l.WellFormed) :
    (ls.map content).filter C.printsText =
      (ls.filterMap text?).map fun s => (text s).content := by
  induction ls with
  | nil => rfl
  | cons l ls ih =>
    obtain ⟨hl,hls⟩ := List.forall_mem_cons.mp h
    have hp := hl.printsText_eq
    rw [List.map_cons,List.filter_cons,hp,ih hls,List.filterMap_cons]
    cases l <;> rfl

end BodyLine

/-- The strings among the pieces. -/
def texts (ps : List Piece) : List (List Char) :=
  (ps.filter fun x => x.kind = .string).map Piece.lexeme

@[simp] theorem texts_append (ps qs : List Piece) : texts (ps ++ qs) = texts ps ++ texts qs := by
  simp [texts]

theorem texts_cons_of_ne {p : Piece} (h : p.kind ≠ .string) (ps : List Piece) :
    texts (p :: ps) = texts ps := by
  simp [texts,h]

theorem texts_of_isCopied {ps : List Piece} (h : ∀ p ∈ ps, p.kind.isCopied = true) :
    texts ps = [] := by
  rw [texts,List.filter_eq_nil_iff.mpr,List.map_nil]
  intro p hp hk
  have hc := h p hp
  rw [of_decide_eq_true hk] at hc
  cases hc

theorem texts_squeezeAfter (afterFeed : Bool) (ps : List Piece) :
    texts (squeezeAfter afterFeed ps) = texts ps := by
  induction ps generalizing afterFeed with
  | nil => rfl
  | cons p ps ih =>
    rw [squeezeAfter]
    split_ifs with hk hf
    · rw [ih,texts_cons_of_ne (by simp [hk])]
    · rw [texts_cons_of_ne (by simp [hk]),texts_cons_of_ne (by simp [hk]),ih]
    · unfold texts at ih ⊢
      rw [List.filter_cons,List.filter_cons]
      split_ifs <;> simp [ih]

namespace Ast

mutual

/-- A string is printed on the line of its own statement. -/
theorem Statement.texts_pieces (s : Statement) :
    texts s.pieces = s.lines.filterMap BodyLine.text? := by
  match s with
  | .printText text => rfl
  | .printValue value =>
    have hv := texts_of_isCopied value.isCopied
    rw [Statement.pieces,texts_cons_of_ne (by simp),texts_append,hv]
    rfl
  | .block kind condition body =>
    have hc := texts_of_isCopied condition.isCopied
    have hb := Block.texts_pieces body
    rw [Statement.pieces,texts_cons_of_ne (by simp),texts_append,hc,texts_cons_of_ne (by simp),
      texts_cons_of_ne (by simp),texts_append,hb]
    simp only [Statement.lines,List.filterMap_cons,List.filterMap_append,BodyLine.text?]
    rfl
  | .assign name value =>
    have hv := texts_of_isCopied value.isCopied
    rw [Statement.pieces,texts_cons_of_ne (by simp),texts_cons_of_ne (by simp),
      texts_cons_of_ne (by simp),texts_append,hv]
    rfl
  | .label _ | .goto _ | .input _ => rfl

theorem Block.texts_pieces (b : List Statement) :
    texts (Block.pieces b) = (Block.lines b).filterMap BodyLine.text? := by
  match b with
  | [] => rfl
  | s :: b =>
    rw [Block.pieces,Block.lines,texts_append,List.filterMap_append,s.texts_pieces,
      Block.texts_pieces b]

end

/-- The header prints nothing, and the body prints the strings of the program. -/
theorem Block.filter_printsText {b : Block} (hw : ∀ p ∈ b.program, p.WellFormed) :
    (C.lines b.translation).filter C.printsText =
      (texts b.program).map fun s => (BodyLine.text s).content := by
  have hheader : (headerLines (Block.targets b).eraseDups).filter C.printsText = [] := by
    refine List.filter_eq_nil_iff.mpr fun l hl => ?_
    have hl : C.printsText l = false := headerLines_all (by decide) (by decide) (fun _ => rfl) l hl
    rw [hl]
    exact Bool.false_ne_true
  have htexts : texts b.program = (Block.lines b).filterMap BodyLine.text? := by
    rw [Block.program,texts_append,Block.texts_pieces b]
    exact List.append_nil _
  have hbody : b.bodyLines.filterMap BodyLine.text? = (Block.lines b).filterMap BodyLine.text? := by
    rw [Block.bodyLines,List.filterMap_append]
    exact List.append_nil _
  rw [Block.lines_translation hw,List.filter_append,hheader,List.filter_append,
    BodyLine.filter_printsText (Block.wellFormed_bodyLines hw),hbody,htexts]
  exact List.append_nil _

end Ast

theorem Keyword.ne_spelling_of_ofChars? {cs : List Char} (h : ofChars? cs = none) (k : Keyword) :
    cs ≠ k.spelling.toList := by
  rintro rfl
  rw [k.ofChars?_spelling] at h
  cases h

/-- Every token has the form of its kind. The lines that print strings are made from those of the
source, one from each, and print only them unless a trigraph of C17 makes a backslash. -/
theorem printed_texts_exact (src : Bytes) :
    (∀ (cursor : Cursor) (t : Token), cursor.next.1 = .ok t →
      t.piece.WellFormed ∧ (t.kind = .ident → ∀ k : Keyword, t.lexeme ≠ k.spelling.toList) ∧
        (t.kind = .string → ∀ c ∈ t.lexeme, c ∉ C.special)) ∧
    ∀ text, (compileText src).2 = .ok text →
      ∃ tokens, (TokenStream.ofChars (decode (preprocess src))).upToFault = (tokens,none) ∧
        List.Forall₂ (fun s line => ∀ e, C.Closes e s line ∧
            (C.PrintsOnly e s line ↔ (e = .c17 → ¬['?','?','/'] <:+: s)))
          (texts (tokens.map Token.piece)) ((C.lines (decode text)).filter C.printsText) := by
  constructor
  · rintro cursor ⟨kind,lexeme,line⟩ ht
    have hw := Cursor.wellFormed_next (Cursor.next_of_ok ht)
    refine ⟨hw,?_,?_⟩
    · rintro rfl k
      exact Keyword.ne_spelling_of_ofChars? hw.2 k
    · rintro rfl c hc
      exact isStringChar_iff.mp (hw c hc)
  · intro text h
    obtain ⟨us,b,hi,hs,-,rfl⟩ := compileText_ok_iff.mp h
    refine ⟨_,TokenStream.upToFault_eq_none.mpr ⟨us,hi,rfl⟩,?_⟩
    have hw := hs.wellFormed hi
    have htexts : texts ((us ++ [(streamOf src).endToken]).map Token.piece) = texts b.program := by
      rw [← hs.squeeze_eq (endToken_piece _)]
      exact (texts_squeezeAfter true _).symm
    change List.Forall₂ _ (texts ((us ++ [(streamOf src).endToken]).map Token.piece)) _
    rw [htexts,decode_encode,Block.filter_printsText hw,List.forall₂_map_right_iff,
      List.forall₂_same]
    intro s hm
    obtain ⟨p,hp,rfl⟩ := List.mem_map.mp hm
    obtain ⟨hp,hk⟩ := List.mem_filter.mp hp
    have hp := hw p hp
    obtain ⟨kind,lexeme⟩ := p
    obtain rfl : kind = .string := of_decide_eq_true hk
    have hplain : ∀ c ∈ lexeme, c ∉ C.special := fun c hc => isStringChar_iff.mp (hp c hc)
    exact fun e => ⟨C.closes_text hplain e,C.printsOnly_iff hplain e⟩

/-- A string behind one with a percent sign, and a program that prints a value between two strings,
one of them with a trigraph. -/
theorem printed_texts_of_greeting :
    let cursor := (Cursor.start "\"50% off\" // \"".toList).after 3
    let t : Token := ⟨.string," // ".toList,1⟩
    let src : Bytes := "PRINT \"a, b\"\nPRINT 7\nPRINT \"); c(??!\""
    let text : Bytes := "#include <stdio.h>\nint main(void)\x7b\nprintf(\"a, b\\n\");\n" ++
      "printf(\"%.2f\\n\", (float)(7));\nprintf(\"); c(??!\\n\");\nreturn 0;\n\x7d\n"
    cursor.next.1 = .ok t ∧ (∀ c ∈ t.lexeme, c ∉ C.special) ∧ (compileText src).2 = .ok text ∧
      ∃ tokens, (TokenStream.ofChars (decode (preprocess src))).upToFault = (tokens,none) ∧
        List.Forall₂ (fun s line => ∀ e, C.Closes e s line ∧
            (C.PrintsOnly e s line ↔ (e = .c17 → ¬['?','?','/'] <:+: s)))
          (texts (tokens.map Token.piece)) ((C.lines (decode text)).filter C.printsText) := by
  intro cursor t src text
  have ht : cursor.next.1 = .ok t := by decide +kernel
  have h : (compileText src).2 = .ok text := ok_of_toOption (by decide +kernel)
  obtain ⟨htokens,hlines⟩ := printed_texts_exact src
  exact ⟨ht,(htokens cursor t ht).2.2 rfl,h,hlines text h⟩

/-- Until C17 this string is printed by way of an escape, which makes it a conversion. -/
theorem printed_text_with_escape :
    let src : Bytes := "PRINT \"??/x25s\"\n"
    let text : Bytes :=
      "#include <stdio.h>\nint main(void)\x7b\nprintf(\"??/x25s\\n\");\nreturn 0;\n\x7d\n"
    let line := "printf(\"??/x25s\\n\");".toList
    (compileText src).2 = .ok text ∧ line ∈ C.lines (decode text) ∧
      C.literal? (C.phaseOne .c17 line) =
        some ⟨"printf(".toList,"\\x25s\\n".toList,");".toList⟩ ∧
      ¬C.PrintsOnly .c17 "??/x25s".toList line := by
  intro src text line
  refine ⟨ok_of_toOption (by decide +kernel),by decide +kernel,by decide +kernel,?_⟩
  intro h
  exact h.escapes (by decide)

end TeenyTiny
