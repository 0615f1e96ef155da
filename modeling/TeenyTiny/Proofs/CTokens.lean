import Mathlib.Data.List.Chain
import TeenyTiny.Proofs.Printing
import TeenyTiny.Proofs.Translation

/-! How C splits the text of an expression. The pieces of an expression are written with nothing
between them, and C takes the longest token at every place, so it reads the same pieces exactly
when no two equal signs stand side by side. -/
namespace TeenyTiny
open Text Piece Ast Lexer Generator

namespace C

/-- Letters of C names; every character outside of ASCII counts as one. -/
def isNameStart (c : Char) : Bool := c.isAlpha || c = '_' || 0x80 ≤ c.toNat

def isNameChar (c : Char) : Bool := isNameStart c || c.isDigit

/-- The punctuators of C and the two beginnings of comments, longer ones first. -/
def punctuators : List (List Char) :=
  ["%:%:".toList,"...".toList,"<<=".toList,">>=".toList,"->".toList,"++".toList,"--".toList,
    "<<".toList,">>".toList,"<=".toList,">=".toList,"==".toList,"!=".toList,"&&".toList,
    "||".toList,"*=".toList,"/=".toList,"%=".toList,"+=".toList,"-=".toList,"&=".toList,
    "^=".toList,"|=".toList,"##".toList,"<:".toList,":>".toList,"<%".toList,"%>".toList,
    "%:".toList,"//".toList,"/*".toList,"[".toList,"]".toList,"(".toList,")".toList,
    "\x7b".toList,"\x7d".toList,".".toList,"&".toList,"*".toList,"+".toList,"-".toList,
    "~".toList,"!".toList,"/".toList,"%".toList,"<".toList,">".toList,"^".toList,"|".toList,
    "?".toList,":".toList,";".toList,"=".toList,",".toList,"#".toList]

/-- A decimal number: digits, and if a point follows, the digits after it. -/
def decimal (cs : List Char) : List Char × List Char :=
  match cs.dropWhile Char.isDigit with
  | '.' :: rest =>
    (cs.takeWhile Char.isDigit ++ '.' :: rest.takeWhile Char.isDigit,rest.dropWhile Char.isDigit)
  | rest => (cs.takeWhile Char.isDigit,rest)

/-- The longest token at the start of the characters, and what is left. -/
def munch : List Char → Option (List Char × List Char)
  | [] => none
  | c :: cs =>
    if isNameStart c then some (c :: cs.takeWhile isNameChar,cs.dropWhile isNameChar)
    else if c.isDigit then some (decimal (c :: cs))
    else match punctuators.find? (·.isPrefixOf (c :: cs)) with
      | some p => some (p,(c :: cs).drop p.length)
      | none => some ([c],cs)

def splitWith : (fuel : Nat) → List Char → List (List Char)
  | 0,_ => []
  | fuel + 1,cs =>
    match munch cs with
    | some (token,rest) => token :: splitWith fuel rest
    | none => []

/-- The tokens of a text without blanks. -/
def split (cs : List Char) : List (List Char) := splitWith cs.length cs

example : split "a<=-1.50*b--c".toList = ["a".toList,"<=".toList,"-".toList,"1.50".toList,
    "*".toList,"b".toList,"--".toList,"c".toList] := by decide

end C

namespace C
variable {r : List Char}

theorem isNameStart_of_isLetter {c : Char} (h : isLetter c = true) : isNameStart c = true := by
  unfold isLetter at h
  unfold isNameStart
  split at h
  · simp [h]
  · simp only [Bool.or_eq_true,decide_eq_true_eq]
    right
    omega

theorem isNameChar_of_isWordChar {c : Char} (h : isWordChar c = true) : isNameChar c = true := by
  unfold isNameChar
  rcases Bool.or_eq_true _ _ |>.mp h with h | h
  · simp [isNameStart_of_isLetter h]
  · unfold isDecimalDigit at h
    split at h
    · simp [h]
    · simp only [isNameStart,Bool.or_eq_true,decide_eq_true_eq]
      left
      right
      omega

theorem not_isNameStart_of_isDigit {c : Char} (h : c.isDigit = true) : isNameStart c = false := by
  have hn := le_of_isDigit h
  have hu : c ≠ '_' := by
    rintro rfl
    cases h
  simp [isNameStart,not_isAlpha_of_isDigit h,hu]
  omega

theorem munch_word {w : List Char} (hw : IsWord w) (hr : ∀ c ∈ r.head?, isNameChar c = false) :
    munch (w ++ r) = some (w,r) := by
  obtain ⟨c,cs,rfl,hc,hcs⟩ := hw
  have hn : ∀ d ∈ cs, isNameChar d = true := fun d hd => isNameChar_of_isWordChar (hcs d hd)
  rw [List.cons_append,munch,if_pos (isNameStart_of_isLetter hc),takeWhile_append_stop hn hr,
    dropWhile_append_stop hn hr]

theorem decimal_append {n : List Char} (hn : IsNumber n)
    (hr : ∀ c ∈ r.head?, c.isDigit = false ∧ c ≠ '.') : decimal (n ++ r) = (n,r) := by
  have hd : ∀ c ∈ r.head?, c.isDigit = false := fun c hc => (hr c hc).1
  unfold decimal
  cases hn with
  | whole _ h =>
    rw [takeWhile_append_stop h hd,dropWhile_append_stop h hd]
    cases r with
    | nil => rfl
    | cons c r =>
      have hc := (hr c rfl).2
      split
      · simp_all
      · rfl
  | @pointed ds fs _ h _ h' =>
    have hp : ∀ c ∈ ('.' :: (fs ++ r)).head?, c.isDigit = false := by simp
    rw [List.append_assoc,List.cons_append,takeWhile_append_stop h hp,
      dropWhile_append_stop h hp]
    simp only [takeWhile_append_stop h' hd,dropWhile_append_stop h' hd]

theorem munch_number {n : List Char} (hn : IsNumber n)
    (hr : ∀ c ∈ r.head?, c.isDigit = false ∧ c ≠ '.') : munch (n ++ r) = some (n,r) := by
  have hd := decimal_append hn hr
  obtain ⟨c,cs,rfl,hc⟩ := hn.exists_head
  rw [List.cons_append] at hd ⊢
  rw [munch,if_neg (by simp [not_isNameStart_of_isDigit hc]),if_pos hc,hd]

theorem munch_symbol {c : Char} {cs p : List Char} (hs : isNameStart c = false)
    (hd : c.isDigit = false) (hp : punctuators.find? (·.isPrefixOf (c :: cs)) = some p) :
    munch (c :: cs) = some (p,(c :: cs).drop p.length) := by
  simp only [munch,hs,hd,Bool.false_eq_true,if_false,hp]

/-- Characters that make longer punctuators of some operators. -/
def isExtension (c : Char) : Bool := "=<>*/:%".toList.contains c

theorem isExtension_of_isNameChar {c : Char} (h : isNameChar c = true) : isExtension c = false := by
  cases he : isExtension c with
  | false => rfl
  | true =>
    have hc : c ∈ ['=','<','>','*','/',':','%'] := List.contains_iff_mem.mp he
    simp only [List.mem_cons,List.not_mem_nil,or_false] at hc
    rcases hc with rfl | rfl | rfl | rfl | rfl | rfl | rfl <;> cases h

/-- An operator is the longest punctuator there if the next character does not extend it. -/
theorem find_operator {x : Piece} (hx : x.WellFormed) (ho : x.kind.isOperator)
    (hr : ∀ c ∈ r.head?, isExtension c = false)
    (hp : x.kind = .plus → '+' ∉ r.head?) (hm : x.kind = .minus → '-' ∉ r.head?) :
    punctuators.find? (·.isPrefixOf (x.lexeme ++ r)) = some x.lexeme := by
  obtain ⟨kind,lexeme⟩ := x
  cases r with
  | nil =>
    cases kind with
    | plus | minus | times | slash =>
      obtain rfl := Option.some.inj hx
      decide
    | comparison op =>
      obtain rfl := Option.some.inj hx
      cases op <;> decide
    | _ => cases ho
  | cons c r =>
    have hc : ∀ d ∈ "=<>*/:%".toList, d ≠ c := by
      rintro d hd rfl
      have he := hr d rfl
      rw [isExtension,List.contains_iff_mem.mpr hd] at he
      cases he
    simp only [String.reduceToList,List.forall_mem_cons,List.not_mem_nil,false_imp_iff] at hc
    obtain ⟨h₁,h₂,h₃,h₄,h₅,h₆,h₇,-⟩ := hc
    cases kind with
    | plus =>
      obtain rfl := Option.some.inj hx
      have h₈ : '+' ≠ c := by
        rintro rfl
        exact hp rfl rfl
      simp [punctuators,h₁,h₈]
    | minus =>
      obtain rfl := Option.some.inj hx
      have h₈ : '-' ≠ c := by
        rintro rfl
        exact hm rfl rfl
      simp [punctuators,h₁,h₃,h₈]
    | times | slash =>
      obtain rfl := Option.some.inj hx
      simp [punctuators,h₁,h₄,h₅]
    | comparison op =>
      obtain rfl := Option.some.inj hx
      cases op <;> simp [punctuators,Comparison.spelling,h₁,h₂,h₃,h₆,h₇]
    | _ => cases ho

theorem munch_operator {x : Piece} (hx : x.WellFormed) (ho : x.kind.isOperator)
    (hr : ∀ c ∈ r.head?, isExtension c = false)
    (hp : x.kind = .plus → '+' ∉ r.head?) (hm : x.kind = .minus → '-' ∉ r.head?) :
    munch (x.lexeme ++ r) = some (x.lexeme,r) := by
  have hf := find_operator hx ho hr hp hm
  obtain ⟨kind,lexeme⟩ := x
  cases kind with
  | plus | minus | times | slash =>
    obtain rfl := Option.some.inj hx
    exact munch_symbol rfl rfl hf
  | comparison op =>
    obtain rfl := Option.some.inj hx
    cases op <;> exact munch_symbol rfl rfl hf
  | _ => cases ho

end C

/-- Numbers and names. -/
def Kind.isOperand (k : Kind) : Bool := k = .number || k = .ident

/-- Pieces that may stand side by side in an expression or a comparison. -/
def Adjacent (x y : Piece) : Prop :=
  (x.kind.isOperand = true ∧ y.kind.isOperator = true) ∨
    (x.kind.isOperator = true ∧ (y.kind.isOperand = true ∨ isSign y.kind = true))

/-- Two equal signs, which C takes for one token. -/
def Glued (x y : Piece) : Prop := isSign x.kind = true ∧ x.kind = y.kind

instance (x y : Piece) : Decidable (Glued x y) := inferInstanceAs (Decidable (_ ∧ _))

section Copied
variable {x y : Piece} {ps : List Piece}

theorem isOperand_or_isOperator {k : Kind} (h : k.isCopied = true) :
    k.isOperand = true ∨ k.isOperator = true := by
  cases k <;> first | exact .inl rfl | exact .inr rfl | cases h

theorem isCopied_of_isOperand {k : Kind} (h : k.isOperand = true) : k.isCopied = true := by
  cases k <;> first | rfl | cases h

theorem not_isOperator_of_isOperand {k : Kind} (h : k.isOperand = true) : k.isOperator ≠ true := by
  cases k <;> first | decide | cases h

theorem code_of_isOperator (ho : x.kind.isOperator = true) : x.code = x.lexeme := by
  refine if_neg fun hk => ?_
  rw [hk] at ho
  cases ho

theorem code_operand_head (hx : x.WellFormed) (ho : x.kind.isOperand = true) :
    ∃ c cs, x.code = c :: cs ∧ C.isNameChar c = true := by
  obtain ⟨kind,lexeme⟩ := x
  cases kind with
  | number =>
    have hn : IsNumber lexeme := hx
    obtain ⟨c,cs,hc,hd⟩ := hn.cNumber.exists_head
    exact ⟨c,cs,hc,by simp [C.isNameChar,hd]⟩
  | ident =>
    obtain ⟨c,cs,rfl,hc,-⟩ := hx.1
    exact ⟨c,cs,rfl,by simp [C.isNameChar,C.isNameStart_of_isLetter hc]⟩
  | _ => cases ho

theorem code_operator_head (hx : x.WellFormed) (ho : x.kind.isOperator = true) :
    ∃ c cs, x.code = c :: cs ∧ C.isNameChar c = false ∧ c ≠ '.' := by
  rw [code_of_isOperator ho]
  obtain ⟨kind,lexeme⟩ := x
  cases kind with
  | plus | minus | times | slash =>
    obtain rfl := Option.some.inj hx
    exact ⟨_,_,rfl,by decide⟩
  | comparison op =>
    obtain rfl := Option.some.inj hx
    cases op <;> exact ⟨_,_,rfl,by decide⟩
  | _ => cases ho

theorem code_ne_nil (hx : x.WellFormed) (hc : x.kind.isCopied = true) : x.code ≠ [] := by
  rcases isOperand_or_isOperator hc with ho | ho
  · obtain ⟨c,cs,h,-⟩ := code_operand_head hx ho
    simp [h]
  · obtain ⟨c,cs,h,-⟩ := code_operator_head hx ho
    simp [h]

/-- Expressions are written with name characters, points and the signs of operators. -/
theorem all_code {q : Char → Bool} (hn : ∀ c, C.isNameChar c = true → q c = true)
    (hs : ∀ c ∈ ".+-*/=!<>".toList, q c = true) (hx : x.WellFormed)
    (hc : x.kind.isCopied = true) : ∀ c ∈ x.code, q c = true := by
  have hop : ∀ cs : List Char, cs.all (".+-*/=!<>".toList.contains ·) = true →
      ∀ c ∈ cs, q c = true :=
    fun cs h c hm => hs c (List.contains_iff_mem.mp (List.all_eq_true.mp h c hm))
  obtain ⟨kind,lexeme⟩ := x
  cases kind with
  | number =>
    have h : IsNumber lexeme := hx
    intro c hm
    rcases h.cNumber.isDigit_or c hm with h | rfl
    · exact hn c (by rw [C.isNameChar,h,Bool.or_true])
    · exact hop ['.'] rfl '.' (by simp)
  | ident => exact fun c hm => hn c (C.isNameChar_of_isWordChar (hx.1.isWordChar c hm))
  | plus | minus | times | slash =>
    obtain rfl := Option.some.inj hx
    exact hop _ rfl
  | comparison op =>
    obtain rfl := Option.some.inj hx
    cases op <;> exact hop _ rfl
  | _ => cases hc

theorem code_sign (hx : x.WellFormed) (hs : isSign x.kind = true) :
    (x.kind = .plus ∧ x.code = ['+']) ∨ (x.kind = .minus ∧ x.code = ['-']) := by
  obtain ⟨sign,rfl⟩ := operators_sign.exists_eq x hx hs
  cases sign
  · exact .inl ⟨rfl,rfl⟩
  · exact .inr ⟨rfl,rfl⟩

theorem Adjacent.behind_operand (h : Adjacent x y) (hx : x.kind.isOperand = true) :
    y.kind.isOperator = true := by
  rcases h with ⟨-,hy⟩ | ⟨ho,-⟩
  · exact hy
  · exact absurd ho (not_isOperator_of_isOperand hx)

theorem Adjacent.behind_operator (h : Adjacent x y) (hx : x.kind.isOperator = true) :
    y.kind.isOperand = true ∨ isSign y.kind = true := by
  rcases h with ⟨ho,-⟩ | ⟨-,hy⟩
  · exact absurd hx (not_isOperator_of_isOperand ho)
  · exact hy

/-- What stands behind an operand ends it. -/
theorem copied_behind_operand (hw : ∀ z ∈ ps, z.WellFormed) (hx : x.kind.isOperand = true)
    (hj : ∀ z ∈ ps.head?, Adjacent x z) :
    ∀ c ∈ (copied ps).head?, C.isNameChar c = false ∧ c ≠ '.' := by
  cases ps with
  | nil => simp
  | cons z ps =>
    obtain ⟨c,cs,hc,hn⟩ := code_operator_head (hw z (by simp)) ((hj z rfl).behind_operand hx)
    simpa [hc] using hn

/-- What stands behind an operator makes another one of it only if it is the same sign. -/
theorem copied_behind_operator (hw : ∀ z ∈ ps, z.WellFormed) (hx : x.kind.isOperator = true)
    (hj : ∀ z ∈ ps.head?, Adjacent x z) : ∀ c ∈ (copied ps).head?, C.isExtension c = false := by
  cases ps with
  | nil => simp
  | cons z ps =>
    rcases (hj z rfl).behind_operator hx with hz | hz
    · obtain ⟨c,cs,hc,hn⟩ := code_operand_head (hw z (by simp)) hz
      simpa [hc] using C.isExtension_of_isNameChar hn
    · rcases code_sign (hw z (by simp)) hz with ⟨-,hc⟩ | ⟨-,hc⟩
      · simp [hc,C.isExtension]
      · simp [hc,C.isExtension]

theorem sign_not_mem_behind (hw : ∀ z ∈ ps, z.WellFormed) (hx : x.kind.isOperator = true)
    (hj : ∀ z ∈ ps.head?, Adjacent x z) (hg : ∀ z ∈ ps.head?, ¬ Glued x z) :
    (x.kind = .plus → '+' ∉ (copied ps).head?) ∧ (x.kind = .minus → '-' ∉ (copied ps).head?) := by
  cases ps with
  | nil => simp
  | cons z ps =>
    have hg := hg z rfl
    rcases (hj z rfl).behind_operator hx with hz | hz
    · obtain ⟨c,cs,hc,hn⟩ := code_operand_head (hw z (by simp)) hz
      simp only [copied_cons,hc,List.cons_append,List.head?_cons,Option.mem_some_iff]
      refine ⟨fun _ h => ?_,fun _ h => ?_⟩
      · rw [h] at hn
        cases hn
      · rw [h] at hn
        cases hn
    · rcases code_sign (hw z (by simp)) hz with ⟨hk,hc⟩ | ⟨hk,hc⟩
      · simp only [copied_cons,hc,List.cons_append,List.head?_cons,Option.mem_some_iff]
        refine ⟨fun h => ?_,fun _ => by decide⟩
        exact absurd ⟨by rw [h]; rfl,h.trans hk.symm⟩ hg
      · simp only [copied_cons,hc,List.cons_append,List.head?_cons,Option.mem_some_iff]
        refine ⟨fun _ => by decide,fun h => ?_⟩
        exact absurd ⟨by rw [h]; rfl,h.trans hk.symm⟩ hg

theorem munch_piece (hx : x.WellFormed) (hc : x.kind.isCopied = true)
    (hw : ∀ z ∈ ps, z.WellFormed) (hj : ∀ z ∈ ps.head?, Adjacent x z)
    (hg : ∀ z ∈ ps.head?, ¬ Glued x z) :
    C.munch (x.code ++ copied ps) = some (x.code,copied ps) := by
  rcases isOperand_or_isOperator hc with ho | ho
  · have hr := copied_behind_operand hw ho hj
    obtain ⟨kind,lexeme⟩ := x
    cases kind with
    | number =>
      have hn : IsNumber lexeme := hx
      refine C.munch_number hn.cNumber fun c hc => ?_
      have h := hr c hc
      simp only [C.isNameChar,Bool.or_eq_false_iff] at h
      exact ⟨h.1.2,h.2⟩
    | ident => exact C.munch_word hx.1 fun c hc => (hr c hc).1
    | _ => cases ho
  · obtain ⟨hp,hm⟩ := sign_not_mem_behind hw ho hj hg
    rw [code_of_isOperator ho]
    exact C.munch_operator hx ho (copied_behind_operator hw ho hj) hp hm

/-- The two signs are taken together. -/
theorem munch_glued (hx : x.WellFormed) (hy : y.WellFormed) (hg : Glued x y) (r : List Char) :
    ∃ token rest, C.munch (x.code ++ (y.code ++ r)) = some (token,rest) ∧ token ≠ x.code := by
  obtain ⟨hs,hk⟩ := hg
  rcases code_sign hx hs with ⟨hxk,hxc⟩ | ⟨hxk,hxc⟩
  · rcases code_sign hy (hk ▸ hs) with ⟨-,hyc⟩ | ⟨hyk,-⟩
    · rw [hxc,hyc]
      exact ⟨_,_,rfl,by decide⟩
    · rw [hxk,hyk] at hk
      cases hk
  · rcases code_sign hy (hk ▸ hs) with ⟨hyk,-⟩ | ⟨-,hyc⟩
    · rw [hxk,hyk] at hk
      cases hk
    · rw [hxc,hyc]
      exact ⟨_,_,rfl,by decide⟩

/-- C splits pieces that are written side by side into the same pieces exactly when no two of
them are glued together. -/
theorem splitWith_copied (hw : ∀ z ∈ ps, z.WellFormed) (hc : ∀ z ∈ ps, z.kind.isCopied = true)
    (hj : ps.IsChain Adjacent) {n : Nat} (hn : (copied ps).length ≤ n) :
    C.splitWith n (copied ps) = ps.map Piece.code ↔ ps.IsChain fun x y => ¬ Glued x y := by
  induction ps generalizing n with
  | nil => cases n <;> simp [C.splitWith,C.munch]
  | cons x ps ih =>
    obtain ⟨hx,hw⟩ := List.forall_mem_cons.mp hw
    obtain ⟨hxc,hc⟩ := List.forall_mem_cons.mp hc
    obtain ⟨hxj,hj⟩ := List.isChain_cons.mp hj
    have hne : 0 < x.code.length := List.length_pos_iff.mpr (code_ne_nil hx hxc)
    rw [copied_cons,List.length_append] at hn
    obtain ⟨n,rfl⟩ := Nat.exists_eq_add_one_of_ne_zero (n := n) (by omega)
    -- C takes the first piece by itself, or together with the equal sign behind it
    by_cases hg : ∀ y ∈ ps.head?, ¬ Glued x y
    · have hm := munch_piece hx hxc hw hxj hg
      simp only [copied_cons,C.splitWith,hm,List.map_cons,List.cons.injEq,true_and]
      rw [ih hw hc hj (by omega),List.isChain_cons]
      exact ⟨fun h => ⟨hg,h⟩,fun h => h.2⟩
    · have hnot : ¬ List.IsChain (fun x y => ¬ Glued x y) (x :: ps) :=
        fun h => hg (List.isChain_cons.mp h).1
      simp only [hnot,iff_false]
      cases ps with
      | nil => simp at hg
      | cons y ps =>
        have hg : Glued x y := by simpa using hg
        obtain ⟨token,rest,hm,ht⟩ := munch_glued hx (hw y (by simp)) hg (copied ps)
        simp only [copied_cons,C.splitWith,hm,List.map_cons]
        intro h
        exact ht (List.cons_eq_cons.mp h).1

end Copied

/-- Pieces in the order of an expression: operands with operators between them, each operand with
at most one more sign. -/
structure Joined (ps : List Piece) : Prop where
  ne_nil : ps ≠ []
  chain : ps.IsChain Adjacent
  first : ∀ x ∈ ps.head?, x.kind.isOperand = true ∨ isSign x.kind = true
  last : ∀ x ∈ ps.getLast?, x.kind.isOperand = true

theorem Joined.append {ps qs : List Piece} {o : Piece} (hp : Joined ps)
    (ho : o.kind.isOperator = true) (hq : Joined qs) : Joined (ps ++ o :: qs) where
  ne_nil := by simp
  chain := by
    refine hp.chain.append (hq.chain.cons fun y hy => .inr ⟨ho,hq.first y hy⟩) fun x hx y hy => ?_
    obtain rfl : o = y := by simpa using hy
    exact .inl ⟨hp.last x hx,ho⟩
  first := by
    rw [List.head?_append_of_ne_nil _ hp.ne_nil]
    exact hp.first
  last := by
    rw [List.getLast?_append_of_ne_nil _ (by simp),List.getLast?_cons_of_ne_nil hq.ne_nil]
    exact hq.last

namespace Ast

theorem Primary.isOperand (p : Primary) : p.piece.kind.isOperand = true := by
  cases p <;> rfl

theorem Unary.joined (u : Unary) : Joined u.pieces := by
  obtain ⟨_ | sign,primary⟩ := u
  · exact ⟨by simp [pieces],.singleton _,by simp [pieces,primary.isOperand],
      by simp [pieces,primary.isOperand]⟩
  · have hs := operators_sign.isOperator sign
    refine ⟨by simp [pieces],?_,by simp [pieces,operators_sign.kind],
      by simp [pieces,primary.isOperand]⟩
    exact .cons_cons (.inr ⟨hs,.inl primary.isOperand⟩) (.singleton _)

section Chains
variable {Op Member : Type} {op : Op → Piece} {member : Member → List Piece}

theorem Chain.joined_tail (hop : ∀ o, (op o).kind.isOperator = true)
    (hm : ∀ m, Joined (member m)) {ps : List Piece} (hp : Joined ps)
    (rest : List (Op × Member)) : Joined (ps ++ tail op member rest) := by
  induction rest generalizing ps with
  | nil => simpa using hp
  | cons x rest ih =>
    have h := ih (hp.append (hop x.1) (hm x.2))
    rwa [List.append_assoc,List.cons_append,← tail_cons] at h

theorem Chain.joined (hop : ∀ o, (op o).kind.isOperator = true) (hm : ∀ m, Joined (member m))
    (c : Chain Op Member) : Joined (c.pieces op member) :=
  joined_tail hop hm (hm c.first) c.rest

end Chains

theorem Expression.joined (e : Expression) : Joined e.pieces :=
  Chain.joined operators_sign.isOperator
    (Chain.joined operators_scaling.isOperator Unary.joined) e

theorem Condition.joined (c : Condition) : Joined c.pieces :=
  Chain.joined operators_comparison.isOperator Expression.joined c.chain

/-- A comparison and the expressions that it compares. -/
def Condition.formulas (c : Condition) : List (List Piece) :=
  c.pieces :: c.chain.first.pieces :: c.chain.rest.map fun x => x.2.pieces

mutual

/-- The expressions and comparisons of a statement. -/
def Statement.formulas : Statement → List (List Piece)
  | .printValue value | .assign _ value => [value.pieces]
  | .block _ condition body => condition.formulas ++ Block.formulas body
  | _ => []

def Block.formulas : List Statement → List (List Piece)
  | [] => []
  | s :: rest => s.formulas ++ Block.formulas rest

end

/-- An expression or comparison that stands among these pieces, and is written somewhere in
the text. -/
structure Occurs (ps pieces : List Piece) (text : List Char) : Prop where
  joined : Joined ps
  isCopied : ∀ x ∈ ps, x.kind.isCopied = true
  among : ps <:+: pieces
  written : copied ps <:+: text

theorem Occurs.trans {ps pieces pieces' : List Piece} {text text' : List Char}
    (h : Occurs ps pieces text) (hp : pieces <:+: pieces') (ht : text <:+: text') :
    Occurs ps pieces' text' :=
  ⟨h.joined,h.isCopied,h.among.trans hp,h.written.trans ht⟩

theorem Expression.occurs (e : Expression) : Occurs e.pieces e.pieces (copied e.pieces) :=
  ⟨e.joined,e.isCopied,List.infix_rfl,List.infix_rfl⟩

theorem copied_within {ps qs : List Piece} (h : ps <:+: qs) : copied ps <:+: copied qs := by
  obtain ⟨rs,rs',rfl⟩ := h
  exact ⟨copied rs,copied rs',by simp⟩

theorem Condition.occurs (c : Condition) :
    ∀ ps ∈ c.formulas, Occurs ps c.pieces (copied c.pieces) := by
  intro ps hp
  rcases List.mem_cons.mp hp with rfl | hp
  · exact ⟨c.joined,c.isCopied,List.infix_rfl,List.infix_rfl⟩
  rcases List.mem_cons.mp hp with rfl | hp
  · have h : c.chain.first.pieces <:+: c.pieces := (List.prefix_append _ _).isInfix
    exact c.chain.first.occurs.trans h (copied_within h)
  · obtain ⟨x,hx,rfl⟩ := List.mem_map.mp hp
    obtain ⟨before,behind,hb⟩ := List.append_of_mem hx
    have h : x.2.pieces <:+: c.pieces := by
      refine ⟨c.chain.first.pieces ++ Chain.tail Piece.comparison Expression.pieces before ++
        [Piece.comparison x.1],Chain.tail Piece.comparison Expression.pieces behind,?_⟩
      simp [Condition.pieces,Chain.pieces,Chain.tail,hb]
    exact x.2.occurs.trans h (copied_within h)

mutual

theorem Statement.occurs (s : Statement) :
    ∀ ps ∈ s.formulas, Occurs ps s.pieces s.code := by
  intro ps hp
  match s with
  | .printValue value =>
    obtain rfl := List.mem_singleton.mp hp
    exact value.occurs.trans ⟨[keyword .print],[newline],rfl⟩ ⟨Code.valueStart,Code.valueEnd,rfl⟩
  | .assign name value =>
    obtain rfl := List.mem_singleton.mp hp
    exact value.occurs.trans ⟨[keyword .let_,ident name,Piece.assign],[newline],rfl⟩
      ⟨name ++ Code.equals,Code.semicolon,rfl⟩
  | .block kind condition body =>
    rcases List.mem_append.mp hp with hp | hp
    · refine (condition.occurs ps hp).trans ⟨[keyword kind.start],_,rfl⟩ ⟨kind.code,
        Code.bodyStart ++ Block.code body ++ Code.bodyEnd,?_⟩
      simp only [Statement.code,Code.block,List.append_assoc]
    · refine (Block.occurs body ps hp).trans ⟨keyword kind.start :: (condition.pieces ++
        [keyword kind.opener,newline]),[keyword kind.closer,newline],?_⟩
        ⟨kind.code ++ copied condition.pieces ++ Code.bodyStart,Code.bodyEnd,rfl⟩
      simp [Statement.pieces]
  | .printText _ | .label _ | .goto _ | .input _ => cases hp

theorem Block.occurs (b : List Statement) :
    ∀ ps ∈ Block.formulas b, Occurs ps (Block.pieces b) (Block.code b) := by
  intro ps hp
  match b with
  | [] => cases hp
  | s :: rest =>
    rcases List.mem_append.mp hp with hp | hp
    · exact (s.occurs ps hp).trans (List.prefix_append _ _).isInfix (List.prefix_append _ _).isInfix
    · exact (Block.occurs rest ps hp).trans (List.suffix_append _ _).isInfix
        (List.suffix_append _ _).isInfix

end

end Ast

/-- In the text of an accepted source, C reads the pieces of an expression or comparison exactly
when it has no two equal signs side by side. -/
theorem split_formula_iff {src text : Bytes} (h : (compileText src).2 = .ok text) :
    ∃ tokens, (TokenStream.ofChars (decode (preprocess src))).upToFault = (tokens,none) ∧
      ∃ P : Block, P.program = squeeze (tokens.map Token.piece) ∧ text = encode P.translation ∧
        ∀ ps ∈ Block.formulas P, copied ps <:+: P.translation ∧
          (C.split (copied ps) = ps.map Piece.code ↔ ps.IsChain fun x y => ¬ Glued x y) := by
  obtain ⟨us,b,hi,hs,-,rfl⟩ := compileText_ok_iff.mp h
  have hp := hs.squeeze_eq (endToken_piece (streamOf src))
  refine ⟨_,TokenStream.upToFault_eq_none.mpr ⟨us,hi,rfl⟩,b,hp.symm,rfl,fun ps hps => ?_⟩
  have ho := Block.occurs b ps hps
  have hw : ∀ x ∈ ps, x.WellFormed := fun x hx =>
    hs.wellFormed hi x (List.mem_append_left _ (ho.among.subset hx))
  refine ⟨ho.written.trans ?_,splitWith_copied hw ho.isCopied ho.joined.chain le_rfl⟩
  exact ⟨prologue ++ (Block.targets b).eraseDups.flatMap declaration,epilogue,rfl⟩

/-- A negative number behind a plus is read as it is meant. -/
theorem split_formula_of_sum :
    let src : Bytes := "LET a = 2\nIF a + -1 >= 00.5 THEN\nPRINT a\nENDIF"
    let text : Bytes := "#include <stdio.h>\nint main(void)\x7b\nfloat a;\na = 2;\n" ++
      "if(a+-1>=0.5)\x7b\nprintf(\"%.2f\\n\", (float)(a));\n\x7d\nreturn 0;\n\x7d\n"
    (compileText src).2 = .ok text ∧
      ∃ tokens, (TokenStream.ofChars (decode (preprocess src))).upToFault = (tokens,none) ∧
        ∃ P : Block, P.program = squeeze (tokens.map Token.piece) ∧ text = encode P.translation ∧
          ∀ ps ∈ Block.formulas P, copied ps <:+: P.translation ∧
            (C.split (copied ps) = ps.map Piece.code ↔ ps.IsChain fun x y => ¬ Glued x y) := by
  intro src text
  have h : (compileText src).2 = .ok text := ok_of_toOption (by decide +kernel)
  exact ⟨h,split_formula_iff h⟩

/-- A difference from a negative number: C reads a decrement in its place. -/
theorem split_formula_of_negated_difference :
    let minus := Sign.minus.piece
    let ps : List Piece := [number ['1'],minus,minus,number ['2']]
    let P : Block := [.printValue
      ⟨⟨⟨none,.number ['1']⟩,[]⟩,[(.minus,⟨⟨some .minus,.number ['2']⟩,[]⟩)]⟩]
    (compileText "PRINT 1 - -2\n").2 = .ok (encode P.translation) ∧ Block.formulas P = [ps] ∧
      C.split (copied ps) = [['1'],['-','-'],['2']] ∧
      ps.map Piece.code = [['1'],['-'],['-'],['2']] := by
  intro minus ps P
  refine ⟨ok_of_toOption (by decide +kernel),rfl,by decide,by decide⟩

end TeenyTiny
