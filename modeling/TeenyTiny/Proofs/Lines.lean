import TeenyTiny.Proofs.CTokens
import TeenyTiny.Proofs.Goals
import TeenyTiny.Proofs.SourceLines

/-! The lines of a body and the names on them. What a line does with names is told by its
characters alone: labels end in a colon, jumps begin with their keyword, and on all other lines
every name behind the fixed beginning is a variable. -/
namespace TeenyTiny
open Text Piece Ast Lexer Generator

namespace C

/-- The names in a text: the longest runs of name characters, without those that begin with a
digit. -/
def names (cs : List Char) : List (List Char) :=
  (cs.splitOnP fun c => !isNameChar c).filter fun w => w.head?.any isNameStart

@[simp] theorem names_nil : names [] = [] := by simp [names]

/-- Other characters part names. -/
theorem names_append_cons {c : Char} (hc : isNameChar c = false) (cs r : List Char) :
    names (cs ++ c :: r) = names cs ++ names r := by
  unfold names
  rw [List.splitOnP_append_cons cs r (by simp [hc]),List.filter_append]

theorem names_cons {c : Char} (hc : isNameChar c = false) (r : List Char) :
    names (c :: r) = names r := by
  simpa using names_append_cons hc [] r

theorem names_append {cs r : List Char} (hr : ∀ c ∈ r.head?, isNameChar c = false) :
    names (cs ++ r) = names cs ++ names r := by
  cases r with
  | nil => simp
  | cons c r => rw [names_append_cons (hr c rfl),names_cons (hr c rfl)]

theorem names_skip {cs : List Char} (h : ∀ c ∈ cs, isNameChar c = false) (r : List Char) :
    names (cs ++ r) = names r := by
  induction cs with
  | nil => rfl
  | cons c cs ih =>
    obtain ⟨hc,hcs⟩ := List.forall_mem_cons.mp h
    rw [List.cons_append,names_cons hc,ih hcs]

theorem names_run {w : List Char} (hw : ∀ c ∈ w, isNameChar c = true) :
    names w = [w].filter fun w => w.head?.any isNameStart := by
  rw [names,List.splitOnP_eq_singleton fun c hc => by simp [hw c hc]]

theorem names_digits {ds : List Char} (h : ∀ d ∈ ds, d.isDigit = true) : names ds = [] := by
  rw [names_run fun d hd => by rw [isNameChar,h d hd,Bool.or_true]]
  cases ds with
  | nil => rfl
  | cons d ds => simp [not_isNameStart_of_isDigit (h d (by simp))]

theorem names_number {n : List Char} (hn : IsNumber n) : names n = [] := by
  cases hn with
  | whole _ h => exact names_digits h
  | pointed _ h _ h' => rw [names_append_cons rfl,names_digits h,names_digits h',List.append_nil]

end C

theorem IsWord.isNameChar {w : List Char} (hw : IsWord w) : ∀ c ∈ w, C.isNameChar c = true :=
  fun c hc => C.isNameChar_of_isWordChar (hw.isWordChar c hc)

theorem IsWord.names_eq {w : List Char} (hw : IsWord w) : C.names w = [w] := by
  rw [C.names_run hw.isNameChar]
  obtain ⟨c,cs,rfl,hc,-⟩ := hw
  simp [C.isNameStart_of_isLetter hc]

/-- The names among the pieces of an expression. -/
def idents (ps : List Piece) : List (List Char) :=
  (ps.filter fun x => x.kind = .ident).map Piece.lexeme

@[simp] theorem idents_nil : idents [] = [] := rfl

@[simp] theorem idents_append (ps qs : List Piece) :
    idents (ps ++ qs) = idents ps ++ idents qs := by
  simp [idents]

/-- No operand stands right behind another one. -/
def Apart (x y : Piece) : Prop := x.kind.isOperand = true → y.kind.isOperator = true

/-- Pieces of an expression that can be told apart in the text. -/
structure Legible (ps : List Piece) : Prop where
  wellFormed : ∀ x ∈ ps, x.WellFormed
  isCopied : ∀ x ∈ ps, x.kind.isCopied = true
  apart : ps.IsChain Apart

section Pieces
variable {x : Piece} {ps : List Piece}

theorem isNameChar_of_isOperator (hx : x.WellFormed) (ho : x.kind.isOperator = true) :
    ∀ c ∈ x.code, C.isNameChar c = false := by
  have hall : ∀ cs : List Char, cs.all (fun c => !C.isNameChar c) = true →
      ∀ c ∈ cs, C.isNameChar c = false :=
    fun cs h c hc => by simpa using List.all_eq_true.mp h c hc
  rw [code_of_isOperator ho]
  obtain ⟨kind,lexeme⟩ := x
  cases kind with
  | plus | minus | times | slash =>
    obtain rfl := Option.some.inj hx
    exact hall _ rfl
  | comparison op =>
    obtain rfl := Option.some.inj hx
    cases op <;> exact hall _ rfl
  | _ => cases ho

theorem names_operand (hx : x.WellFormed) (ho : x.kind.isOperand = true) :
    C.names x.code = idents [x] := by
  obtain ⟨kind,lexeme⟩ := x
  cases kind with
  | number =>
    have hn : IsNumber lexeme := hx
    exact C.names_number hn.cNumber
  | ident => exact hx.1.names_eq
  | _ => cases ho

theorem idents_operator (ho : x.kind.isOperator = true) : idents [x] = [] := by
  have hk : x.kind ≠ .ident := by
    intro hk
    rw [hk] at ho
    cases ho
  simp [idents,hk]

theorem Legible.of_cons (h : Legible (x :: ps)) : Legible ps where
  wellFormed := (List.forall_mem_cons.mp h.wellFormed).2
  isCopied := (List.forall_mem_cons.mp h.isCopied).2
  apart := (List.isChain_cons.mp h.apart).2

theorem Legible.concat (h : Legible ps) (hx : x.WellFormed) (hc : x.kind.isCopied = true)
    (ha : ∀ y ∈ ps.getLast?, Apart y x) : Legible (ps ++ [x]) where
  wellFormed := List.forall_mem_append.mpr ⟨h.wellFormed,by simpa using hx⟩
  isCopied := List.forall_mem_append.mpr ⟨h.isCopied,by simpa using hc⟩
  apart := h.apart.append (.singleton x) fun y hy z hz => by
    obtain rfl : x = z := by simpa using hz
    exact ha y hy

/-- Operators part the operands, so the names in an expression are those of its pieces. -/
theorem Legible.names_eq (h : Legible ps) {r : List Char}
    (hr : ∀ c ∈ r.head?, C.isNameChar c = false) :
    C.names (copied ps ++ r) = idents ps ++ C.names r := by
  induction ps with
  | nil => rfl
  | cons x ps ih =>
    have hx := h.wellFormed x (by simp)
    rw [copied_cons,List.append_assoc,← List.singleton_append,idents_append,List.append_assoc,
      ← ih h.of_cons]
    rcases isOperand_or_isOperator (h.isCopied x (by simp)) with ho | ho
    · rw [C.names_append,names_operand hx ho]
      intro c hm
      cases ps with
      | nil => exact hr c hm
      | cons z ps =>
        have hz := (List.isChain_cons.mp h.apart).1 z rfl ho
        obtain ⟨d,ds,hd,hn,-⟩ := code_operator_head (h.wellFormed z (by simp)) hz
        obtain rfl : d = c := by simpa [hd] using hm
        exact hn
    · rw [C.names_skip (isNameChar_of_isOperator hx ho),idents_operator ho,List.nil_append]

/-- There are no blanks and no line feeds in an expression. -/
theorem Legible.not_mem (h : Legible ps) {c : Char} (hc : C.isNameChar c = false)
    (hs : ".+-*/=!<>".toList.contains c = false) : c ∉ copied ps := by
  intro hm
  obtain ⟨x,hx,hm⟩ := List.mem_flatMap.mp hm
  have hall : ∀ d ∈ x.code, (d != c) = true := by
    refine all_code (fun d hd => ?_) (fun d hd => ?_) (h.wellFormed x hx) (h.isCopied x hx)
    · rw [bne_iff_ne]
      rintro rfl
      rw [hd] at hc
      cases hc
    · rw [bne_iff_ne]
      rintro rfl
      rw [List.contains_iff_mem.mpr hd] at hs
      cases hs
  simpa using hall c hm

end Pieces

namespace C

/-- The label that a line declares. -/
def label? (line : List Char) : Option (List Char) :=
  if line.dropWhile isNameChar = [':'] then some (line.takeWhile isNameChar) else none

/-- The name behind the first word of a line. -/
def second (line : List Char) : List Char :=
  ((line.dropWhile isNameChar).drop 1).takeWhile isNameChar

/-- The label that a line jumps to. -/
def jump? (line : List Char) : Option (List Char) :=
  if line.takeWhile isNameChar = "goto".toList ∧ second line ≠ [] then some (second line) else none

/-- Beginnings of lines with variables behind them. -/
def openings : List (List Char) :=
  [Code.valueStart,Code.readStart,BlockKind.code .conditional,BlockKind.code .loop]

def skipStart : List Char := "scanf(\"".toList

def lastLine : List Char := "return 0;".toList

/-- Lines without variables. -/
def isPlain (line : List Char) : Bool :=
  (label? line).isSome || (jump? line).isSome || Code.textStart.isPrefixOf line ||
    skipStart.isPrefixOf line || line == lastLine

/-- The variables that a line writes or reads. -/
def variableNames (line : List Char) : List (List Char) :=
  match openings.find? (·.isPrefixOf line) with
  | some opening => names (line.drop opening.length)
  | none => if isPlain line then [] else names line

end C

/-- The lines of a body. -/
inductive BodyLine where
  | text (content : List Char)
  | formula (f : Formula) (ps : List Piece)
  | label (name : List Char)
  | jump (name : List Char)
  | read (name : List Char)
  | zero (name : List Char)
  | skip | close | final

/-- What a formula closes with on its line. -/
def Generator.Formula.mark : Formula → List Char
  | .value => "));".toList
  | .condition _ => ")\x7b".toList
  | .assigned _ => [';']

def Generator.Formula.WellFormed : Formula → Prop
  | .assigned name => IsWord name
  | _ => True

namespace BodyLine

/-- The line without its line feed. -/
def content : BodyLine → List Char
  | text content => Code.textStart ++ content ++ "\\n\");".toList
  | formula f ps => f.opening ++ copied ps ++ f.mark
  | label name => name ++ [':']
  | jump name => Code.jump ++ name ++ [';']
  | read name => Code.readStart ++ name ++ ")) \x7b".toList
  | zero name => name ++ " = 0;".toList
  | skip => "scanf(\"%*s\");".toList
  | close => ['\x7d']
  | final => C.lastLine

def code (l : BodyLine) : List Char := l.content ++ ['\n']

def WellFormed : BodyLine → Prop
  | text content => ∀ c ∈ content, isStringChar c = true
  | formula f ps => f.WellFormed ∧ Legible ps
  | label name | jump name | read name | zero name => IsWord name
  | skip | close | final => True

def label? : BodyLine → Option (List Char)
  | label name => some name
  | _ => none

def jump? : BodyLine → Option (List Char)
  | jump name => some name
  | _ => none

def variableNames : BodyLine → List (List Char)
  | formula (.assigned name) ps => name :: idents ps
  | formula _ ps => idents ps
  | read name | zero name => [name]
  | _ => []

theorem variableNames_formula_append (f : Formula) (ps qs : List Piece) :
    (formula f (ps ++ qs)).variableNames = (formula f ps).variableNames ++ idents qs := by
  cases f <;> simp [variableNames]

theorem code_formula (f : Formula) (ps : List Piece) :
    (formula f ps).code = f.opening ++ copied ps ++ f.closing := by
  have hm : f.closing = f.mark ++ ['\n'] := by cases f <;> rfl
  rw [hm,← List.append_assoc]
  rfl

theorem content_assigned (n : List Char) (ps : List Piece) :
    (formula (.assigned n) ps).content = n ++ ' ' :: '=' :: ' ' :: (copied ps ++ [';']) := by
  have hc : (formula (.assigned n) ps).content =
      (Formula.opening (.assigned n)) ++ (copied ps ++ [';']) := List.append_assoc _ _ _
  rw [hc]
  exact List.append_assoc _ _ _

end BodyLine

namespace C

theorem exists_of_mem_openings {o : List Char} (h : o ∈ openings) :
    ∃ v s, o = v ++ '(' :: s ∧ (∀ e ∈ v, isNameChar e = true) ∧ v ≠ "goto".toList := by
  simp only [openings,List.mem_cons,List.not_mem_nil,or_false] at h
  rcases h with rfl | rfl | rfl | rfl
  · exact ⟨"printf".toList,_,rfl,List.all_eq_true.mp rfl,by decide⟩
  · exact ⟨"if".toList,_,rfl,List.all_eq_true.mp rfl,by decide⟩
  · exact ⟨"if".toList,_,rfl,List.all_eq_true.mp rfl,by decide⟩
  · exact ⟨"while".toList,_,rfl,List.all_eq_true.mp rfl,by decide⟩

section FirstWord
variable {w r : List Char} {c : Char} (hw : ∀ d ∈ w, isNameChar d = true)
  (hc : isNameChar c = false)
include hw hc

theorem takeWhile_word : (w ++ c :: r).takeWhile isNameChar = w :=
  takeWhile_append_stop hw (stop_of_head rfl hc)

theorem dropWhile_word : (w ++ c :: r).dropWhile isNameChar = c :: r :=
  dropWhile_append_stop hw (stop_of_head rfl hc)

theorem label?_word (hd : c ≠ ':') : label? (w ++ c :: r) = none := by
  rw [label?,dropWhile_word hw hc,if_neg fun h => hd (List.cons_eq_cons.mp h).1]

theorem jump?_word (hr : w ≠ "goto".toList ∨ r.takeWhile isNameChar = []) :
    jump? (w ++ c :: r) = none := by
  unfold jump? second
  rw [takeWhile_word hw hc,dropWhile_word hw hc]
  refine if_neg ?_
  rintro ⟨h,h'⟩
  rcases hr with hr | hr
  · exact hr h
  · exact h' hr

/-- A line begins with one word and one character behind it. -/
theorem not_isPrefixOf {v s : List Char} {d : Char} (hv : ∀ e ∈ v, isNameChar e = true)
    (hd : isNameChar d = false) (hne : d ≠ c) : (v ++ d :: s).isPrefixOf (w ++ c :: r) = false := by
  rw [Bool.eq_false_iff]
  intro h
  obtain ⟨t,ht⟩ := List.isPrefixOf_iff_prefix.mp h
  have hs := congrArg (List.dropWhile isNameChar) ht
  rw [List.append_assoc,List.cons_append,dropWhile_word hv hd,dropWhile_word hw hc] at hs
  exact hne (List.cons_eq_cons.mp hs).1

theorem find_openings (hp : c ≠ '(') : openings.find? (·.isPrefixOf (w ++ c :: r)) = none := by
  refine List.find?_eq_none.mpr fun cs hcs => ?_
  obtain ⟨v,s,rfl,hv,-⟩ := exists_of_mem_openings hcs
  rw [not_isPrefixOf hw hc hv rfl hp.symm]
  simp

theorem variableNames_plain (hp : c ≠ '(') (h : isPlain (w ++ c :: r) = true) :
    variableNames (w ++ c :: r) = [] := by
  rw [variableNames,find_openings hw hc hp]
  exact if_pos h

end FirstWord

/-- A line that begins with a call or a keyword in front of a condition. -/
theorem observe_opening {o : List Char} (ho : o ∈ openings) (r : List Char) :
    label? (o ++ r) = none ∧ jump? (o ++ r) = none := by
  obtain ⟨v,s,rfl,hv,hne⟩ := exists_of_mem_openings ho
  rw [List.append_assoc,List.cons_append]
  exact ⟨label?_word hv rfl (by decide),jump?_word hv rfl (.inl hne)⟩

theorem variableNames_opening {o r : List Char}
    (h : openings.find? (·.isPrefixOf (o ++ r)) = some o) : variableNames (o ++ r) = names r := by
  rw [variableNames,h]
  dsimp only
  rw [List.drop_left]

theorem isPrefixOf_append (o r : List Char) : o.isPrefixOf (o ++ r) = true :=
  List.isPrefixOf_iff_prefix.mpr (List.prefix_append o r)

theorem find_valueStart (r : List Char) :
    openings.find? (·.isPrefixOf (Code.valueStart ++ r)) = some Code.valueStart :=
  List.find?_cons_of_pos (isPrefixOf_append _ r)

theorem find_readStart (r : List Char) :
    openings.find? (·.isPrefixOf (Code.readStart ++ r)) = some Code.readStart := by
  have h : Code.valueStart.isPrefixOf (Code.readStart ++ r) = false := rfl
  rw [openings,List.find?_cons_of_neg (by simp [h])]
  exact List.find?_cons_of_pos (isPrefixOf_append _ r)

theorem find_loop (r : List Char) : openings.find? (·.isPrefixOf (BlockKind.loop.code ++ r)) =
    some BlockKind.loop.code := by
  have h₁ : Code.valueStart.isPrefixOf (BlockKind.loop.code ++ r) = false := rfl
  have h₂ : Code.readStart.isPrefixOf (BlockKind.loop.code ++ r) = false := rfl
  have h₃ : BlockKind.conditional.code.isPrefixOf (BlockKind.loop.code ++ r) = false := rfl
  rw [openings,List.find?_cons_of_neg (by simp [h₁]),List.find?_cons_of_neg (by simp [h₂]),
    List.find?_cons_of_neg (by simp [h₃])]
  exact List.find?_cons_of_pos (isPrefixOf_append _ r)

/-- A condition has no blank in it, so it is told from the reading of a number. -/
theorem find_conditional {r : List Char} (h : (r.drop 1).head? ≠ some ' ') :
    openings.find? (·.isPrefixOf (BlockKind.conditional.code ++ r)) =
      some BlockKind.conditional.code := by
  have h₁ : Code.valueStart.isPrefixOf (BlockKind.conditional.code ++ r) = false := rfl
  have h₂ : Code.readStart.isPrefixOf (BlockKind.conditional.code ++ r) = false := by
    have hs : Code.readStart =
        BlockKind.conditional.code ++ '0' :: ' ' :: "== scanf(\"%f\", &".toList := rfl
    rw [Bool.eq_false_iff,hs]
    intro hp
    obtain ⟨t,rfl⟩ := (List.prefix_append_right_inj _).mp (List.isPrefixOf_iff_prefix.mp hp)
    exact h rfl
  rw [openings,List.find?_cons_of_neg (by simp [h₁]),List.find?_cons_of_neg (by simp [h₂])]
  exact List.find?_cons_of_pos (isPrefixOf_append _ r)

/-- A line that begins with an assignment. -/
theorem observe_assign {w : List Char} (hw : ∀ d ∈ w, isNameChar d = true) (r : List Char) :
    label? (w ++ ' ' :: '=' :: r) = none ∧ jump? (w ++ ' ' :: '=' :: r) = none ∧
      variableNames (w ++ ' ' :: '=' :: r) = names w ++ names r := by
  have hl : label? (w ++ ' ' :: '=' :: r) = none := label?_word hw rfl (by decide)
  have hj : jump? (w ++ ' ' :: '=' :: r) = none := jump?_word hw rfl (.inr rfl)
  have ht : Code.textStart.isPrefixOf (w ++ ' ' :: '=' :: r) = false :=
    not_isPrefixOf hw rfl (v := "printf".toList) (List.all_eq_true.mp rfl) rfl (by decide)
  have hs : skipStart.isPrefixOf (w ++ ' ' :: '=' :: r) = false :=
    not_isPrefixOf hw rfl (v := "scanf".toList) (List.all_eq_true.mp rfl) rfl (by decide)
  have hne : (w ++ ' ' :: '=' :: r == lastLine) = false := by
    rw [beq_eq_false_iff_ne]
    intro h
    have hd := congrArg (List.dropWhile isNameChar) h
    rw [dropWhile_word hw rfl] at hd
    cases hd
  have hp : isPlain (w ++ ' ' :: '=' :: r) = false := by
    rw [isPlain,hl,hj,ht,hs,hne]
    rfl
  refine ⟨hl,hj,?_⟩
  rw [variableNames,find_openings hw rfl (by decide)]
  dsimp only
  rw [hp,if_neg (by simp),names_append_cons rfl,names_cons rfl]

/-- What is seen on a line. -/
structure Shows (line : List Char) (l : BodyLine) : Prop where
  label : label? line = l.label?
  jump : jump? line = l.jump?
  variableNames : variableNames line = l.variableNames

theorem shows_label {n : List Char} (hn : IsWord n) :
    Shows (BodyLine.label n).content (.label n) := by
  have hl : label? (n ++ [':']) = some n := by
    rw [label?,dropWhile_word hn.isNameChar rfl,if_pos rfl,takeWhile_word hn.isNameChar rfl]
  refine ⟨hl,jump?_word hn.isNameChar rfl (.inr rfl),?_⟩
  refine variableNames_plain hn.isNameChar rfl (by decide) ?_
  rw [isPlain,hl]
  rfl

theorem shows_jump {n : List Char} (hn : IsWord n) :
    Shows (BodyLine.jump n).content (.jump n) := by
  have hw : ∀ c ∈ "goto".toList, isNameChar c = true := List.all_eq_true.mp rfl
  have ht : (n ++ [';']).takeWhile isNameChar = n := takeWhile_word hn.isNameChar rfl
  have hc : (BodyLine.jump n).content = "goto".toList ++ ' ' :: (n ++ [';']) := rfl
  have hj : jump? ("goto".toList ++ ' ' :: (n ++ [';'])) = some n := by
    obtain ⟨c,cs,rfl,-⟩ := hn
    unfold jump? second
    rw [takeWhile_word hw rfl,dropWhile_word hw rfl,List.drop_one,List.tail_cons,ht,
      if_pos ⟨rfl,by simp⟩]
  rw [hc]
  refine ⟨label?_word hw rfl (by decide),hj,?_⟩
  refine variableNames_plain hw rfl (by decide) ?_
  rw [isPlain,hj]
  simp

/-- A string holds no percent sign, which the format of a printed value begins with. -/
theorem not_isPrefixOf_text {content : List Char} (h : ∀ c ∈ content, isStringChar c = true) :
    Code.valueStart.isPrefixOf (Code.textStart ++ (content ++ "\\n\");".toList)) = false := by
  have hp : (content ++ "\\n\");".toList).head? ≠ some '%' := by
    cases content with
    | nil =>
      change some '\\' ≠ some '%'
      decide
    | cons c content =>
      intro hc
      obtain rfl := Option.some.inj hc
      cases h '%' (by simp)
  have hs : Code.valueStart = Code.textStart ++ '%' :: ".2f\\n\", (float)(".toList := rfl
  rw [Bool.eq_false_iff,hs]
  intro hp'
  obtain ⟨t,ht⟩ := (List.prefix_append_right_inj _).mp (List.isPrefixOf_iff_prefix.mp hp')
  exact hp (ht ▸ rfl)

theorem shows_text {content : List Char} (h : ∀ c ∈ content, isStringChar c = true) :
    Shows (BodyLine.text content).content (.text content) := by
  have hw : ∀ c ∈ "printf".toList, isNameChar c = true := List.all_eq_true.mp rfl
  have hc : (BodyLine.text content).content =
      Code.textStart ++ (content ++ "\\n\");".toList) := List.append_assoc _ _ _
  have hs : Code.textStart = "printf".toList ++ ['(','"'] := rfl
  have hv := not_isPrefixOf_text h
  rw [hc]
  generalize content ++ "\\n\");".toList = r at hv
  refine ⟨?_,?_,?_⟩
  · rw [hs,List.append_assoc]
    exact label?_word hw rfl (by decide)
  · rw [hs,List.append_assoc]
    exact jump?_word hw rfl (.inl (by decide))
  · have hf : openings.find? (·.isPrefixOf (Code.textStart ++ r)) = none := by
      have h₂ : Code.readStart.isPrefixOf (Code.textStart ++ r) = false := rfl
      have h₃ : BlockKind.conditional.code.isPrefixOf (Code.textStart ++ r) = false := rfl
      have h₄ : BlockKind.loop.code.isPrefixOf (Code.textStart ++ r) = false := rfl
      rw [openings,List.find?_cons_of_neg (by simp [hv]),List.find?_cons_of_neg (by simp [h₂]),
        List.find?_cons_of_neg (by simp [h₃]),List.find?_cons_of_neg (by simp [h₄]),
        List.find?_nil]
    rw [variableNames,hf]
    refine if_pos ?_
    simp only [isPlain,isPrefixOf_append,Bool.or_true,Bool.true_or]

theorem shows_read {n : List Char} (hn : IsWord n) :
    Shows (BodyLine.read n).content (.read n) := by
  obtain ⟨hl,hj⟩ := observe_opening (o := Code.readStart) (.tail _ (.head _))
    (n ++ ")) \x7b".toList)
  have hv := variableNames_opening (find_readStart (n ++ ")) \x7b".toList))
  have hr : ∀ c ∈ (")) \x7b".toList).head?, isNameChar c = false := stop_of_head (x := ')') rfl rfl
  have hnil : names ")) \x7b".toList = [] := by decide
  have hs : names (n ++ ")) \x7b".toList) = [n] := by
    rw [names_append hr,hn.names_eq,hnil,List.append_nil]
  have hc : (BodyLine.read n).content = Code.readStart ++ (n ++ ")) \x7b".toList) :=
    List.append_assoc _ _ _
  rw [hc]
  exact ⟨hl,hj,hv.trans hs⟩

theorem shows_zero {n : List Char} (hn : IsWord n) :
    Shows (BodyLine.zero n).content (.zero n) := by
  obtain ⟨hl,hj,hv⟩ := observe_assign hn.isNameChar " 0;".toList
  have hnil : names " 0;".toList = [] := by decide
  rw [hn.names_eq,hnil] at hv
  exact ⟨hl,hj,hv⟩

/-- What is seen on a line with a formula, be it finished or not. -/
theorem shows_formula {f : Formula} {ps : List Piece} {r : List Char} (hf : f.WellFormed)
    (hp : Legible ps) (hr : r = [] ∨ r = f.mark) :
    Shows (f.opening ++ copied ps ++ r) (.formula f ps) := by
  have hmark : f.mark.all (fun c => !isNameChar c && c != ' ') = true := by
    cases f <;> rfl
  have hend : ∀ c ∈ r, isNameChar c = false ∧ c ≠ ' ' := by
    rcases hr with rfl | rfl
    · simp
    · intro c hc
      simpa using List.all_eq_true.mp hmark c hc
  have hnames : names (copied ps ++ r) = idents ps := by
    rw [hp.names_eq fun c hc => (hend c (List.mem_of_mem_head? hc)).1,
      ← List.append_nil r,names_skip fun c hc => (hend c hc).1,names_nil,List.append_nil]
  rw [List.append_assoc]
  cases f with
  | value =>
    obtain ⟨hl,hj⟩ := observe_opening (o := Code.valueStart) (.head _) (copied ps ++ r)
    exact ⟨hl,hj,(variableNames_opening (find_valueStart _)).trans hnames⟩
  | condition kind =>
    cases kind with
    | conditional =>
      have hb : ((copied ps ++ r).drop 1).head? ≠ some ' ' := by
        intro hb
        rcases List.mem_append.mp (List.mem_of_mem_drop (List.mem_of_mem_head? hb)) with hm | hm
        · exact hp.not_mem rfl rfl hm
        · exact (hend ' ' hm).2 rfl
      obtain ⟨hl,hj⟩ := observe_opening (o := BlockKind.conditional.code)
        (.tail _ (.tail _ (.head _))) (copied ps ++ r)
      exact ⟨hl,hj,(variableNames_opening (find_conditional hb)).trans hnames⟩
    | loop =>
      obtain ⟨hl,hj⟩ := observe_opening (o := BlockKind.loop.code)
        (.tail _ (.tail _ (.tail _ (.head _)))) (copied ps ++ r)
      exact ⟨hl,hj,(variableNames_opening (find_loop _)).trans hnames⟩
  | assigned n =>
    have hn : IsWord n := hf
    obtain ⟨hl,hj,hv⟩ := observe_assign hn.isNameChar (' ' :: (copied ps ++ r))
    rw [names_cons rfl,hnames,hn.names_eq] at hv
    have hc : Formula.opening (.assigned n) ++ (copied ps ++ r) =
      n ++ ' ' :: '=' :: ' ' :: (copied ps ++ r) := List.append_assoc _ _ _
    rw [hc]
    exact ⟨hl,hj,hv⟩

end C

namespace BodyLine
variable {l : BodyLine}

theorem WellFormed.shows (h : l.WellFormed) : C.Shows l.content l := by
  cases l with
  | text content => exact C.shows_text h
  | formula f ps => exact C.shows_formula h.1 h.2 (.inr rfl)
  | label n => exact C.shows_label h
  | jump n => exact C.shows_jump h
  | read n => exact C.shows_read h
  | zero n => exact C.shows_zero h
  | skip | close | final => constructor <;> decide

theorem not_mem_word {n : List Char} (h : IsWord n) : '\n' ∉ n := by
  intro hm
  cases h.isNameChar '\n' hm

theorem not_mem_opening {f : Formula} (h : f.WellFormed) : '\n' ∉ f.opening := by
  cases f with
  | value => decide
  | condition kind => cases kind <;> decide
  | assigned n => exact List.not_mem_append (not_mem_word h) (by decide)

theorem WellFormed.not_mem (h : l.WellFormed) : '\n' ∉ l.content := by
  cases l with
  | text content =>
    refine List.not_mem_append (List.not_mem_append (by decide) fun hm => ?_) (by decide)
    cases h '\n' hm
  | formula f ps =>
    refine List.not_mem_append (List.not_mem_append (not_mem_opening h.1) ?_) ?_
    · exact h.2.not_mem rfl rfl
    · cases f <;> simp [Formula.mark]
  | label n | zero n => exact List.not_mem_append (not_mem_word h) (by decide)
  | jump n | read n =>
    exact List.not_mem_append (List.not_mem_append (by decide) (not_mem_word h)) (by decide)
  | skip | close | final => decide

end BodyLine

/-- The lines of a text, without their line feeds; the last one need not be finished. -/
def C.lines (text : List Char) : List (List Char) := splitOn '\n' text

theorem C.lines_append_feed {l : List Char} (h : '\n' ∉ l) (r : List Char) :
    C.lines (l ++ '\n' :: r) = l :: C.lines r := splitOn_append_cons h r

theorem lines_eq {ls : List BodyLine} {tail : List Char} (h : ∀ l ∈ ls, l.WellFormed)
    (ht : '\n' ∉ tail) :
    C.lines (ls.flatMap BodyLine.code ++ tail) = ls.map BodyLine.content ++ [tail] := by
  induction ls with
  | nil => exact splitOn_of_not_mem ht
  | cons l ls ih =>
    obtain ⟨hl,hls⟩ := List.forall_mem_cons.mp h
    have hs : (l :: ls).flatMap BodyLine.code ++ tail =
        l.content ++ '\n' :: (ls.flatMap BodyLine.code ++ tail) := by
      simp [BodyLine.code]
    rw [hs,C.lines_append_feed hl.not_mem,ih hls,List.map_cons,List.cons_append]

end TeenyTiny
