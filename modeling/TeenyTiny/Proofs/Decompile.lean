import TeenyTiny.Proofs.CTokens

/-! Reading the C text back. A decompiler finds the pieces of the source in the text, line by
line, up to blank lines and the zeros in front of numbers; so two sources with the same text
differ in nothing else. -/
namespace TeenyTiny
open Text Piece Ast Lexer Generator

/-- The piece with its lexeme as the text has it. -/
def Piece.normal (p : Piece) : Piece := ⟨p.kind,p.code⟩

@[simp] theorem Piece.normal_of_kind_ne {p : Piece} (h : p.kind ≠ .number) : p.normal = p := by
  rw [normal,code,if_neg h]

/-- The tokens of a text, as long as there are any. -/
def reread : (fuel : Nat) → List Char → List Piece
  | 0,_ => []
  | fuel + 1,cs =>
    match Lexer.read cs with
    | ⟨.ok (kind,lexeme),rest⟩ => if kind = .eof then [] else ⟨kind,lexeme⟩ :: reread fuel rest
    | ⟨.error _,_⟩ => []

theorem isSymbol_of_isOperator {k : Kind} (h : k.isOperator = true) : k.isSymbol = true := by
  cases k with
  | plus | minus | times | slash | comparison => rfl
  | _ => cases h

section Reread
variable {x : Piece} {ps : List Piece}

theorem read_piece (hx : x.WellFormed) (hc : x.kind.isCopied = true)
    (hw : ∀ z ∈ ps, z.WellFormed) (hj : ∀ z ∈ ps.head?, Adjacent x z)
    (hl : x.kind.isOperator = true → copied ps ≠ []) :
    Lexer.read (x.code ++ copied ps) = ⟨.ok (x.kind,x.code),copied ps⟩ := by
  rcases isOperand_or_isOperator hc with ho | ho
  · have hr := copied_behind_operand hw ho hj
    obtain ⟨kind,lexeme⟩ := x
    cases kind with
    | number =>
      have hn : IsNumber lexeme := hx
      refine read_number hn.cNumber fun c hc => ?_
      have h := hr c hc
      simp only [C.isNameChar,Bool.or_eq_false_iff] at h
      exact ⟨h.1.2,h.2⟩
    | ident =>
      refine read_ident hx.1 hx.2 fun c hc => ?_
      have h := (hr c hc).1
      cases hd : isWordChar c with
      | false => rfl
      | true =>
        rw [C.isNameChar_of_isWordChar hd] at h
        cases h
    | _ => cases ho
  · obtain ⟨c,cs,hcs⟩ := List.exists_cons_of_ne_nil (hl ho)
    have hr := copied_behind_operator hw ho hj c (by simp [hcs])
    have he : c ≠ '=' := by
      rintro rfl
      cases hr
    rw [hcs,code_of_isOperator ho]
    exact read_symbol hx (isSymbol_of_isOperator ho) he

theorem reread_copied (hw : ∀ z ∈ ps, z.WellFormed) (hc : ∀ z ∈ ps, z.kind.isCopied = true)
    (hj : ps.IsChain Adjacent) (hl : ∀ z ∈ ps.getLast?, z.kind.isOperand = true) {n : Nat}
    (hn : (copied ps).length ≤ n) : reread n (copied ps) = ps.map Piece.normal := by
  induction ps generalizing n with
  | nil => cases n <;> rfl
  | cons x ps ih =>
    obtain ⟨hx,hw⟩ := List.forall_mem_cons.mp hw
    obtain ⟨hxc,hc⟩ := List.forall_mem_cons.mp hc
    obtain ⟨hxj,hj⟩ := List.isChain_cons.mp hj
    have hne : 0 < x.code.length := List.length_pos_iff.mpr (code_ne_nil hx hxc)
    rw [copied_cons,List.length_append] at hn
    obtain ⟨n,rfl⟩ := Nat.exists_eq_add_one_of_ne_zero (n := n) (by omega)
    have hlt : ∀ z ∈ ps.getLast?, z.kind.isOperand = true := by
      intro z hz
      have hps : ps ≠ [] := by
        rintro rfl
        simp at hz
      exact hl z (by rwa [List.getLast?_cons_of_ne_nil hps])
    -- an operator is never the last piece, where the lexer would not see its end
    have hr : Lexer.read (x.code ++ copied ps) = ⟨.ok (x.kind,x.code),copied ps⟩ := by
      refine read_piece hx hxc hw hxj fun ho => ?_
      cases ps with
      | nil => exact absurd ho (not_isOperator_of_isOperand (hl x rfl))
      | cons y ps => simp [code_ne_nil (hw y (by simp)) (hc y (by simp))]
    have hk : x.kind ≠ .eof := by
      intro hk
      rw [hk] at hxc
      cases hxc
    rw [copied_cons,reread,hr]
    simp only [hk,if_false,List.map_cons]
    rw [ih hw hc hj hlt (by omega)]
    rfl

end Reread

namespace Decompiler

/-- What one line of the text stands for: pieces of the source, the blocks that are open behind
it, and the text that it takes up. -/
structure Line where
  pieces : List Piece
  blocks : List BlockKind
  text : List Char

def printWord : List Char := "printf".toList
def loopWord : List Char := "while".toList
def jumpWord : List Char := "goto".toList
def declareWord : List Char := "float".toList
def returnWord : List Char := "return".toList

/-- Characters that do not end an expression or a comparison. -/
def isFormulaChar (c : Char) : Bool := !(c = ')' || c = ';' || c = ' ')

/-- The expression or comparison at the start of the characters. -/
def formula (cs : List Char) : List Char := cs.takeWhile isFormulaChar

def name (cs : List Char) : List Char := cs.takeWhile isWordChar

/-- The pieces of an expression or a comparison. -/
def tokens (text : List Char) : List Piece := reread text.length text

def printLine (blocks : List BlockKind) (cs : List Char) : Line :=
  if (cs.drop Code.textStart.length).head? = some '%' then
    let value := formula (cs.drop Code.valueStart.length)
    ⟨keyword .print :: (tokens value ++ [newline]),blocks,Code.printValue value⟩
  else
    let text := (cs.drop Code.textStart.length).takeWhile isStringChar
    ⟨[keyword .print,string text,newline],blocks,Code.printText text⟩

def blockLine (kind : BlockKind) (blocks : List BlockKind) (cs : List Char) : Line :=
  let condition := formula (cs.drop kind.code.length)
  ⟨keyword kind.start :: (tokens condition ++ [keyword kind.opener,newline]),kind :: blocks,
    kind.code ++ condition ++ Code.bodyStart⟩

/-- A comparison has no blank in it, a call of the input function has. -/
def branchLine (blocks : List BlockKind) (cs : List Char) : Line :=
  let inner := cs.drop (BlockKind.code .conditional).length
  if (inner.dropWhile isFormulaChar).head? = some ' ' then
    let target := name (cs.drop Code.readStart.length)
    ⟨[keyword .input,ident target,newline],blocks,Code.input target⟩
  else blockLine .conditional blocks cs

/-- A line whose first word has a blank behind it. -/
def wordLine (word : List Char) (blocks : List BlockKind) (cs : List Char) : Option Line :=
  if word = jumpWord then
    let target := name (cs.drop Code.jump.length)
    some ⟨[keyword .goto,ident target,newline],blocks,Code.goto target⟩
  else if word = declareWord then
    some ⟨[],blocks,declaration (name (cs.drop (declareWord.length + 1)))⟩
  else if word = returnWord then none
  else
    let value := formula (cs.drop (word ++ Code.equals).length)
    some ⟨keyword .let_ :: ident word :: Piece.assign :: (tokens value ++ [newline]),blocks,
      Code.assign word value⟩

def closeLine : List BlockKind → Option Line
  | [] => none
  | kind :: blocks => some ⟨[keyword kind.closer,newline],blocks,Code.bodyEnd⟩

/-- The first line of the text, told by its first word and the character behind it; nothing is
left of the source at the end of the main function. -/
def line (blocks : List BlockKind) (cs : List Char) : Option Line :=
  let word := name cs
  match (cs.dropWhile isWordChar).head? with
  | some ':' => some ⟨[keyword .label,ident word,newline],blocks,Code.label word⟩
  | some '(' =>
    if word = printWord then some (printLine blocks cs)
    else if word = loopWord then some (blockLine .loop blocks cs)
    else some (branchLine blocks cs)
  | some ' ' => wordLine word blocks cs
  | some '\x7d' => closeLine blocks
  | _ => none

end Decompiler

/-- The text, read line by line, gives these pieces. -/
inductive Decompiles : List BlockKind → List Char → List Piece → Prop
  | done {blocks : List BlockKind} {cs : List Char} (h : Decompiler.line blocks cs = none) :
    Decompiles blocks cs [eof]
  | line {blocks : List BlockKind} {cs : List Char} {l : Decompiler.Line} {ps : List Piece}
    (h : Decompiler.line blocks cs = some l)
    (rest : Decompiles l.blocks (cs.drop l.text.length) ps) : Decompiles blocks cs (l.pieces ++ ps)

theorem Decompiles.unique {blocks : List BlockKind} {cs : List Char} {ps qs : List Piece}
    (hp : Decompiles blocks cs ps) (hq : Decompiles blocks cs qs) : ps = qs := by
  induction hp generalizing qs with
  | done h =>
    cases hq with
    | done _ => rfl
    | line h' _ =>
      rw [h] at h'
      cases h'
  | line h _ ih =>
    cases hq with
    | done h' =>
      rw [h] at h'
      cases h'
    | line h' rest' =>
      obtain rfl := Option.some.inj (h.symm.trans h')
      rw [ih rest']

namespace Decompiler
variable {blocks : List BlockKind} {cs r : List Char}

theorem isFormulaChar_of_isNameChar {c : Char} (h : C.isNameChar c = true) :
    isFormulaChar c = true := by
  cases hf : isFormulaChar c with
  | true => rfl
  | false =>
    have hc : c = ')' ∨ c = ';' ∨ c = ' ' := by
      simpa [isFormulaChar,or_iff_not_imp_left] using hf
    rcases hc with rfl | rfl | rfl
    · cases h
    · cases h
    · cases h

theorem isFormulaChar_code {x : Piece} (hx : x.WellFormed) (hc : x.kind.isCopied = true) :
    ∀ c ∈ x.code, isFormulaChar c = true :=
  all_code (fun _ => isFormulaChar_of_isNameChar) (List.all_eq_true.mp rfl) hx hc

/-- The characters begin with a word that another character ends. -/
structure Opens (cs word : List Char) (c : Char) : Prop where
  name_eq : name cs = word
  head_eq : (cs.dropWhile isWordChar).head? = some c

theorem opens {w : List Char} {c : Char} (hw : w.all isWordChar = true)
    (hc : isWordChar c = false) (rest : List Char) : Opens (w ++ c :: rest) w c := by
  have hw := List.all_eq_true.mp hw
  have hr : ∀ d ∈ (c :: rest).head?, isWordChar d = false := stop_of_head rfl hc
  exact ⟨takeWhile_append_stop hw hr,by rw [dropWhile_append_stop hw hr,List.head?_cons]⟩

theorem Opens.line_call {word : List Char} (h : Opens cs word '(') : line blocks cs =
    if word = printWord then some (printLine blocks cs)
    else if word = loopWord then some (blockLine .loop blocks cs)
    else some (branchLine blocks cs) := by
  simp only [line,h.name_eq,h.head_eq]

theorem Opens.line_word {word : List Char} (h : Opens cs word ' ') :
    line blocks cs = wordLine word blocks cs := by
  simp only [line,h.name_eq,h.head_eq]

theorem line_label {n : List Char} (hn : IsWord n) : line blocks (Code.label n ++ r) =
    some ⟨[keyword .label,ident n,newline],blocks,Code.label n⟩ := by
  have h : Opens (Code.label n ++ r) n ':' := by
    unfold Code.label
    rw [List.append_assoc]
    exact opens (List.all_eq_true.mpr hn.isWordChar) rfl _
  simp only [line,h.name_eq,h.head_eq]

theorem line_close (kind : BlockKind) : line (kind :: blocks) (Code.bodyEnd ++ r) =
    some ⟨[keyword kind.closer,newline],blocks,Code.bodyEnd⟩ := by
  have h : Opens (Code.bodyEnd ++ r) [] '\x7d' := opens (w := []) rfl rfl _
  simp only [line,h.head_eq,closeLine]

theorem line_printText {text : List Char} (ht : ∀ c ∈ text, isStringChar c = true) :
    line blocks (Code.printText text ++ r) =
      some ⟨[keyword .print,string text,newline],blocks,Code.printText text⟩ := by
  have h : Opens (Code.printText text ++ r) printWord '(' := opens (w := printWord) rfl rfl _
  have hd : (Code.printText text ++ r).drop Code.textStart.length =
      text ++ (Code.textEnd ++ r) := by
    simp only [Code.printText,List.append_assoc,List.drop_left]
  -- a string holds no percent sign, which the format of a printed value begins with
  have hp : (text ++ (Code.textEnd ++ r)).head? ≠ some '%' := by
    cases text with
    | nil =>
      change some '\\' ≠ some '%'
      decide
    | cons c text =>
      intro hc
      obtain rfl := Option.some.inj hc
      cases ht '%' (by simp)
  rw [h.line_call,if_pos rfl,printLine,hd,if_neg hp,
    takeWhile_append_stop ht (stop_of_head (x := '\\') rfl rfl)]

/-- Pieces of an expression or a comparison. -/
structure IsFormula (ps : List Piece) : Prop where
  joined : Joined ps
  isCopied : ∀ x ∈ ps, x.kind.isCopied = true
  wellFormed : ∀ x ∈ ps, x.WellFormed

section Formulas
variable {ps : List Piece}

theorem IsFormula.isFormulaChar (h : IsFormula ps) :
    ∀ c ∈ copied ps, Decompiler.isFormulaChar c = true := by
  intro c hc
  obtain ⟨x,hx,hm⟩ := List.mem_flatMap.mp hc
  exact isFormulaChar_code (h.wellFormed x hx) (h.isCopied x hx) c hm

theorem IsFormula.formula_eq (h : IsFormula ps) {c : Char} (hr : r.head? = some c)
    (hc : Decompiler.isFormulaChar c = false) : formula (copied ps ++ r) = copied ps :=
  takeWhile_append_stop h.isFormulaChar (stop_of_head hr hc)

theorem IsFormula.tokens_eq (h : IsFormula ps) : tokens (copied ps) = ps.map Piece.normal :=
  reread_copied h.wellFormed h.isCopied h.joined.chain h.joined.last le_rfl

theorem line_printValue (hp : IsFormula ps) : line blocks (Code.printValue (copied ps) ++ r) =
    some ⟨keyword .print :: (ps.map Piece.normal ++ [newline]),blocks,
      Code.printValue (copied ps)⟩ := by
  have h : Opens (Code.printValue (copied ps) ++ r) printWord '(' :=
    opens (w := printWord) rfl rfl _
  have hd : (Code.printValue (copied ps) ++ r).drop Code.valueStart.length =
      copied ps ++ (Code.valueEnd ++ r) := by
    simp only [Code.printValue,List.append_assoc,List.drop_left]
  have hv : ((Code.printValue (copied ps) ++ r).drop Code.textStart.length).head? = some '%' := rfl
  rw [h.line_call,if_pos rfl,printLine,if_pos hv,hd,hp.formula_eq (c := ')') rfl rfl]
  dsimp only
  rw [hp.tokens_eq]

theorem blockLine_eq (kind : BlockKind) (hp : IsFormula ps) (blocks : List BlockKind)
    (r : List Char) :
    blockLine kind blocks (kind.code ++ copied ps ++ Code.bodyStart ++ r) =
      ⟨keyword kind.start :: (ps.map Piece.normal ++ [keyword kind.opener,newline]),kind :: blocks,
        kind.code ++ copied ps ++ Code.bodyStart⟩ := by
  have hd : (kind.code ++ copied ps ++ Code.bodyStart ++ r).drop kind.code.length =
      copied ps ++ (Code.bodyStart ++ r) := by
    simp only [List.append_assoc,List.drop_left]
  rw [blockLine,hd,hp.formula_eq (c := ')') rfl rfl,hp.tokens_eq]

theorem line_block (kind : BlockKind) (hp : IsFormula ps) :
    line blocks (kind.code ++ copied ps ++ Code.bodyStart ++ r) =
      some ⟨keyword kind.start :: (ps.map Piece.normal ++ [keyword kind.opener,newline]),
        kind :: blocks,kind.code ++ copied ps ++ Code.bodyStart⟩ := by
  rw [← blockLine_eq kind hp blocks r]
  cases kind with
  | conditional =>
    have h : Opens (BlockKind.conditional.code ++ copied ps ++ Code.bodyStart ++ r) ['i','f'] '(' :=
      opens (w := ['i','f']) rfl rfl _
    have hd : (BlockKind.conditional.code ++ copied ps ++ Code.bodyStart ++ r).drop
        BlockKind.conditional.code.length = copied ps ++ (Code.bodyStart ++ r) := by
      simp only [List.append_assoc,List.drop_left]
    have hb : ((copied ps ++ (Code.bodyStart ++ r)).dropWhile isFormulaChar).head? ≠ some ' ' := by
      rw [dropWhile_append_stop hp.isFormulaChar (stop_of_head (x := ')') rfl rfl)]
      change some ')' ≠ some ' '
      decide
    rw [h.line_call,if_neg (by decide),if_neg (by decide),branchLine,hd]
    dsimp only
    rw [if_neg hb]
  | loop =>
    have h : Opens (BlockKind.loop.code ++ copied ps ++ Code.bodyStart ++ r) loopWord '(' :=
      opens (w := loopWord) rfl rfl _
    rw [h.line_call,if_neg (by decide),if_pos rfl]

theorem line_assign {n : List Char} (hn : IsWord n) (hj : n ≠ jumpWord) (hd : n ≠ declareWord)
    (hr : n ≠ returnWord) (hp : IsFormula ps) :
    line blocks (Code.assign n (copied ps) ++ r) =
      some ⟨keyword .let_ :: ident n :: Piece.assign :: (ps.map Piece.normal ++ [newline]),blocks,
        Code.assign n (copied ps)⟩ := by
  have h : Opens (Code.assign n (copied ps) ++ r) n ' ' := by
    simp only [Code.assign,List.append_assoc]
    exact opens (List.all_eq_true.mpr hn.isWordChar) rfl _
  have hv : (Code.assign n (copied ps) ++ r).drop (n ++ Code.equals).length =
      copied ps ++ (Code.semicolon ++ r) := by
    rw [Code.assign,List.append_assoc,List.append_assoc,List.drop_left]
  rw [h.line_word,wordLine,if_neg hj,if_neg hd,if_neg hr,hv,hp.formula_eq (c := ';') rfl rfl]
  dsimp only
  rw [hp.tokens_eq]

end Formulas

section Words
variable {n : List Char} (hn : IsWord n)
include hn

theorem line_input : line blocks (Code.input n ++ r) =
    some ⟨[keyword .input,ident n,newline],blocks,Code.input n⟩ := by
  have h : Opens (Code.input n ++ r) ['i','f'] '(' := opens (w := ['i','f']) rfl rfl _
  have hd : (Code.input n ++ r).drop Code.readStart.length =
      n ++ (Code.readEnd ++ (n ++ (Code.zero ++ (Code.skipWord ++ (Code.bodyEnd ++ r))))) := by
    simp only [Code.input,List.append_assoc,List.drop_left]
  have hb : (((Code.input n ++ r).drop BlockKind.conditional.code.length).dropWhile
      isFormulaChar).head? = some ' ' := rfl
  rw [h.line_call,if_neg (by decide),if_neg (by decide),branchLine]
  dsimp only
  rw [if_pos hb,hd,name,takeWhile_append_stop hn.isWordChar (stop_of_head (x := ')') rfl rfl)]

theorem line_goto : line blocks (Code.goto n ++ r) =
    some ⟨[keyword .goto,ident n,newline],blocks,Code.goto n⟩ := by
  have h : Opens (Code.goto n ++ r) jumpWord ' ' := opens (w := jumpWord) rfl rfl _
  have hd : (Code.goto n ++ r).drop Code.jump.length = n ++ (Code.semicolon ++ r) := by
    simp only [Code.goto,List.append_assoc,List.drop_left]
  rw [h.line_word,wordLine,if_pos rfl,hd,name,
    takeWhile_append_stop hn.isWordChar (stop_of_head (x := ';') rfl rfl)]

theorem line_declaration : line blocks (declaration n ++ r) =
    some ⟨[],blocks,declaration n⟩ := by
  have h : Opens (declaration n ++ r) declareWord ' ' :=
    opens (w := declareWord) rfl rfl _
  have hd : (declaration n ++ r).drop (declareWord.length + 1) = n ++ (Code.semicolon ++ r) := by
    unfold declaration
    simp only [List.append_assoc]
    rfl
  rw [h.line_word,wordLine,if_neg (by decide),if_pos rfl,hd,name,
    takeWhile_append_stop hn.isWordChar (stop_of_head (x := ';') rfl rfl)]

end Words

theorem line_epilogue : line blocks epilogue = none := by
  have h : Opens epilogue returnWord ' ' := opens (w := returnWord) rfl rfl _
  rw [h.line_word,wordLine,if_neg (by decide),if_neg (by decide),if_pos rfl]

end Decompiler

open Decompiler

section Runs
variable {blocks : List BlockKind} {r : List Char} {ps : List Piece}

theorem Decompiles.of_line {blocks' : List BlockKind} {text : List Char} {qs : List Piece}
    (h : Decompiler.line blocks (text ++ r) = some ⟨qs,blocks',text⟩)
    (hr : Decompiles blocks' r ps) : Decompiles blocks (text ++ r) (qs ++ ps) :=
  .line h (by rwa [List.drop_left])

theorem ne_of_isReserved {n w : List Char} (hn : isReserved .variable (encode n) = false)
    (hw : isReserved .variable (encode w) = true) : n ≠ w := by
  rintro rfl
  rw [hn] at hw
  cases hw

theorem decompiles_declarations {ns : List (List Char)} (hn : ∀ n ∈ ns, IsWord n)
    (hr : Decompiles blocks r ps) : Decompiles blocks (ns.flatMap declaration ++ r) ps := by
  induction ns with
  | nil => exact hr
  | cons n ns ih =>
    obtain ⟨hn,hns⟩ := List.forall_mem_cons.mp hn
    rw [List.flatMap_cons,List.append_assoc]
    exact .of_line (line_declaration hn) (ih hns)

namespace Ast

theorem Expression.isFormula (e : Expression) (hw : ∀ p ∈ e.pieces, p.WellFormed) :
    IsFormula e.pieces := ⟨e.joined,e.isCopied,hw⟩

theorem Condition.isFormula (c : Condition) (hw : ∀ p ∈ c.pieces, p.WellFormed) :
    IsFormula c.pieces := ⟨c.joined,c.isCopied,hw⟩

mutual

/-- A statement is read back from its text, whatever follows. -/
theorem Statement.decompiles (s : Statement) (hw : ∀ p ∈ s.pieces, p.WellFormed)
    (hn : ∀ n ∈ s.targets, isReserved .variable (encode n) = false)
    {blocks : List BlockKind} {r : List Char} {ps : List Piece} (hr : Decompiles blocks r ps) :
    Decompiles blocks (s.code ++ r) (s.pieces.map Piece.normal ++ ps) := by
  match s with
  | .printText text =>
    have ht : (string text).WellFormed := hw _ (by simp [Statement.pieces])
    exact .of_line (line_printText ht) hr
  | .printValue value =>
    have hf := value.isFormula fun p hp => hw p (by simp [Statement.pieces,hp])
    have h := Decompiles.of_line (line_printValue hf) hr
    simpa [Statement.pieces,Statement.code] using h
  | .block kind condition body =>
    have hf := condition.isFormula fun p hp => hw p (by simp [Statement.pieces,hp])
    -- from the end: the closing line, the body before it, and the opening line
    have hc := Decompiles.of_line (line_close kind) hr
    have hb := Block.decompiles body (fun p hp => hw p (by simp [Statement.pieces,hp])) hn hc
    have h := Decompiles.of_line (line_block kind hf) hb
    simpa [Statement.pieces,Statement.code,Code.block] using h
  | .label n =>
    have hi : (ident n).WellFormed := hw _ (by simp [Statement.pieces])
    exact .of_line (line_label hi.1) hr
  | .goto n =>
    have hi : (ident n).WellFormed := hw _ (by simp [Statement.pieces])
    exact .of_line (line_goto hi.1) hr
  | .assign n value =>
    have hi : (ident n).WellFormed := hw _ (by simp [Statement.pieces])
    have hf := value.isFormula fun p hp => hw p (by simp [Statement.pieces,hp])
    have hv := hn n (by simp [Statement.targets])
    have h := Decompiles.of_line (line_assign hi.1 (ne_of_isReserved hv (by decide))
      (ne_of_isReserved hv (by decide)) (ne_of_isReserved hv (by decide)) hf) hr
    simpa [Statement.pieces,Statement.code] using h
  | .input n =>
    have hi : (ident n).WellFormed := hw _ (by simp [Statement.pieces])
    exact .of_line (line_input hi.1) hr

theorem Block.decompiles (b : List Statement) (hw : ∀ p ∈ Block.pieces b, p.WellFormed)
    (hn : ∀ n ∈ Block.targets b, isReserved .variable (encode n) = false)
    {blocks : List BlockKind} {r : List Char} {ps : List Piece} (hr : Decompiles blocks r ps) :
    Decompiles blocks (Block.code b ++ r) ((Block.pieces b).map Piece.normal ++ ps) := by
  match b with
  | [] => exact hr
  | s :: b =>
    rw [Block.code,Block.pieces,List.map_append,List.append_assoc,List.append_assoc]
    refine s.decompiles (fun p hp => hw p ?_) (fun n h => hn n ?_)
      (Block.decompiles b (fun p hp => hw p ?_) (fun n h => hn n ?_) hr)
    · exact List.mem_append_left _ hp
    · exact List.mem_append_left _ h
    · exact List.mem_append_right _ hp
    · exact List.mem_append_right _ h

end

mutual

theorem Statement.ident_mem (s : Statement) {n : List Char} (h : n ∈ s.targets) :
    ident n ∈ s.pieces := by
  match s with
  | .assign _ _ | .input _ =>
    obtain rfl := List.mem_singleton.mp h
    simp [Statement.pieces]
  | .block _ _ body => simp [Statement.pieces,Block.ident_mem body h]
  | .printText _ | .printValue _ | .label _ | .goto _ => cases h

theorem Block.ident_mem (b : List Statement) {n : List Char} (h : n ∈ Block.targets b) :
    ident n ∈ Block.pieces b := by
  match b with
  | [] => cases h
  | s :: b =>
    rcases List.mem_append.mp h with h | h
    · exact List.mem_append_left _ (s.ident_mem h)
    · exact List.mem_append_right _ (Block.ident_mem b h)

end

/-- A whole program is read back from its translation. -/
theorem Block.decompiles_translation (b : Block) (hw : ∀ p ∈ b.program, p.WellFormed)
    (hn : ∀ n ∈ Block.targets b, isReserved .variable (encode n) = false) :
    Decompiles [] (b.translation.drop prologue.length) (b.program.map Piece.normal) := by
  have hb : ∀ p ∈ Block.pieces b, p.WellFormed := fun p hp => hw p (List.mem_append_left _ hp)
  have hd : ∀ n ∈ (Block.targets b).eraseDups, IsWord n := fun n h =>
    (hb _ (Block.ident_mem b (List.mem_eraseDups.mp h))).1
  have he : Decompiles [] epilogue [eof] := .done line_epilogue
  have h := decompiles_declarations hd (Block.decompiles b hb hn he)
  rw [Block.program,List.map_append]
  simp only [Block.translation,List.append_assoc,List.drop_left]
  exact h

end Ast

end Runs

/-- The variables of a program have names that C leaves free. -/
theorem WellNamed.targets_allowed {b : Block} (hn : WellNamed (events (Block.pieces b))) :
    ∀ n ∈ Block.targets b, isReserved .variable (encode n) = false := by
  intro n hm
  refine hn.variables_allowed _ ?_
  rw [← mem_assigned,Block.assigned_events]
  exact List.mem_map_of_mem hm

theorem Spells.decompiles {src : Bytes} {us : List Token} {b : Block} (h : Spells us b)
    (hi : (streamOf src).items = us.map .ok) (hn : WellNamed (events (Block.pieces b))) :
    Decompiles [] (b.translation.drop prologue.length) (b.program.map Piece.normal) :=
  b.decompiles_translation (h.wellFormed hi) hn.targets_allowed

/-- Sources with the same text have the same tokens, up to blank lines and the zeros in front of
numbers. -/
theorem squeeze_eq_of_compileText_eq {src src' text : Bytes} (h : (compileText src).2 = .ok text)
    (h' : (compileText src').2 = .ok text) : ∃ tokens tokens',
    (TokenStream.ofChars (decode (preprocess src))).upToFault = (tokens,none) ∧
      (TokenStream.ofChars (decode (preprocess src'))).upToFault = (tokens',none) ∧
      (squeeze (tokens.map Token.piece)).map Piece.normal =
        (squeeze (tokens'.map Token.piece)).map Piece.normal := by
  obtain ⟨us,b,hi,hs,hn,rfl⟩ := compileText_ok_iff.mp h
  obtain ⟨us',b',hi',hs',hn',ht⟩ := compileText_ok_iff.mp h'
  refine ⟨_,_,TokenStream.upToFault_eq_none.mpr ⟨us,hi,rfl⟩,
    TokenStream.upToFault_eq_none.mpr ⟨us',hi',rfl⟩,?_⟩
  have hd := hs.decompiles hi hn
  rw [encode_injective ht] at hd
  rw [hs.squeeze_eq (endToken_piece _),hs'.squeeze_eq (endToken_piece _)]
  exact hd.unique (hs'.decompiles hi' hn')

/-- One program in two layouts, and with its number in two spellings. -/
theorem squeeze_eq_of_layouts :
    let src : Bytes := "LET a = 7\nPRINT a"
    let src' : Bytes := "\n\nLET a=007 # seven\n\nPRINT  a\n"
    let text : Bytes := "#include <stdio.h>\nint main(void)\x7b\nfloat a;\na = 7;\n" ++
      "printf(\"%.2f\\n\", (float)(a));\nreturn 0;\n\x7d\n"
    (compileText src).2 = .ok text ∧ (compileText src').2 = .ok text ∧ ∃ tokens tokens',
      (TokenStream.ofChars (decode (preprocess src))).upToFault = (tokens,none) ∧
        (TokenStream.ofChars (decode (preprocess src'))).upToFault = (tokens',none) ∧
        (squeeze (tokens.map Token.piece)).map Piece.normal =
          (squeeze (tokens'.map Token.piece)).map Piece.normal := by
  intro src src' text
  have h : (compileText src).2 = .ok text := ok_of_toOption (by decide +kernel)
  have h' : (compileText src').2 = .ok text := ok_of_toOption (by decide +kernel)
  exact ⟨h,h',squeeze_eq_of_compileText_eq h h'⟩

end TeenyTiny
