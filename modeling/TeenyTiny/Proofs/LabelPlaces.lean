import TeenyTiny.Proofs.ProgramLines
import TeenyTiny.Proofs.Translation

/-! Where labels stand. C wants a statement behind a label. The end of the program gives one to a
label that nothing follows, but the end of a block does not: a label that is the last statement of
its block stands directly in front of a closing brace. -/
namespace TeenyTiny
open Text Piece Ast Lexer Generator

namespace C

/-- Words that begin a declaration. -/
def typeWords : List (List Char) := ["float".toList,"int".toList]

/-- A statement begins with a word that is no type, a brace or a semicolon. -/
def startsStatement (line : List Char) : Bool :=
  if line.takeWhile isNameChar = [] then line.head?.any "\x7b;".toList.contains
  else !typeWords.contains (line.takeWhile isNameChar)

def isLabel (line : List Char) : Bool := (label? line).isSome

/-- Every label is followed, behind the labels next to it, by a line of this kind. -/
def LabelsBefore (follows : List Char → Bool) (lines : List (List Char)) : Prop :=
  ∀ before label behind, lines = before ++ label :: behind → isLabel label = true →
    ∃ line ∈ (behind.dropWhile isLabel).head?, follows line = true

theorem labelsBefore_cons {follows : List Char → Bool} {x : List Char} {ls : List (List Char)} :
    LabelsBefore follows (x :: ls) ↔
      (isLabel x = true → ∃ l ∈ (ls.dropWhile isLabel).head?, follows l = true) ∧
        LabelsBefore follows ls := by
  constructor
  · intro h
    refine ⟨h [] x ls rfl,fun before label behind hl => h (x :: before) label behind ?_⟩
    rw [hl,List.cons_append]
  · rintro ⟨hx,h⟩ before label behind hl
    cases before with
    | nil =>
      obtain ⟨rfl,rfl⟩ := List.cons_eq_cons.mp hl
      exact hx
    | cons b before => exact h before label behind (List.cons_eq_cons.mp hl).2

theorem labelsBefore_append {follows : List Char → Bool} {hs : List (List Char)}
    (h : ∀ l ∈ hs, isLabel l = false) (ls : List (List Char)) :
    LabelsBefore follows (hs ++ ls) ↔ LabelsBefore follows ls := by
  induction hs with
  | nil => rfl
  | cons x hs ih =>
    obtain ⟨hx,hhs⟩ := List.forall_mem_cons.mp h
    rw [List.cons_append,labelsBefore_cons,ih hhs]
    simp [hx]

/-- It is enough to look at the lines that stand next to each other. -/
theorem labelsBefore_iff {follows : List Char → Bool} {ls : List (List Char)}
    (hlast : ∀ l ∈ ls.getLast?, isLabel l = false) : LabelsBefore follows ls ↔
      ls.IsChain fun x y => isLabel x = true → isLabel y = true ∨ follows y = true := by
  induction ls with
  | nil => simp [LabelsBefore]
  | cons x ls ih =>
    rw [labelsBefore_cons]
    cases ls with
    | nil =>
      have hx : isLabel x = false := hlast x rfl
      simp [hx,LabelsBefore]
    | cons y ls =>
      have ih := ih fun l hl => hlast l (by simpa using hl)
      rw [List.isChain_cons_cons,ih]
      refine and_congr_left fun hchain => ?_
      by_cases hy : isLabel y = true
      · -- the next line is a label itself, and what follows it follows both of them
        have h := ih.mpr hchain [] y ls rfl hy
        rw [List.dropWhile_cons_of_pos hy]
        exact ⟨fun _ _ => .inl hy,fun _ _ => h⟩
      · rw [List.dropWhile_cons_of_neg hy]
        simp [hy]

theorem startsStatement_word {w r : List Char} {c : Char} (hw : ∀ d ∈ w, isNameChar d = true)
    (hc : isNameChar c = false) (hne : w ≠ []) (ht : typeWords.contains w = false) :
    startsStatement (w ++ c :: r) = true := by
  rw [startsStatement,takeWhile_word hw hc,if_neg hne,ht]
  rfl

end C

namespace BodyLine

def closes : BodyLine → Bool
  | close => true
  | _ => false

/-- The variable that a line assigns. -/
def target? : BodyLine → Option (List Char)
  | formula (.assigned name) _ | zero name => some name
  | _ => none

/-- What C allows of two lines next to each other. -/
def Precedes (x y : BodyLine) : Prop := x.label?.isSome = true → y.closes = false

theorem WellFormed.isLabel_eq {l : BodyLine} (h : l.WellFormed) :
    C.isLabel l.content = l.label?.isSome := by
  rw [C.isLabel,h.shows.label]

theorem startsStatement_target {n r : List Char} {c : Char} (hw : IsWord n)
    (hc : C.isNameChar c = false) (hn : isReserved .variable (encode n) = false) :
    C.startsStatement (n ++ c :: r) = true := by
  have hf : n ≠ "float".toList := ne_of_isReserved hn (by decide)
  have hi : n ≠ "int".toList := ne_of_isReserved hn (by decide)
  refine C.startsStatement_word hw.isNameChar hc ?_ ?_
  · obtain ⟨d,ds,rfl,-⟩ := hw
    exact List.cons_ne_nil d ds
  · rw [C.typeWords,Bool.eq_false_iff]
    intro hm
    rcases List.mem_cons.mp (List.contains_iff_mem.mp hm) with hm | hm
    · exact hf hm
    · exact hi (List.mem_singleton.mp hm)

/-- All lines of a body but closing braces can stand behind a label. -/
theorem WellFormed.starts_iff {l : BodyLine} (h : l.WellFormed)
    (ht : ∀ n ∈ l.target?, isReserved .variable (encode n) = false) :
    (C.isLabel l.content = true ∨ C.startsStatement l.content = true) ↔ l.closes = false := by
  cases l with
  | formula f ps =>
    refine iff_of_true (.inr ?_) rfl
    cases f with
    | value => rfl
    | condition kind => cases kind <;> rfl
    | assigned n =>
      rw [content_assigned]
      exact startsStatement_target h.1 rfl (ht n rfl)
  | zero n => exact iff_of_true (.inr (startsStatement_target h rfl (ht n rfl))) rfl
  | label n =>
    refine iff_of_true (.inl ?_) rfl
    rw [h.isLabel_eq]
    rfl
  | close => exact iff_of_false (by decide) (by decide)
  | text | jump | read | skip | final => exact iff_of_true (.inr rfl) rfl

end BodyLine

namespace Ast

def Statement.isLabel : Statement → Bool
  | .label _ => true
  | _ => false

mutual

/-- No block in the statement ends with a label. -/
def Statement.held : Statement → Bool
  | .block _ _ body => !body.getLast?.any Statement.isLabel && Block.held body
  | _ => true

def Block.held : List Statement → Bool
  | [] => true
  | s :: rest => s.held && Block.held rest

end

theorem Block.lines_eq_flatMap (b : List Statement) :
    Block.lines b = b.flatMap Statement.lines := by
  induction b with
  | nil => rfl
  | cons s b ih => rw [Block.lines,ih,List.flatMap_cons]

/-- No statement begins with a closing brace. -/
theorem Block.closes_head (b : List Statement) :
    ∀ l ∈ (Block.lines b).head?, l.closes = false := by
  intro l hl
  cases b with
  | nil => cases hl
  | cons s b =>
    rw [Block.lines] at hl
    cases s <;> cases hl <;> rfl

theorem Statement.label_getLast (s : Statement) :
    ∃ l, s.lines.getLast? = some l ∧ l.label?.isSome = s.isLabel := by
  cases s with
  | block kind condition body =>
    refine ⟨.close,?_,rfl⟩
    rw [Statement.lines,← List.cons_append,List.getLast?_concat]
  | input | printText | printValue | label | goto | assign => exact ⟨_,rfl,rfl⟩

/-- The last line is a label when the last statement is one. -/
theorem Block.label_getLast (b : List Statement) :
    (Block.lines b).getLast?.any (·.label?.isSome) = b.getLast?.any Statement.isLabel := by
  rcases b.eq_nil_or_concat with rfl | ⟨b,s,rfl⟩
  · rfl
  · obtain ⟨l,hl,hs⟩ := s.label_getLast
    rw [List.concat_eq_append,Block.lines_eq_flatMap,List.flatMap_append,List.flatMap_singleton,
      List.getLast?_append,hl,List.getLast?_concat]
    exact hs

mutual

theorem Statement.chain_lines_iff (s : Statement) :
    s.lines.IsChain BodyLine.Precedes ↔ s.held = true := by
  match s with
  | .block kind condition body =>
    have hlast : (∀ x ∈ (Block.lines body).getLast?, ∀ y ∈ [BodyLine.close].head?, x.Precedes y) ↔
        (!(Block.lines body).getLast?.any (·.label?.isSome)) = true := by
      cases (Block.lines body).getLast? with
      | none => simp
      | some x => simp [BodyLine.Precedes,BodyLine.closes]
    have hfirst : ∀ y, BodyLine.Precedes (.formula (.condition kind) condition.pieces) y :=
      fun _ h => absurd h Bool.false_ne_true
    rw [Statement.lines,Statement.held,List.isChain_cons,List.isChain_append,
      Block.chain_lines_iff body,hlast,Block.label_getLast body,Bool.and_eq_true]
    exact ⟨fun h => ⟨h.2.2.2,h.2.1⟩,fun h => ⟨fun y _ => hfirst y,h.2,.singleton _,h.1⟩⟩
  | .input _ => simp [Statement.lines,Statement.held,BodyLine.Precedes,BodyLine.label?]
  | .printText _ | .printValue _ | .label _ | .goto _ | .assign _ _ =>
    simp [Statement.lines,Statement.held]

/-- Between two statements a label is followed by the first line of the second one, so only the
ends of blocks matter. -/
theorem Block.chain_lines_iff (b : List Statement) :
    (Block.lines b).IsChain BodyLine.Precedes ↔ Block.held b = true := by
  match b with
  | [] => simp [Block.lines,Block.held]
  | s :: b =>
    have hj := Block.closes_head b
    rw [Block.lines,Block.held,List.isChain_append,s.chain_lines_iff,Block.chain_lines_iff b,
      Bool.and_eq_true]
    exact ⟨fun h => ⟨h.1,h.2.1⟩,fun h => ⟨h.1,h.2,fun _ _ y hy _ => hj y hy⟩⟩

/-- The lines assign the variables that the program assigns. -/
theorem Statement.target_lines (s : Statement) :
    s.lines.filterMap BodyLine.target? = s.targets := by
  match s with
  | .block kind condition body =>
    rw [Statement.lines,Statement.targets,← Block.target_lines body,List.filterMap_cons,
      List.filterMap_append]
    exact List.append_nil _
  | .input _ | .printText _ | .printValue _ | .label _ | .goto _ | .assign _ _ => rfl

theorem Block.target_lines (b : List Statement) :
    (Block.lines b).filterMap BodyLine.target? = Block.targets b := by
  match b with
  | [] => rfl
  | s :: b =>
    rw [Block.lines,Block.targets,List.filterMap_append,s.target_lines,Block.target_lines b]

end

theorem Block.chain_bodyLines_iff (b : Block) :
    b.bodyLines.IsChain BodyLine.Precedes ↔ Block.held b = true := by
  rw [Block.bodyLines,List.isChain_append,Block.chain_lines_iff]
  refine ⟨fun h => h.1,fun h => ⟨h,?_,?_⟩⟩
  · exact .cons_cons (fun h => absurd h Bool.false_ne_true) (.singleton _)
  · rintro x - y hy -
    obtain rfl : BodyLine.final = y := by simpa using hy
    rfl

section Program
variable {b : Block} (hw : ∀ p ∈ b.program, p.WellFormed)
include hw

/-- The labels of the text are those of the body, and the last line of the body is none. -/
theorem Block.labelsBefore_translation (follows : List Char → Bool) :
    C.LabelsBefore follows (C.lines b.translation) ↔ b.bodyLines.IsChain fun x y =>
      x.label?.isSome = true → C.isLabel y.content = true ∨ follows y.content = true := by
  have hb := Block.wellFormed_bodyLines hw
  have hheader : ∀ l ∈ headerLines (Block.targets b).eraseDups, C.isLabel l = false :=
    headerLines_all (by decide) (by decide) fun _ => rfl
  have hlast : (b.bodyLines.map BodyLine.content).getLast? = some BodyLine.close.content := by
    rw [List.getLast?_map,Block.bodyLines,List.getLast?_append]
    rfl
  rw [Block.lines_translation hw,C.labelsBefore_append hheader,C.labelsBefore_iff,
    List.isChain_append,List.isChain_map]
  · have hiff : ∀ x y, x ∈ b.bodyLines → y ∈ b.bodyLines →
        ((C.isLabel x.content = true → C.isLabel y.content = true ∨ follows y.content = true) ↔
          (x.label?.isSome = true → C.isLabel y.content = true ∨ follows y.content = true)) := by
      intro x y hx _
      rw [(hb x hx).isLabel_eq]
    rw [List.IsChain.iff_of_mem_imp hiff]
    refine and_iff_left ⟨.singleton _,?_⟩
    intro x hx y _ hl
    obtain rfl : BodyLine.close.content = x := by simpa [hlast] using hx
    exact absurd hl (by decide)
  · intro l hl
    rw [List.getLast?_concat] at hl
    cases hl
    rfl

variable (hn : ∀ n ∈ Block.targets b, isReserved .variable (encode n) = false)
include hn

theorem Block.starts_iff {l : BodyLine} (hl : l ∈ b.bodyLines) :
    (C.isLabel l.content = true ∨ C.startsStatement l.content = true) ↔ l.closes = false := by
  refine (Block.wellFormed_bodyLines hw l hl).starts_iff fun n ht => hn n ?_
  rw [← Block.target_lines b]
  rcases List.mem_append.mp hl with hl | hl
  · exact List.mem_filterMap.mpr ⟨l,hl,ht⟩
  · simp only [List.mem_cons,List.not_mem_nil,or_false] at hl
    rcases hl with rfl | rfl <;> cases ht

/-- All labels stand in front of statements when no block ends with a label. -/
theorem Block.labelsBefore_statement :
    C.LabelsBefore C.startsStatement (C.lines b.translation) ↔ Block.held b = true := by
  rw [Block.labelsBefore_translation hw,← Block.chain_bodyLines_iff]
  refine List.IsChain.iff_of_mem_imp fun x y _ hy => ?_
  rw [Block.starts_iff hw hn hy]
  rfl

/-- Nothing but a statement or the end of a block stands behind labels. -/
theorem Block.labelsBefore_statement_or_end :
    C.LabelsBefore (fun l => C.startsStatement l || l == ['\x7d']) (C.lines b.translation) := by
  rw [Block.labelsBefore_translation hw]
  have hall : ∀ y ∈ b.bodyLines, C.isLabel y.content = true ∨
      (C.startsStatement y.content || y.content == ['\x7d']) = true := by
    intro y hy
    by_cases hc : y.closes = true
    · cases y <;> cases hc
      exact .inr rfl
    · rcases (Block.starts_iff hw hn hy).mpr (by simpa using hc) with h | h
      · exact .inl h
      · exact .inr (by rw [h,Bool.true_or])
  refine List.Pairwise.isChain (List.pairwise_of_forall_mem_list ?_)
  intro x _ y hy _
  exact hall y hy

end Program

end Ast

/-- Behind a label stands the beginning of a statement or the closing brace of a block; it is a
statement for all labels exactly when no block of the program ends with a label. -/
theorem labels_before_statements_iff {src text : Bytes} (h : (compileText src).2 = .ok text) :
    ∃ tokens, (TokenStream.ofChars (decode (preprocess src))).upToFault = (tokens,none) ∧
      ∃ P : Block, P.program = squeeze (tokens.map Token.piece) ∧
        C.LabelsBefore (fun l => C.startsStatement l || l == ['\x7d']) (C.lines (decode text)) ∧
        (C.LabelsBefore C.startsStatement (C.lines (decode text)) ↔ Block.held P = true) := by
  obtain ⟨us,b,hi,hs,hn,rfl⟩ := compileText_ok_iff.mp h
  have hw := hs.wellFormed hi
  have hv := hn.targets_allowed
  rw [decode_encode]
  exact ⟨_,TokenStream.upToFault_eq_none.mpr ⟨us,hi,rfl⟩,b,
    (hs.squeeze_eq (endToken_piece _)).symm,Block.labelsBefore_statement_or_end hw hv,
    Block.labelsBefore_statement hw hv⟩

/-- Two labels in a loop and one at the end of the program. -/
theorem labels_before_statements_of_loop :
    let src : Bytes := "WHILE 1 > 2 REPEAT\nLABEL a\nLABEL b\nPRINT 1\nENDWHILE\nLABEL c"
    let text : Bytes := "#include <stdio.h>\nint main(void)\x7b\nwhile(1>2)\x7b\na:\nb:\n" ++
      "printf(\"%.2f\\n\", (float)(1));\n\x7d\nc:\nreturn 0;\n\x7d\n"
    (compileText src).2 = .ok text ∧
      ∃ tokens, (TokenStream.ofChars (decode (preprocess src))).upToFault = (tokens,none) ∧
        ∃ P : Block, P.program = squeeze (tokens.map Token.piece) ∧
          C.LabelsBefore (fun l => C.startsStatement l || l == ['\x7d']) (C.lines (decode text)) ∧
          (C.LabelsBefore C.startsStatement (C.lines (decode text)) ↔ Block.held P = true) := by
  intro src text
  have h : (compileText src).2 = .ok text := ok_of_toOption (by decide +kernel)
  exact ⟨h,labels_before_statements_iff h⟩

/-- A block that ends with a label. -/
theorem label_before_closing_brace :
    let src : Bytes := "IF 1 == 1 THEN\nLABEL x\nENDIF\n"
    let text : Bytes := "#include <stdio.h>\nint main(void)\x7b\nif(1==1)\x7b\nx:\n\x7d\n" ++
      "return 0;\n\x7d\n"
    (compileText src).2 = .ok text ∧
      ¬ C.LabelsBefore C.startsStatement (C.lines (decode text)) := by
  intro src text
  refine ⟨ok_of_toOption (by decide +kernel),fun h => ?_⟩
  have hlines : C.lines (decode text) = ["#include <stdio.h>".toList,"int main(void)\x7b".toList,
      "if(1==1)\x7b".toList] ++ "x:".toList :: (['\x7d'] :: ["return 0;".toList,['\x7d'],[]]) := by
    decide +kernel
  obtain ⟨l,hl,hs⟩ := h _ _ _ hlines rfl
  rw [List.dropWhile_cons_of_neg (by decide)] at hl
  cases hl
  exact absurd hs (by decide)

end TeenyTiny
