import TeenyTiny.Proofs.Decompile
import TeenyTiny.Proofs.Lines

/-! The text of a whole program, line by line. Each statement stands on lines of its own, and the
header is one line for every variable behind its two first lines. -/
namespace TeenyTiny
open Text Piece Ast Lexer

namespace Ast

mutual

/-- The lines of a statement, in their order. -/
def Statement.lines : Statement → List BodyLine
  | .printText text => [.text text]
  | .printValue value => [.formula .value value.pieces]
  | .block kind condition body =>
    .formula (.condition kind) condition.pieces :: (Block.lines body ++ [.close])
  | .label name => [.label name]
  | .goto name => [.jump name]
  | .assign name value => [.formula (.assigned name) value.pieces]
  | .input name => [.read name,.zero name,.skip,.close]

def Block.lines : List Statement → List BodyLine
  | [] => []
  | s :: rest => s.lines ++ Block.lines rest

end

mutual

theorem Statement.code_eq (s : Statement) : s.code = s.lines.flatMap BodyLine.code := by
  match s with
  | .printText text =>
    have h : (BodyLine.text text).code = Code.printText text := List.append_assoc _ _ _
    simp [Statement.lines,Statement.code,h]
  | .printValue value =>
    have h : (BodyLine.formula .value value.pieces).code = Code.printValue (copied value.pieces) :=
      BodyLine.code_formula _ _
    simp [Statement.lines,Statement.code,h]
  | .block kind condition body =>
    have h : (BodyLine.formula (.condition kind) condition.pieces).code =
        kind.code ++ copied condition.pieces ++ Code.bodyStart := BodyLine.code_formula _ _
    have hc : BodyLine.close.code = Code.bodyEnd := rfl
    simp [Statement.lines,Statement.code,Code.block,h,hc,Block.code_eq body]
  | .label name =>
    have h : (BodyLine.label name).code = Code.label name := List.append_assoc _ _ _
    simp [Statement.lines,Statement.code,h]
  | .goto name =>
    have h : (BodyLine.jump name).code = Code.goto name := List.append_assoc _ _ _
    simp [Statement.lines,Statement.code,h]
  | .assign name value =>
    have h : (BodyLine.formula (.assigned name) value.pieces).code =
        Code.assign name (copied value.pieces) := BodyLine.code_formula _ _
    simp [Statement.lines,Statement.code,h]
  | .input name =>
    have hr : (BodyLine.read name).code = Code.readStart ++ name ++ Code.readEnd :=
      List.append_assoc _ _ _
    have hz : (BodyLine.zero name).code = name ++ Code.zero := List.append_assoc _ _ _
    have hs : BodyLine.skip.code = Code.skipWord := rfl
    have hc : BodyLine.close.code = Code.bodyEnd := rfl
    simp [Statement.lines,Statement.code,Code.input,hr,hz,hs,hc]

theorem Block.code_eq (b : List Statement) :
    Block.code b = (Block.lines b).flatMap BodyLine.code := by
  match b with
  | [] => rfl
  | s :: b => rw [Block.code,Block.lines,List.flatMap_append,s.code_eq,Block.code_eq b]

end

/-- In an expression operands stand apart. -/
theorem legible_of_joined {ps : List Piece} (hw : ∀ p ∈ ps, p.WellFormed)
    (hc : ∀ p ∈ ps, p.kind.isCopied = true) (hj : Joined ps) : Legible ps :=
  ⟨hw,hc,hj.chain.imp fun _ _ h => h.behind_operand⟩

mutual

theorem Statement.wellFormed_lines (s : Statement) (hw : ∀ p ∈ s.pieces, p.WellFormed) :
    ∀ l ∈ s.lines, l.WellFormed := by
  match s with
  | .printText text =>
    have ht : (string text).WellFormed := hw _ (by simp [Statement.pieces])
    exact List.forall_mem_singleton.mpr ht
  | .printValue value =>
    have hv := legible_of_joined (fun p hp => hw p (by simp [Statement.pieces,hp])) value.isCopied
      value.joined
    exact List.forall_mem_singleton.mpr ⟨trivial,hv⟩
  | .block kind condition body =>
    have hc := legible_of_joined (fun p hp => hw p (by simp [Statement.pieces,hp]))
      condition.isCopied condition.joined
    have hb := Block.wellFormed_lines body fun p hp => hw p (by simp [Statement.pieces,hp])
    refine List.forall_mem_cons.mpr ⟨⟨trivial,hc⟩,List.forall_mem_append.mpr ⟨hb,?_⟩⟩
    exact List.forall_mem_singleton.mpr trivial
  | .label name | .goto name =>
    have hi : (ident name).WellFormed := hw _ (by simp [Statement.pieces])
    exact List.forall_mem_singleton.mpr hi.1
  | .assign name value =>
    have hi : (ident name).WellFormed := hw _ (by simp [Statement.pieces])
    have hv := legible_of_joined (fun p hp => hw p (by simp [Statement.pieces,hp])) value.isCopied
      value.joined
    exact List.forall_mem_singleton.mpr ⟨hi.1,hv⟩
  | .input name =>
    have hi : (ident name).WellFormed := hw _ (by simp [Statement.pieces])
    intro l hl
    simp only [Statement.lines,List.mem_cons,List.not_mem_nil,or_false] at hl
    rcases hl with rfl | rfl | rfl | rfl
    · exact hi.1
    · exact hi.1
    · trivial
    · trivial

theorem Block.wellFormed_lines (b : List Statement) (hw : ∀ p ∈ Block.pieces b, p.WellFormed) :
    ∀ l ∈ Block.lines b, l.WellFormed := by
  match b with
  | [] => simp [Block.lines]
  | s :: b =>
    refine List.forall_mem_append.mpr ⟨s.wellFormed_lines fun p hp => hw p ?_,
      Block.wellFormed_lines b fun p hp => hw p ?_⟩
    · exact List.mem_append_left _ hp
    · exact List.mem_append_right _ hp

end

/-- The lines above the statements. -/
def headerLines (names : List (List Char)) : List (List Char) :=
  "#include <stdio.h>".toList :: "int main(void)\x7b".toList ::
    names.map fun n => "float ".toList ++ n ++ [';']

theorem headerLines_all {p : List Char → Bool} (hfirst : p "#include <stdio.h>".toList = false)
    (hmain : p "int main(void)\x7b".toList = false)
    (hname : ∀ n, p ("float ".toList ++ n ++ [';']) = false) {names : List (List Char)} :
    ∀ l ∈ headerLines names, p l = false := by
  intro l hl
  simp only [headerLines,List.mem_cons,List.mem_map] at hl
  rcases hl with rfl | rfl | ⟨n,-,rfl⟩
  · exact hfirst
  · exact hmain
  · exact hname n

/-- The lines of a block and of the end behind it. -/
def Block.bodyLines (b : Block) : List BodyLine := Block.lines b ++ [.final,.close]

theorem Block.wellFormed_bodyLines {b : Block} (hw : ∀ p ∈ b.program, p.WellFormed) :
    ∀ l ∈ b.bodyLines, l.WellFormed := by
  refine List.forall_mem_append.mpr ⟨Block.wellFormed_lines b fun p hp => hw p ?_,?_⟩
  · exact List.mem_append_left _ hp
  · simp [BodyLine.WellFormed]

theorem lines_declarations {names : List (List Char)} (hn : ∀ n ∈ names, IsWord n)
    (r : List Char) : C.lines (names.flatMap declaration ++ r) =
      (names.map fun n => "float ".toList ++ n ++ [';']) ++ C.lines r := by
  induction names with
  | nil => rfl
  | cons n names ih =>
    obtain ⟨hw,hns⟩ := List.forall_mem_cons.mp hn
    have hd : (n :: names).flatMap declaration ++ r =
        ("float ".toList ++ n ++ [';']) ++ '\n' :: (names.flatMap declaration ++ r) := by
      have he : declaration n = ("float ".toList ++ n ++ [';']) ++ ['\n'] :=
        (List.append_assoc _ [';'] ['\n']).symm
      rw [List.flatMap_cons,he,List.append_assoc,List.append_assoc]
      rfl
    have hf : '\n' ∉ "float ".toList ++ n ++ [';'] :=
      List.not_mem_append (List.not_mem_append (by decide) (BodyLine.not_mem_word hw)) (by decide)
    rw [hd,C.lines_append_feed hf,ih hns,List.map_cons,List.cons_append]

/-- The lines of the C program: the header, the statements, and nothing behind the last feed. -/
theorem Block.lines_translation {b : Block} (hw : ∀ p ∈ b.program, p.WellFormed) :
    C.lines b.translation = headerLines (Block.targets b).eraseDups ++
      (b.bodyLines.map BodyLine.content ++ [[]]) := by
  have hn : ∀ n ∈ (Block.targets b).eraseDups, IsWord n := fun n h =>
    (hw _ (List.mem_append_left _ (Block.ident_mem b (List.mem_eraseDups.mp h)))).1
  have ht : b.translation = "#include <stdio.h>".toList ++ '\n' :: ("int main(void)\x7b".toList ++
      '\n' :: ((Block.targets b).eraseDups.flatMap declaration ++
        (b.bodyLines.flatMap BodyLine.code ++ []))) := by
    have he : epilogue = [BodyLine.final,.close].flatMap BodyLine.code := rfl
    have hp : prologue = "#include <stdio.h>".toList ++ '\n' :: ("int main(void)\x7b".toList ++
      ['\n']) := by decide
    rw [Block.translation,Block.code_eq,he,hp,Block.bodyLines,List.flatMap_append]
    simp only [List.append_assoc,List.cons_append,List.nil_append,List.append_nil]
  rw [ht,C.lines_append_feed (by decide),C.lines_append_feed (by decide),lines_declarations hn,
    lines_eq (Block.wellFormed_bodyLines hw) List.not_mem_nil]
  rfl

end Ast
end TeenyTiny
