import Mathlib.Tactic.Simps.Basic
import TeenyTiny.Generator
import TeenyTiny.Proofs.Piece

/-! Syntax trees of programs, with two readings: the pieces that a tree spells, where one line
feed ends a line, and the C text that it stands for. -/
namespace TeenyTiny

namespace Piece

@[simps] def keyword (k : Keyword) : Piece := ⟨.keyword k,k.spelling.toList⟩
@[simps] def newline : Piece := ⟨.newline,['\n']⟩
@[simps] def eof : Piece := ⟨.eof,[]⟩
@[simps] def assign : Piece := ⟨.assign,['=']⟩
@[simps] def comparison (op : Comparison) : Piece := ⟨.comparison op,op.spelling.toList⟩
@[simps] def number (lexeme : List Char) : Piece := ⟨.number,lexeme⟩
@[simps] def ident (name : List Char) : Piece := ⟨.ident,name⟩
@[simps] def string (text : List Char) : Piece := ⟨.string,text⟩

/-- The lexeme, in the form that C reads as the same number. -/
def code (p : Piece) : List Char :=
  if p.kind = .number then Generator.cNumber p.lexeme else p.lexeme

end Piece

/-- A number stays one without its leading zeros. -/
theorem IsNumber.cNumber {cs : List Char} (h : IsNumber cs) : IsNumber (Generator.cNumber cs) := by
  have hdot : ∀ {ds : List Char}, (∀ d ∈ ds, d.isDigit) → '.' ∉ ds := by
    intro ds hd hm
    cases hd '.' hm
  have hsub : ∀ {ds : List Char}, (∀ d ∈ ds, d.isDigit) → ∀ d ∈ ds.dropWhile (· = '0'), d.isDigit :=
    fun hd d hm => hd d (List.dropWhile_sublist _ |>.subset hm)
  unfold Generator.cNumber
  cases h with
  | whole hd h =>
    cases hz : cs.dropWhile (· = '0') with
    | nil => exact .whole (by simp) (by simp)
    | cons c rest =>
      have hs := hsub h
      rw [hz] at hs
      have hc : c ≠ '.' := fun he => hdot hs (by simp [he])
      simp only [hc,if_false]
      exact .whole (by simp) hs
  | @pointed ds fs hd h hf h' =>
    rw [List.dropWhile_append]
    cases hz : ds.dropWhile (· = '0') with
    | nil =>
      change IsNumber (['0'] ++ '.' :: fs)
      exact .pointed (by simp) (by simp) hf h'
    | cons c rest =>
      have hs := hsub h
      rw [hz] at hs
      have hc : c ≠ '.' := fun he => hdot hs (by simp [he])
      simp only [List.isEmpty_cons,Bool.false_eq_true,if_false,List.cons_append,hc]
      rw [← List.cons_append]
      exact .pointed (by simp) hs hf h'

/-- Kinds of the tokens that comparisons and expressions are made of. -/
def Kind.isCopied : Kind → Bool
  | number | ident | plus | minus | times | slash | comparison _ => true
  | _ => false

/-- Pieces of an expression as C text: one after the other, with nothing between them. -/
def copied (ps : List Piece) : List Char := ps.flatMap Piece.code

@[simp] theorem copied_nil : copied [] = [] := rfl

@[simp] theorem copied_cons (p : Piece) (ps : List Piece) :
    copied (p :: ps) = p.code ++ copied ps := rfl

@[simp] theorem copied_append (ps qs : List Piece) :
    copied (ps ++ qs) = copied ps ++ copied qs := by simp [copied]

namespace Ast

inductive Primary where
  | number (lexeme : List Char)
  | ident (name : List Char)
  deriving DecidableEq, Repr

def Primary.piece : Primary → Piece
  | number lexeme => .number lexeme
  | ident name => .ident name

inductive Sign where
  | plus | minus
  deriving DecidableEq, Repr

def Sign.piece : Sign → Piece
  | plus => ⟨.plus,['+']⟩
  | minus => ⟨.minus,['-']⟩

inductive Scaling where
  | times | slash
  deriving DecidableEq, Repr

def Scaling.piece : Scaling → Piece
  | times => ⟨.times,['*']⟩
  | slash => ⟨.slash,['/']⟩

structure Unary where
  sign : Option Sign
  primary : Primary
  deriving DecidableEq, Repr

def Unary.pieces (u : Unary) : List Piece := u.sign.toList.map Sign.piece ++ [u.primary.piece]

/-- Members with an operator before each of them but the first. -/
structure Chain (Op Member : Type) where
  first : Member
  rest : List (Op × Member)
  deriving DecidableEq, Repr

namespace Chain
variable {Op Member : Type} (op : Op → Piece) (member : Member → List Piece)

def tail (rest : List (Op × Member)) : List Piece := rest.flatMap fun x => op x.1 :: member x.2

def pieces (c : Chain Op Member) : List Piece := member c.first ++ tail op member c.rest

@[simp] theorem tail_nil : tail op member [] = [] := rfl

@[simp] theorem tail_cons (x : Op × Member) (rest : List (Op × Member)) :
    tail op member (x :: rest) = op x.1 :: (member x.2 ++ tail op member rest) := rfl

end Chain

def Term : Type := Chain Scaling Unary
def Term.pieces : Term → List Piece := Chain.pieces Scaling.piece Unary.pieces

def Expression : Type := Chain Sign Term
def Expression.pieces : Expression → List Piece := Chain.pieces Sign.piece Term.pieces

/-- A chain of expressions with at least one comparison. -/
structure Condition where
  chain : Chain Comparison Expression
  compared : chain.rest ≠ []

def Condition.pieces (c : Condition) : List Piece :=
  c.chain.pieces Piece.comparison Expression.pieces

theorem Primary.isCopied (p : Primary) : p.piece.kind.isCopied := by
  cases p <;> rfl

theorem Sign.isCopied (s : Sign) : s.piece.kind.isCopied := by
  cases s <;> rfl

theorem Scaling.isCopied (s : Scaling) : s.piece.kind.isCopied := by
  cases s <;> rfl

theorem Unary.isCopied (u : Unary) : ∀ p ∈ u.pieces, p.kind.isCopied := by
  obtain ⟨_ | sign,primary⟩ := u
  · simpa [pieces] using primary.isCopied
  · simpa [pieces] using ⟨sign.isCopied,primary.isCopied⟩

theorem Chain.isCopied {Op Member : Type} {op : Op → Piece} {member : Member → List Piece}
    (hop : ∀ o, (op o).kind.isCopied) (hm : ∀ m, ∀ p ∈ member m, p.kind.isCopied)
    (c : Chain Op Member) : ∀ p ∈ c.pieces op member, p.kind.isCopied := by
  intro p hp
  rcases List.mem_append.mp hp with hp | hp
  · exact hm _ p hp
  · obtain ⟨x,-,hx⟩ := List.mem_flatMap.mp hp
    rcases List.mem_cons.mp hx with rfl | hx
    · exact hop _
    · exact hm _ p hx

theorem Term.isCopied (t : Term) : ∀ p ∈ t.pieces, p.kind.isCopied :=
  Chain.isCopied Scaling.isCopied Unary.isCopied t

theorem Expression.isCopied (e : Expression) : ∀ p ∈ e.pieces, p.kind.isCopied :=
  Chain.isCopied Sign.isCopied Term.isCopied e

theorem Condition.isCopied (c : Condition) : ∀ p ∈ c.pieces, p.kind.isCopied :=
  Chain.isCopied (fun _ => rfl) Expression.isCopied c.chain

inductive BlockKind where
  | conditional | loop
  deriving DecidableEq, Repr

namespace BlockKind

def start : BlockKind → Keyword
  | conditional => .if_
  | loop => .while_

def opener : BlockKind → Keyword
  | conditional => .then_
  | loop => .repeat_

def closer : BlockKind → Keyword
  | conditional => .endif
  | loop => .endwhile

def code : BlockKind → List Char
  | conditional => "if(".toList
  | loop => "while(".toList

end BlockKind

inductive Statement where
  | printText (text : List Char)
  | printValue (value : Expression)
  | block (kind : BlockKind) (condition : Condition) (body : List Statement)
  | label (name : List Char)
  | goto (name : List Char)
  | assign (name : List Char) (value : Expression)
  | input (name : List Char)

abbrev Block := List Statement

mutual

def Statement.pieces : Statement → List Piece
  | .printText text => [.keyword .print,.string text,.newline]
  | .printValue value => .keyword .print :: (value.pieces ++ [.newline])
  | .block kind condition body =>
    .keyword kind.start :: (condition.pieces ++ .keyword kind.opener :: .newline ::
      (Block.pieces body ++ [.keyword kind.closer,.newline]))
  | .label name => [.keyword .label,.ident name,.newline]
  | .goto name => [.keyword .goto,.ident name,.newline]
  | .assign name value =>
    .keyword .let_ :: .ident name :: .assign :: (value.pieces ++ [.newline])
  | .input name => [.keyword .input,.ident name,.newline]

def Block.pieces : List Statement → List Piece
  | [] => []
  | s :: rest => s.pieces ++ Block.pieces rest

end

/-- The pieces of a whole program. -/
def Block.program (b : Block) : List Piece := Block.pieces b ++ [.eof]

/-! The C text of each kind of statement. Its fixed parts have names, so that proofs can keep
them folded. -/
namespace Code

def textStart : List Char := "printf(\"".toList
def textEnd : List Char := "\\n\");\n".toList
def valueStart : List Char := "printf(\"%.2f\\n\", (float)(".toList
def valueEnd : List Char := "));\n".toList
def bodyStart : List Char := ")\x7b\n".toList
def bodyEnd : List Char := "\x7d\n".toList
def colon : List Char := ":\n".toList
def jump : List Char := "goto ".toList
def equals : List Char := " = ".toList
def semicolon : List Char := ";\n".toList
def readStart : List Char := "if(0 == scanf(\"%f\", &".toList
def readEnd : List Char := ")) \x7b\n".toList
def zero : List Char := " = 0;\n".toList
def skipWord : List Char := "scanf(\"%*s\");\n".toList

def printText (text : List Char) : List Char := textStart ++ text ++ textEnd

def printValue (value : List Char) : List Char := valueStart ++ value ++ valueEnd

def block (kind : BlockKind) (condition body : List Char) : List Char :=
  kind.code ++ condition ++ bodyStart ++ body ++ bodyEnd

def label (name : List Char) : List Char := name ++ colon

def goto (name : List Char) : List Char := jump ++ name ++ semicolon

def assign (name value : List Char) : List Char := name ++ equals ++ value ++ semicolon

/-- A failed read makes the variable zero and passes the word in the way. -/
def input (name : List Char) : List Char :=
  readStart ++ name ++ readEnd ++ (name ++ zero) ++ skipWord ++ bodyEnd

end Code

mutual

def Statement.code : Statement → List Char
  | .printText text => Code.printText text
  | .printValue value => Code.printValue (copied value.pieces)
  | .block kind condition body => Code.block kind (copied condition.pieces) (Block.code body)
  | .label name => Code.label name
  | .goto name => Code.goto name
  | .assign name value => Code.assign name (copied value.pieces)
  | .input name => Code.input name

def Block.code : List Statement → List Char
  | [] => []
  | s :: rest => s.code ++ Block.code rest

end

mutual

/-- The variables that are assigned, in the order of the assignments. -/
def Statement.targets : Statement → List (List Char)
  | .assign name _ | .input name => [name]
  | .block _ _ body => Block.targets body
  | _ => []

def Block.targets : List Statement → List (List Char)
  | [] => []
  | s :: rest => s.targets ++ Block.targets rest

end

def prologue : List Char := "#include <stdio.h>\n".toList ++ "int main(void)\x7b\n".toList

def declaration (name : List Char) : List Char := "float ".toList ++ name ++ ";\n".toList

def epilogue : List Char := "return 0;\n".toList ++ "\x7d\n".toList

/-- The C program: every variable is declared once, in the order of the first assignments. -/
def Block.translation (b : Block) : List Char :=
  prologue ++ (Block.targets b).eraseDups.flatMap declaration ++ Block.code b ++ epilogue

end Ast
end TeenyTiny
