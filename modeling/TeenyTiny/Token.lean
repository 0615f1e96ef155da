import TeenyTiny.Text.Layout
import TeenyTiny.Text.Quoted

/-! Tokens of the Teeny Tiny language: their kinds, spellings and printed form. -/
namespace TeenyTiny
open Text

inductive Keyword where
  | label | goto | print | input | let_ | if_ | then_ | endif | while_ | repeat_ | endwhile
  deriving DecidableEq, Repr

namespace Keyword

def spelling : Keyword → String
  | label => "LABEL"
  | goto => "GOTO"
  | print => "PRINT"
  | input => "INPUT"
  | let_ => "LET"
  | if_ => "IF"
  | then_ => "THEN"
  | endif => "ENDIF"
  | while_ => "WHILE"
  | repeat_ => "REPEAT"
  | endwhile => "ENDWHILE"

def all : List Keyword :=
  [label,goto,print,input,let_,if_,then_,endif,while_,repeat_,endwhile]

/-- The keywords with their characters. -/
def spelled : List (List Char × Keyword) := all.map fun k => (k.spelling.toList,k)

/-- The keyword with exactly this spelling; case matters. -/
def ofChars? (cs : List Char) : Option Keyword := (spelled.find? (·.1 == cs)).map (·.2)

end Keyword

inductive Comparison where
  | eq | ne | lt | le | gt | ge
  deriving DecidableEq, Repr

namespace Comparison

def name : Comparison → String
  | eq => "EQEQ"
  | ne => "NOTEQ"
  | lt => "LT"
  | le => "LTEQ"
  | gt => "GT"
  | ge => "GTEQ"

def spelling : Comparison → String
  | eq => "=="
  | ne => "!="
  | lt => "<"
  | le => "<="
  | gt => ">"
  | ge => ">="

end Comparison

/-- What a token is. -/
inductive Kind where
  | eof | newline | number | ident | string
  | keyword (k : Keyword)
  | assign | plus | minus | times | slash
  | comparison (op : Comparison)
  deriving DecidableEq, Repr

namespace Kind

def name : Kind → String
  | eof => "EOF"
  | newline => "NEWLINE"
  | number => "NUMBER"
  | ident => "IDENT"
  | string => "STRING"
  | keyword k => k.spelling
  | assign => "EQ"
  | plus => "PLUS"
  | minus => "MINUS"
  | times => "ASTERISK"
  | slash => "SLASH"
  | comparison op => op.name

def isKeyword : Kind → Bool
  | keyword _ => true
  | _ => false

def isComparison : Kind → Bool
  | comparison _ => true
  | _ => false

/-- All kinds; the place of a kind in this list is its number. -/
def all : List Kind :=
  [eof,newline,number,ident,string] ++ Keyword.all.map keyword ++
    [assign,plus,minus,times,slash,
      comparison .eq,comparison .ne,comparison .lt,comparison .le,comparison .gt,
      comparison .ge]

def ofNumber? (n : Int) : Option Kind := if n < 0 then none else all[n.toNat]?

/-- The name of the kind with this number, also for a number that no kind has. -/
def nameOfNumber (n : Int) : Bytes :=
  match ofNumber? n with
  | some kind => kind.name
  | none => "TokenType(" ++ decimal n ++ ")"

/-- The kind of a word: its keyword if it is one, else an identifier. -/
def ofWord (cs : List Char) : Kind :=
  match Keyword.ofChars? cs with
  | some k => keyword k
  | none => ident

end Kind

/-- A token with its source text, without the quotes of a string, and its 1-based line. -/
structure Token where
  kind : Kind
  lexeme : List Char
  line : Nat
  deriving DecidableEq, Repr

namespace Token

def text (t : Token) : Bytes := encode t.lexeme

/-- A line of a token listing. -/
def listingLine (kind lexeme : Bytes) (line : Int) : Bytes :=
  padTo 10 kind ++ " " ++ padTo 14 (quoted lexeme) ++ "  line " ++ decimal line

def describe (t : Token) : Bytes := listingLine t.kind.name t.text t.line

end Token
end TeenyTiny
