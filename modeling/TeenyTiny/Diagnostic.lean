import TeenyTiny.Token

/-! What can be wrong with a program, and how it is reported. -/
namespace TeenyTiny
open Text

inductive LexicalCause where
  | unexpectedChar (c : Char)
  | illegalInString (c : Char)
  | unterminatedString
  /-- No digit after a decimal point, with the character found there. -/
  | missingFraction (found : Option Char)
  /-- An exclamation mark without an equals sign, with the character found there. -/
  | loneBang (found : Option Char)
  deriving DecidableEq, Repr

inductive GrammarCause where
  | expected (wanted found : Kind) (text : Bytes)
  | unclosedBlock (wanted : Kind)
  | invalidStatement (found : Kind) (text : Bytes)
  | missingComparison (found : Kind) (text : Bytes)
  | invalidOperand (found : Kind) (text : Bytes)
  | keywordAsName (text : Bytes)
  deriving DecidableEq, Repr

inductive NameCause where
  | duplicateLabel (name : Bytes) (firstLine : Int)
  | undeclaredLabel (name : Bytes)
  | undeclaredVariable (name : Bytes)
  | reservedName (name : Bytes)
  deriving DecidableEq, Repr

inductive Cause where
  | lexical (cause : LexicalCause)
  | grammar (cause : GrammarCause)
  | name (cause : NameCause)
  deriving DecidableEq, Repr

/-- The rules on names that a program can break. -/
inductive NameRule where
  | labelOnce | labelDeclared | variableAssigned | notReserved
  deriving DecidableEq, Repr

inductive ErrorKind where
  | lexical | syntactic | semantic
  deriving DecidableEq, Repr

def ErrorKind.title : ErrorKind → String
  | lexical => "lexical error"
  | syntactic => "syntax error"
  | semantic => "semantic error"

def ErrorKind.ofNumber? (n : Int) : Option ErrorKind :=
  if n = 0 then some lexical else if n = 1 then some syntactic
  else if n = 2 then some semantic else none

/-- The title of the kind with this number, also for a number that no kind has. -/
def ErrorKind.titleOfNumber (n : Int) : Bytes :=
  match ofNumber? n with
  | some kind => kind.title
  | none => "ErrorKind(" ++ decimal n ++ ")"

def LexicalCause.message : LexicalCause → Bytes
  | unexpectedChar c => "unexpected character " ++ quotedChar c
  | illegalInString c => "illegal character " ++ quotedChar c ++ " in string"
  | unterminatedString => "unterminated string literal"
  | missingFraction none => "expected digit after decimal point, got end of input"
  | missingFraction (some c) => "expected digit after decimal point, got " ++ quotedChar c
  | loneBang none => "expected != but found '!' at end of input"
  | loneBang (some c) => "expected != but found '!' followed by " ++ quotedChar c

/-- A kind with the text of the token that has it. -/
def Kind.withText (kind : Kind) (text : Bytes) : Bytes :=
  kind.name ++ " (" ++ quoted text ++ ")"

def GrammarCause.message : GrammarCause → Bytes
  | expected wanted found text =>
    "expected " ++ wanted.name ++ ", got " ++ found.withText text
  | unclosedBlock wanted => "expected " ++ wanted.name ++ ", got EOF"
  | invalidStatement found text => "invalid statement at " ++ found.withText text
  | missingComparison found text =>
    "expected comparison operator, got " ++ found.withText text
  | invalidOperand found text =>
    "unexpected token " ++ found.withText text ++ " in expression"
  | keywordAsName text => "keyword " ++ text ++ " cannot be used as a name"

def NameCause.message : NameCause → Bytes
  | duplicateLabel name firstLine =>
    "label already exists: " ++ quoted name ++ " (first declared on line " ++
      decimal firstLine ++ ")"
  | undeclaredLabel name => "goto to undeclared label " ++ quoted name
  | undeclaredVariable name => "variable used before assignment: " ++ quoted name
  | reservedName name => "name is reserved in C: " ++ quoted name

namespace Cause

def kind : Cause → ErrorKind
  | lexical _ => .lexical
  | grammar _ => .syntactic
  | name _ => .semantic

/-- The rule that is broken, if it is one on names. -/
def rule? : Cause → Option NameRule
  | name (.duplicateLabel _ _) => some .labelOnce
  | name (.undeclaredLabel _) => some .labelDeclared
  | name (.undeclaredVariable _) => some .variableAssigned
  | name (.reservedName _) => some .notReserved
  | _ => none

def message : Cause → Bytes
  | lexical cause => cause.message
  | grammar cause => cause.message
  | name cause => cause.message

end Cause

/-- A cause with the line it is found on. -/
structure Fault where
  line : Int
  cause : Cause
  deriving DecidableEq, Repr

/-- A fault with the text of its line, without the blanks around it. -/
structure Diagnostic extends Fault where
  snippet : Bytes
  deriving DecidableEq, Repr

/-- A report; without a snippet it has one line. -/
def reportText (kind : Bytes) (line : Int) (message snippet : Bytes) : Bytes :=
  let report : Bytes := "line " ++ decimal line ++ ": " ++ kind ++ ": " ++ message
  if snippet = [] then report else report ++ "\n  |> " ++ snippet

def Diagnostic.text (d : Diagnostic) : Bytes :=
  reportText d.cause.kind.title d.line d.cause.message d.snippet

end TeenyTiny
