import TeenyTiny.Model.Process

/-! The language of command scripts: words that are put together from pieces, commands with
redirections, and the forms that join commands. -/
namespace TeenyTiny.Model
open Text

/-- What is done with the value of a parameter. With `evenEmpty` an empty value counts as none. -/
inductive Form where
  | plain
  | length
  | orElse (evenEmpty : Bool)
  | orAssign (evenEmpty : Bool)
  | orComplain (evenEmpty : Bool)
  | instead (evenEmpty : Bool)
  | dropEnd (isLongest : Bool)
  | dropStart (isLongest : Bool)
  /-- None of these. -/
  | bad
  deriving DecidableEq, Repr

mutual

/-- A piece of a word. Only what stands outside of quotes is split into fields. -/
inductive Part where
  | literal (text : Bytes) (isQuoted : Bool)
  | parameter (name : Bytes) (form : Form) (operand : List Part) (isQuoted : Bool)
  /-- What commands write. -/
  | output (body : List Command) (isQuoted : Bool)
  | arithmetic (expression : List Part) (isQuoted : Bool)

inductive Redirection where
  | file (descriptor : Nat) (how : Access) (target : List Part)
  | copy (descriptor : Nat) (source : List Part)
  /-- A text that stands in the script. -/
  | text (descriptor : Nat) (document : List Part)

inductive Command where
  | simple (line : Nat) (assignments : List (Bytes × List Part)) (words : List (List Part))
      (redirections : List Redirection)
  | pipeline (isNegated : Bool) (commands : List Command)
  | andThen (first second : Command)
  | orElse (first second : Command)
  | background (command : Command)
  | subshell (body : List Command)
  | group (body : List Command)
  | ifElse (condition thenBody elseBody : List Command)
  | loop (expected : Bool) (condition body : List Command)
  | forEach (name : Bytes) (words : List (List Part)) (body : List Command)
  | choice (subject : List Part) (items : List (List (List Part) × List Command))
  | function (name : Bytes) (body : Command)
  | redirected (line : Nat) (command : Command) (redirections : List Redirection)

end

abbrev Word := List Part

namespace Word

/-- The text of a word that is a single piece without quotes. -/
def plain? : Word → Option Bytes
  | [.literal text false] => some text
  | _ => none

/-- Is a part of the word quoted? -/
def isQuoted (w : Word) : Bool := w.any fun
  | .literal _ isQuoted => isQuoted
  | _ => false

/-- The text of the word as it is written, without its quotes. -/
def text (w : Word) : Bytes := w.flatMap fun
  | .literal text _ => text
  | .parameter name .. => "$" ++ name
  | _ => []

end Word

namespace Script

def isBlank (c : Char) : Bool := c = ' ' || c = '\t'

def isDelimiter (c : Char) : Bool :=
  isBlank c || ['\n',';','&','|','<','>','(',')'].contains c

def isNameStart (c : Char) : Bool := c.isAlpha || c = '_'

def isNameChar (c : Char) : Bool := c.isAlphanum || c = '_'

/-- Each byte as the character with its number, and the way back. -/
def charsOf (b : Bytes) : List Char := b.map Char.ofUInt8

def bytesOf (cs : List Char) : Bytes := cs.map fun c => UInt8.ofNat c.toNat

def isName (b : Bytes) : Bool :=
  match charsOf b with
  | [] => false
  | c :: rest => isNameStart c && rest.all isNameChar

/-- The assignment that a word is, if it has an equals sign behind a name. -/
def assignment? : Word → Option (Bytes × Word)
  | .literal text false :: rest =>
    let name := text.takeWhile (· ≠ 61)
    if isName name && name.length < text.length then
      some (name,.literal (text.drop (name.length + 1)) false :: rest)
    else none
  | _ => none

end Script
end TeenyTiny.Model
