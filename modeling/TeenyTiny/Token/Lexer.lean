import TeenyTiny.Diagnostic
import TeenyTiny.Text.DecimalDigit
import TeenyTiny.Text.Letter

/-! The lexer. One step passes the gap before a token and reads the longest token there; after a
fault the next step goes on behind what was read. -/
namespace TeenyTiny
open Text

namespace Lexer

/-- Blanks between tokens. The line feed is a token. -/
def isGap (c : Char) : Bool := c = ' ' || c = '\t' || c = '\r'

/-- Passes blanks and a comment, which ends before the line feed. -/
def skipGap (cs : List Char) : List Char :=
  match cs.dropWhile isGap with
  | '#' :: rest => rest.dropWhile (· ≠ '\n')
  | rest => rest

/-- Characters after the first one of a word. -/
def isWordChar (c : Char) : Bool := isLetter c || isDecimalDigit c

/-- Characters that a string literal may hold. -/
def isStringChar (c : Char) : Bool :=
  !(c = '"' || c = '\r' || c = '\n' || c = '\t' || c = '\\' || c = '%')

/-- What was read, and the characters left. -/
structure Reading where
  outcome : Except LexicalCause (Kind × List Char)
  rest : List Char

/-- A number: digits, and if a point follows, digits after it. -/
def readNumber (cs : List Char) : Reading :=
  let whole := cs.takeWhile Char.isDigit
  match cs.dropWhile Char.isDigit with
  | '.' :: rest =>
    match rest with
    | [] => ⟨.error (.missingFraction none),[]⟩
    | c :: _ =>
      if c.isDigit then
        ⟨.ok (.number,whole ++ '.' :: rest.takeWhile Char.isDigit),rest.dropWhile Char.isDigit⟩
      else ⟨.error (.missingFraction (some c)),rest⟩
  | rest => ⟨.ok (.number,whole),rest⟩

def readWord (cs : List Char) : Reading :=
  let word := cs.takeWhile isWordChar
  ⟨.ok (Kind.ofWord word,word),cs.dropWhile isWordChar⟩

/-- The rest of a string whose opening quote has been read. -/
def readString (cs : List Char) : Reading :=
  match cs.dropWhile isStringChar with
  | [] => ⟨.error .unterminatedString,[]⟩
  | c :: rest =>
    if c = '"' then ⟨.ok (.string,cs.takeWhile isStringChar),rest⟩
    else ⟨.error (.illegalInString c),c :: rest⟩

/-- An operator of one character that an equals sign may extend. As the last character of the
input it ends the tokens. -/
def readExtensible (c : Char) (short long : Kind) : List Char → Reading
  | [] => ⟨.ok (.eof,[]),[]⟩
  | d :: rest => if d = '=' then ⟨.ok (long,[c,'=']),rest⟩ else ⟨.ok (short,[c]),d :: rest⟩

def readSymbol (c : Char) (rest : List Char) : Reading :=
  match c with
  | '\n' => ⟨.ok (.newline,['\n']),rest⟩
  | '+' => ⟨.ok (.plus,['+']),rest⟩
  | '-' => ⟨.ok (.minus,['-']),rest⟩
  | '*' => ⟨.ok (.times,['*']),rest⟩
  | '/' => ⟨.ok (.slash,['/']),rest⟩
  | '=' => readExtensible '=' .assign (.comparison .eq) rest
  | '<' => readExtensible '<' (.comparison .lt) (.comparison .le) rest
  | '>' => readExtensible '>' (.comparison .gt) (.comparison .ge) rest
  | '!' =>
    match rest with
    | [] => ⟨.error (.loneBang none),[]⟩
    | d :: rest' =>
      if d = '=' then ⟨.ok (.comparison .ne,['!','=']),rest'⟩
      else ⟨.error (.loneBang (some d)),rest⟩
  | _ => ⟨.error (.unexpectedChar c),rest⟩

/-- Reads one token from the start of the characters. -/
def read (cs : List Char) : Reading :=
  match cs with
  | [] => ⟨.ok (.eof,[]),[]⟩
  | c :: rest =>
    if c.isDigit then readNumber cs
    else if isLetter c then readWord cs
    else if c = '"' then readString rest
    else readSymbol c rest

end Lexer

/-- A place in a source: the characters still to be read and the current line. -/
structure Cursor where
  rest : List Char
  line : Nat
  deriving DecidableEq, Repr

namespace Cursor

def start (source : List Char) : Cursor := ⟨source,1⟩

/-- Reads the next token. At the end of the input every call gives the same end token. -/
def next (cursor : Cursor) : Except Fault Token × Cursor :=
  let reading := Lexer.read (Lexer.skipGap cursor.rest)
  match reading.outcome with
  | .ok (kind,lexeme) =>
    (.ok ⟨kind,lexeme,cursor.line⟩,
      ⟨reading.rest,if kind = .newline then cursor.line + 1 else cursor.line⟩)
  | .error cause => (.error ⟨cursor.line,.lexical cause⟩,⟨reading.rest,cursor.line⟩)

end Cursor
end TeenyTiny
