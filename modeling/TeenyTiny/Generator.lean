import TeenyTiny.Listing
import TeenyTiny.Reserved
import TeenyTiny.Symbols
import TeenyTiny.Token.Stream

/-! Generation of C in a single pass over the tokens: what is read is checked and written at
once, so a fault leaves the listing and the symbols as they are at that point.

A program is a sequence of statements, each on lines of its own:
`PRINT (string | expression)`, `IF comparison THEN … ENDIF`, `WHILE comparison REPEAT … ENDWHILE`,
`LABEL name`, `GOTO name`, `LET name = expression`, `INPUT name`. Loops and nested blocks take
a fuel argument; every round reads at least one token, so the number of tokens left is enough. -/
namespace TeenyTiny
open Text

/-- The tokens still to be read behind a window of two, and what has been made of the others. -/
structure Generator where
  stream : TokenStream
  current : Token := ⟨.eof,[],0⟩
  next : Token := ⟨.eof,[],0⟩
  symbols : Symbols := {}
  listing : Listing := {}

namespace Generator

abbrev Step := EStateM Fault Generator

def fail {α : Type} (line : Int) (cause : Cause) : Step α := throw ⟨line,cause⟩

def currentToken : Step Token := return (← get).current

/-- Moves the window on by one token. A fault in the token pulled leaves the window. -/
def advance : Step Unit := fun g =>
  match g.stream.pull with
  | (.ok token,rest) => .ok () { g with stream := rest, current := g.next, next := token }
  | (.error fault,rest) => .error fault { g with stream := rest }

def headerLine (text : Bytes) : Step Unit :=
  modify fun g => { g with listing := g.listing.headerLine text }

def emit (text : Bytes) : Step Unit :=
  modify fun g => { g with listing := g.listing.emit text }

def emitLine (text : Bytes) : Step Unit :=
  modify fun g => { g with listing := g.listing.emitLine text }

/-- Passes the current token, which has to be of the given kind. -/
def expect (kind : Kind) : Step Token := do
  let token ← currentToken
  if token.kind ≠ kind then
    fail token.line (.grammar (.expected kind token.kind token.text))
  advance
  return token

/-- Repeats a step as long as the current token satisfies `p`, at most `fuel` times. -/
def repeatWhile (p : Kind → Bool) (step : Step Unit) : (fuel : Nat) → Step Unit
  | 0 => pure ()
  | fuel + 1 => do
    if p (← currentToken).kind then
      step
      repeatWhile p step fuel

/-- The end of a statement: one or more line feeds. -/
def lineEnd (fuel : Nat) : Step Unit := do
  let _ ← expect .newline
  repeatWhile (· = .newline) advance fuel

/-- A name after `LABEL`, `GOTO`, `LET` or `INPUT`. -/
def name (use : NameUse) : Step Token := do
  let token ← currentToken
  if token.kind.isKeyword then
    fail token.line (.grammar (.keywordAsName token.text))
  let token ← expect .ident
  if isReserved use token.text then
    fail token.line (.name (.reservedName token.text))
  return token

/-- Declares a variable above the statements when it is assigned for the first time. -/
def declare (variableName : Bytes) : Step Unit := do
  let (isNew,symbols) := (← get).symbols.define variableName
  modify fun g => { g with symbols }
  if isNew then headerLine ("float " ++ variableName ++ ";")

/-- A number without leading zeros, which C would read as octal. One digit stays before the
point. -/
def cNumber (lexeme : List Char) : List Char :=
  match lexeme.dropWhile (· = '0') with
  | [] => ['0']
  | c :: rest => if c = '.' then '0' :: c :: rest else c :: rest

def primary : Step Unit := do
  let token ← currentToken
  match token.kind with
  | .number => emit (encode (cNumber token.lexeme))
  | .ident =>
    if !(← get).symbols.isDefined token.text then
      fail token.line (.name (.undeclaredVariable token.text))
    emit token.text
  | kind => fail token.line (.grammar (.invalidOperand kind token.text))
  advance

/-- Writes the current token as it is and passes it. -/
def copyToken : Step Unit := do
  emit (← currentToken).text
  advance

def isSign (kind : Kind) : Bool := kind = .plus || kind = .minus

def isFactorOperator (kind : Kind) : Bool := kind = .times || kind = .slash

def unary : Step Unit := do
  if isSign (← currentToken).kind then copyToken
  primary

def term (fuel : Nat) : Step Unit := do
  unary
  repeatWhile isFactorOperator (do copyToken; unary) fuel

def expression (fuel : Nat) : Step Unit := do
  term fuel
  repeatWhile isSign (do copyToken; term fuel) fuel

/-- Expressions with one or more comparison operators between them. -/
def comparison (fuel : Nat) : Step Unit := do
  expression fuel
  let token ← currentToken
  if !token.kind.isComparison then
    fail token.line (.grammar (.missingComparison token.kind token.text))
  repeatWhile Kind.isComparison (do copyToken; expression fuel) fuel

def printStatement (fuel : Nat) : Step Unit := do
  advance
  let token ← currentToken
  if token.kind = .string then
    emitLine ("printf(\"" ++ token.text ++ "\\n\");")
    advance
  else
    emit "printf(\"%.2f\\n\", (float)("
    expression fuel
    emitLine "));"

/-- A block under a condition, closed by a keyword of its own. -/
def guardedBlock (opening : Bytes) (opener closer : Keyword) (fuel : Nat) (body : Step Unit) :
    Step Unit := do
  advance
  emit opening
  comparison fuel
  let _ ← expect (.keyword opener)
  lineEnd fuel
  emitLine ")\x7b"
  body
  let _ ← expect (.keyword closer)
  emitLine "\x7d"

def labelStatement : Step Unit := do
  advance
  let token ← name .label
  let (previous,symbols) := (← get).symbols.declareLabel token.text token.line
  if let some first := previous then
    fail token.line (.name (.duplicateLabel token.text first.line))
  modify fun g => { g with symbols }
  emitLine (token.text ++ ":")

def gotoStatement : Step Unit := do
  advance
  let token ← name .label
  modify fun g => { g with symbols := g.symbols.referenceLabel token.text token.line }
  emitLine ("goto " ++ token.text ++ ";")

/-- The variable is declared before its value is read, so it may occur in it. -/
def letStatement (fuel : Nat) : Step Unit := do
  advance
  let token ← name .variable
  let _ ← expect .assign
  declare token.text
  emit (token.text ++ " = ")
  expression fuel
  emitLine ";"

/-- A failed read makes the variable zero and passes the word in the way. -/
def inputStatement : Step Unit := do
  advance
  let token ← name .variable
  declare token.text
  emitLine ("if(0 == scanf(\"%f\", &" ++ token.text ++ ")) \x7b")
  emitLine (token.text ++ " = 0;")
  emitLine "scanf(\"%*s\");"
  emitLine "\x7d"

mutual

def statement : (fuel : Nat) → Step Unit
  | 0 => pure ()
  | fuel + 1 => do
    let token ← currentToken
    match token.kind with
    | .keyword .print => printStatement fuel
    | .keyword .if_ =>
      guardedBlock "if(" .then_ .endif fuel (statementsUntil (.keyword .endif) fuel)
    | .keyword .while_ =>
      guardedBlock "while(" .repeat_ .endwhile fuel (statementsUntil (.keyword .endwhile) fuel)
    | .keyword .label => labelStatement
    | .keyword .goto => gotoStatement
    | .keyword .let_ => letStatement fuel
    | .keyword .input => inputStatement
    | kind => fail token.line (.grammar (.invalidStatement kind token.text))
    lineEnd fuel

/-- Statements up to a token of the given kind, which is not passed. -/
def statementsUntil (close : Kind) : (fuel : Nat) → Step Unit
  | 0 => pure ()
  | fuel + 1 => do
    let token ← currentToken
    if token.kind ≠ close then
      if token.kind = .eof then
        fail token.line (.grammar (.unclosedBlock close))
      statement fuel
      statementsUntil close fuel

end

/-- A whole program. Labels may be declared behind the jumps to them, so missing labels are found
last. -/
def program : Step Unit := do
  advance
  advance
  headerLine "#include <stdio.h>"
  headerLine "int main(void)\x7b"
  let fuel := (← get).stream.items.length + 3
  repeatWhile (· = .newline) advance fuel
  statementsUntil .eof fuel
  emitLine "return 0;"
  emitLine "\x7d"
  match (← get).symbols.unresolved with
  | [] => pure ()
  | target :: _ => fail target.line (.name (.undeclaredLabel target.name))

end Generator
end TeenyTiny
