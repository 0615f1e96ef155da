import TeenyTiny.Model.Script

/-! Arithmetic in scripts: whole numbers of 64 bits, the usual operators, and assignments. -/
namespace TeenyTiny.Model.Arithmetic
open Text

inductive Expression where
  | number (n : Int)
  | value (name : Bytes)
  | unary (operator : String) (operand : Expression)
  | binary (operator : String) (left right : Expression)
  | choice (condition yes no : Expression)
  | assign (name : Bytes) (operator : String) (value : Expression)

inductive Fault where
  | expectingPrimary | expectingEnd | expectingParenthesis | expectingColon | divisionByZero
  /-- The value of a name is no number. -/
  | illegalNumber (value : Bytes)
  deriving DecidableEq, Repr

def Fault.message : Fault → String
  | expectingPrimary => "expecting primary"
  | expectingEnd => "expecting EOF"
  | expectingParenthesis => "expecting ')'"
  | expectingColon => "expecting ':'"
  | divisionByZero => "division by zero"
  | illegalNumber _ => "illegal number"

/-- A number in 64 bits with a sign. -/
def wrap (n : Int) : Int := Int.bmod n 18446744073709551616

/-! Reading -/

def isSpace (c : Char) : Bool := c = ' ' || c = '\t' || c = '\n'

/-- The operators of two numbers, from those that bind least to those that bind most. -/
def levels : List (List String) :=
  [["||"],["&&"],["|"],["^"],["&"],["==","!="],["<=",">=","<",">"],["<<",">>"],
   ["+","-"],["*","/","%"]]

/-- All operators, the longer ones first. -/
def operators : List String :=
  ["<<=",">>=","||","&&","==","!=","<=",">=","<<",">>","+=","-=","*=","/=","%=","&=",
   "|=","^=","|","^","&","<",">","+","-","*","/","%","=","?",":","(",")","!","~"]

inductive Symbol where
  | number (n : Nat)
  | name (b : Bytes)
  | operator (text : String)
  deriving DecidableEq, Repr

def digitValue (c : Char) : Nat :=
  if c.isDigit then c.toNat - 48 else if c.isUpper then c.toNat - 55 else c.toNat - 87

/-- The value of digits in a base, if they all belong to it. -/
def valueIn (base : Nat) (digits : List Char) : Option Nat :=
  if digits.all fun c => c.isAlphanum && digitValue c < base then
    some (digits.foldl (fun n c => n * base + digitValue c) 0)
  else none

/-- A number: `0x` begins a hexadecimal one and `0` an octal one. -/
def numberOf? : List Char → Option Nat
  | '0' :: 'x' :: digits | '0' :: 'X' :: digits => if digits = [] then none else valueIn 16 digits
  | '0' :: digits => valueIn 8 digits
  | digits => if digits = [] then none else valueIn 10 digits

def symbolsAfter : (fuel : Nat) → List Char → Except Fault (List Symbol)
  | 0,_ => .ok []
  | _,[] => .ok []
  | fuel + 1,c :: rest =>
    if isSpace c then symbolsAfter fuel rest
    else if c.isDigit then
      let digits := (c :: rest).takeWhile Char.isAlphanum
      match numberOf? digits with
      | none => .error .expectingEnd
      | some n => do return .number n :: (← symbolsAfter fuel ((c :: rest).drop digits.length))
    else if Script.isNameStart c then
      let name := (c :: rest).takeWhile Script.isNameChar
      do return .name (Script.bytesOf name) :: (← symbolsAfter fuel ((c :: rest).drop name.length))
    else match operators.find? (·.toList.isPrefixOf (c :: rest)) with
      | none => do return .operator (String.ofList [c]) :: (← symbolsAfter fuel rest)
      | some text =>
        do return .operator text :: (← symbolsAfter fuel ((c :: rest).drop text.length))

def symbols (cs : List Char) : Except Fault (List Symbol) := symbolsAfter (cs.length + 1) cs

abbrev Read := EStateM Fault (List Symbol)

/-- Takes the next symbol if it is one of the operators. -/
def accept (texts : List String) : Read (Option String) := do
  match ← get with
  | .operator text :: rest =>
    if texts.contains text then
      set rest
      return some text
    return none
  | _ => return none

def assignments : List String :=
  ["=","+=","-=","*=","/=","%=","&=","|=","^=","<<=",">>="]

mutual

/-- A whole expression: an assignment or a choice. -/
def readExpression : (fuel : Nat) → Read Expression
  | 0 => throw .expectingPrimary
  | fuel + 1 => do
    match ← get with
    | .name name :: .operator text :: rest =>
      if assignments.contains text then
        set rest
        return .assign name (String.ofList text.toList.dropLast) (← readExpression fuel)
      else readChoice fuel
    | _ => readChoice fuel

def readChoice : (fuel : Nat) → Read Expression
  | 0 => throw .expectingPrimary
  | fuel + 1 => do
    let condition ← readLevel fuel levels
    match ← accept ["?"] with
    | none => return condition
    | some _ =>
      let yes ← readExpression fuel
      if (← accept [":"]).isNone then throw .expectingColon
      return .choice condition yes (← readChoice fuel)

/-- Operands joined by operators of a level or of one that binds more. -/
def readLevel : (fuel : Nat) → List (List String) → Read Expression
  | 0,_ => throw .expectingPrimary
  | fuel + 1,[] => readUnary fuel
  | fuel + 1,level :: rest => do readRest fuel level rest (← readLevel fuel rest)

def readRest : (fuel : Nat) → List String → List (List String) → Expression → Read Expression
  | 0,_,_,_ => throw .expectingPrimary
  | fuel + 1,level,rest,left => do
    match ← accept level with
    | none => return left
    | some operator =>
      readRest fuel level rest (.binary operator left (← readLevel fuel rest))

def readUnary : (fuel : Nat) → Read Expression
  | 0 => throw .expectingPrimary
  | fuel + 1 => do
    match ← accept ["-","+","!","~"] with
    | some operator => return .unary operator (← readUnary fuel)
    | none =>
      match ← get with
      | .number n :: rest =>
        set rest
        return .number n
      | .name name :: rest =>
        set rest
        return .value name
      | .operator "(" :: rest =>
        set rest
        let inner ← readExpression fuel
        if (← accept [")"]).isNone then throw .expectingParenthesis
        return inner
      | _ => throw .expectingPrimary

end

def parse (cs : List Char) : Except Fault Expression := do
  let found ← symbols cs
  match readExpression (16 * found.length + 32) found with
  | .error fault _ => throw fault
  | .ok expression [] => return expression
  | .ok _ _ => throw .expectingEnd

/-! Values -/

def ofBool (b : Bool) : Int := if b then 1 else 0

/-- The pattern of bits of a number. -/
def bits (n : Int) : Nat := (n % 18446744073709551616).toNat

def apply (operator : String) (a b : Int) : Except Fault Int :=
  match operator with
  | "+" => .ok (wrap (a + b))
  | "-" => .ok (wrap (a - b))
  | "*" => .ok (wrap (a * b))
  | "/" => if b = 0 then .error .divisionByZero else .ok (wrap (a.tdiv b))
  | "%" => if b = 0 then .error .divisionByZero else .ok (wrap (a.tmod b))
  | "<<" => .ok (wrap (bits a <<< (bits b % 64) : Nat))
  | ">>" => .ok (a >>> (bits b % 64))
  | "&" => .ok (wrap (bits a &&& bits b : Nat))
  | "|" => .ok (wrap (bits a ||| bits b : Nat))
  | "^" => .ok (wrap (bits a ^^^ bits b : Nat))
  | "==" => .ok (ofBool (a = b))
  | "!=" => .ok (ofBool (a ≠ b))
  | "<" => .ok (ofBool (a < b))
  | "<=" => .ok (ofBool (a ≤ b))
  | ">" => .ok (ofBool (a > b))
  | ">=" => .ok (ofBool (a ≥ b))
  | _ => .ok b

/-- The values of names that an expression has changed, the last change first. -/
abbrev Changes := List (Bytes × Int)

/-- The value of an expression. -/
def evaluate (lookup : Bytes → Except Fault Int) : Expression → StateT Changes (Except Fault) Int
  | .number n => return wrap n
  | .value name => do
    match (← get).find? (·.1 = name) with
    | some (_,n) => return n
    | none => lookup name
  | .unary operator operand => do
    let n ← evaluate lookup operand
    match operator with
    | "-" => return wrap (-n)
    | "!" => return ofBool (n = 0)
    | "~" => return -n - 1
    | _ => return n
  | .binary operator left right => do
    let a ← evaluate lookup left
    match operator with
    | "&&" =>
      if a = 0 then return 0
      return ofBool ((← evaluate lookup right) ≠ 0)
    | "||" =>
      if a ≠ 0 then return 1
      return ofBool ((← evaluate lookup right) ≠ 0)
    | _ => apply operator a (← evaluate lookup right)
  | .choice condition yes no => do
    if (← evaluate lookup condition) ≠ 0 then evaluate lookup yes else evaluate lookup no
  | .assign name operator value => do
    let n ← evaluate lookup value
    let old : Except Fault Int := match (← get).find? (·.1 = name) with
      | some (_,n) => .ok n
      | none => lookup name
    let result ← if operator = "" then pure n else (do apply operator (← old) n : Except Fault Int)
    modify ((name,result) :: ·)
    return result

/-- A number as it may stand in the value of a name. -/
def readInt (b : Bytes) : Except Fault Int :=
  let number (sign : Int) (digits : List Char) : Except Fault Int :=
    match numberOf? digits with
    | some n => .ok (sign * n)
    | none => .error (.illegalNumber b)
  match (Script.charsOf b).filter (!isSpace ·) with
  | [] => .ok 0
  | '-' :: digits => number (-1) digits
  | '+' :: digits | digits => number 1 digits

/-- The value of an expression, and the changes it makes. -/
def run (lookup : Bytes → Except Fault Int) (text : Bytes) : Except Fault (Int × Changes) := do
  let expression ← parse (Script.charsOf text)
  evaluate lookup expression []

end TeenyTiny.Model.Arithmetic
