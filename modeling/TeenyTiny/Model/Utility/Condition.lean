import TeenyTiny.Model.Utility.Basic

/-! Conditions on texts, numbers and files. -/
namespace TeenyTiny.Model.Utility
open Text

namespace Condition

/-- Why a condition has no value. -/
inductive Fault where
  | illegalNumber (text : Bytes)
  | unexpectedOperator (text : Bytes)
  | missingArgument
  | missingOperand (operator : Bytes)
  | missingBracket
  | closingParenthesis
  deriving DecidableEq, Repr

def Fault.message : Fault → Bytes
  | illegalNumber text => "Illegal number: " ++ text
  | unexpectedOperator text => text ++ ": unexpected operator"
  | missingArgument => "argument expected"
  | missingOperand operator => operator ++ ": argument expected"
  | missingBracket => "missing ]"
  | closingParenthesis => "closing paren expected"

def unaryOperators : List String :=
  ["-n","-z","-e","-f","-d","-x","-r","-w","-s","-L","-h","-p","-c","-b","-t","-S",
   "-g","-u","-k","-O","-G"]

def binaryOperators : List String :=
  ["=","!=","<",">","-eq","-ne","-lt","-le","-gt","-ge","-nt","-ot","-ef"]

def isOneOf (operators : List String) (b : Bytes) : Bool := operators.any (ofString · = b)

/-- A number, around which there may be blanks. -/
def number (b : Bytes) : Except Fault Int :=
  let isBlank (b : UInt8) : Bool := b = 32 || (9 ≤ b && b ≤ 13)
  match readInt? ((b.dropWhile isBlank).reverse.dropWhile isBlank).reverse with
  | some n => .ok n
  | none => .error (.illegalNumber b)

def unary (operator operand : Bytes) : Task Bool := do
  let test (f : Node → Bool) : Task Bool := do return (← Task.node? operand).any f
  match decode operator with
  | ['-','n'] => return operand ≠ []
  | ['-','z'] => return operand = []
  | ['-','e'] | ['-','r'] | ['-','w'] | ['-','O'] | ['-','G'] => test fun _ => true
  | ['-','f'] => test fun
    | .file _ _ | .utility _ => true
    | _ => false
  | ['-','d'] => test Node.isDirectory
  | ['-','x'] => test fun node => node.isDirectory || node.info.isRunnable
  | ['-','s'] => test fun
    | .file _ block => block.size ≠ 0
    | .device _ => false
    | _ => true
  | ['-','L'] | ['-','h'] =>
    return (← Task.node? operand false).any fun
      | .link _ => true
      | _ => false
  | ['-','c'] => test fun
    | .device _ => true
    | _ => false
  | ['-','u'] => test fun node => node.mode &&& 0o4000 ≠ 0
  | ['-','g'] => test fun node => node.mode &&& 0o2000 ≠ 0
  | ['-','k'] => test fun node => node.mode &&& 0o1000 ≠ 0
  | _ => return false

def binary (left operator right : Bytes) : ExceptT Fault Task Bool := do
  let compare (test : Int → Int → Bool) : ExceptT Fault Task Bool :=
    match number left,number right with
    | .ok a,.ok b => return test a b
    | .error fault,_ | _,.error fault => throw fault
  match String.ofList (decode operator) with
  | "=" => return left = right
  | "!=" => return left ≠ right
  | "<" => return decide (left < right)
  | ">" => return decide (right < left)
  | "-eq" => compare fun a b => a = b
  | "-ne" => compare fun a b => a ≠ b
  | "-lt" => compare fun a b => a < b
  | "-le" => compare fun a b => a ≤ b
  | "-gt" => compare fun a b => a > b
  | "-ge" => compare fun a b => a ≥ b
  | "-ef" =>
    match (← Task.find left : Except Errno _),(← Task.find right : Except Errno _) with
    | .ok (_,a,_),.ok (_,b,_) => return a = b
    | _,_ => return false
  | _ => return false

/-- What an argument means where it stands. -/
inductive Meaning where
  | nothing | operand | unary | binary | not | and | or | opening | closing
  deriving DecidableEq, Repr

/-- The meaning of the first argument. An operator that lacks what it needs is an operand. -/
def meaning : List Bytes → Meaning
  | [] => .nothing
  | first :: rest =>
    let isOperand := match rest with
      | [] => true
      | [_] => false
      | next :: _ => isOneOf binaryOperators next
    if isOneOf unaryOperators first then if isOperand then .operand else .unary
    else if isOneOf binaryOperators first then .binary
    else match decode first with
      | ['!'] => .not
      | ['-','a'] => .and
      | ['-','o'] => .or
      | ['('] => if rest = [] then .operand else .opening
      | [')'] => .closing
      | _ => .operand

/-- A part of a condition: its value, and the arguments from the last one of the part on. -/
abbrev Read := ExceptT Fault Task (Bool × List Bytes)

mutual

/-- Conditions joined by `-o`. -/
def readOr : (fuel : Nat) → List Bytes → Read
  | 0,_ => throw .missingArgument
  | fuel + 1,arguments => do
    let (first,rest) ← readAnd fuel arguments
    if meaning (rest.drop 1) = .or then
      let (second,rest) ← readOr fuel (rest.drop 2)
      return (first || second,rest)
    return (first,rest)

def readAnd : (fuel : Nat) → List Bytes → Read
  | 0,_ => throw .missingArgument
  | fuel + 1,arguments => do
    let (first,rest) ← readNot fuel arguments
    if meaning (rest.drop 1) = .and then
      let (second,rest) ← readAnd fuel (rest.drop 2)
      return (first && second,rest)
    return (first,rest)

def readNot : (fuel : Nat) → List Bytes → Read
  | 0,_ => throw .missingArgument
  | fuel + 1,arguments => do
    if meaning arguments = .not then
      let rest := if arguments.length > 1 then arguments.drop 1 else arguments
      if arguments.length > 1 then
        let (value,rest) ← readNot fuel rest
        return (!value,rest)
      return (true,rest)
    readPrimary fuel arguments

def readPrimary : (fuel : Nat) → List Bytes → Read
  | 0,_ => throw .missingArgument
  | fuel + 1,arguments => do
    match arguments,meaning arguments with
    | [],_ => return (false,[])
    | _ :: rest,.opening =>
      if meaning rest = .closing then return (false,rest)
      let (value,last) ← readOr fuel rest
      if meaning (last.drop 1) ≠ .closing then throw .closingParenthesis
      return (value,last.drop 1)
    | operator :: operand :: rest,.unary =>
      return (← (unary operator operand : Task Bool),operand :: rest)
    | left :: rest,_ =>
      match rest with
      | operator :: after =>
        if !isOneOf binaryOperators operator then return (left ≠ [],arguments)
        match after with
        | [] => throw (.missingOperand operator)
        | right :: _ => return (← binary left operator right,after)
      | [] => return (left ≠ [],arguments)

end

/-- The value of a condition. Three and four arguments have rules of their own. -/
def evaluate : (fuel : Nat) → List Bytes → ExceptT Fault Task Bool
  | 0,_ => return false
  | fuel + 1,arguments => do
    let isShort := arguments.length = 3 || arguments.length = 4
    match arguments with
    | [] => return false
    | [left,operator,right] =>
      if isOneOf binaryOperators operator then return ← binary left operator right
    | _ => pure ()
    if isShort && arguments.head? = some (ofString "!") then
      return !(← evaluate fuel (arguments.drop 1))
    let isGroup := isShort && arguments.head? = some (ofString "(") &&
      arguments.getLast? = some (ofString ")")
    let arguments := if isGroup then (arguments.drop 1).dropLast else arguments
    let (value,rest) ← readOr (8 * arguments.length + 8) arguments
    match rest with
    | last :: _ :: _ => throw (.unexpectedOperator last)
    | _ => return value

end Condition

/-- Tests a condition: the status is 0 if it holds and 1 if not. A name that is a bracket wants
one at the end too. -/
def test (warn : Bytes → Task Unit) (isBracket : Bool) (arguments : List Bytes) : Task Nat := do
  let isClosed := arguments.getLast? = some (ofString "]")
  let result ← if isBracket && !isClosed then pure (.error .missingBracket)
    else (Condition.evaluate 8 (if isBracket then arguments.dropLast else arguments)).run
  match result with
  | .ok true => return 0
  | .ok false => return 1
  | .error fault =>
    warn fault.message
    return 2

end TeenyTiny.Model.Utility
