import TeenyTiny.Model.Process

/-! What utilities have in common: complaints, options and numbers. -/
namespace TeenyTiny.Model.Utility
open Text

/-- The words for a cause at the end of a complaint. -/
def reason (cause : Errno) : Bytes := cause.message.capitalize

/-- Writes to the standard output. -/
def say (text : Bytes) : Task Unit := Task.write 1 text

/-- A complaint of a utility. -/
def complain (utility : String) (text : Bytes) : Task Unit :=
  Task.write 2 (utility ++ ": " ++ text ++ "\n")

/-- A complaint, and then a failure. -/
def fail (utility : String) (text : Bytes) (status : Nat := 1) : Task Nat := do
  complain utility text
  return status

/-- A complaint about the way a utility was called. -/
def misuse (utility : String) (text : Bytes) (status : Nat := 1) : Task Nat :=
  fail utility (text ++ "\nTry '" ++ utility ++ " --help' for more information.") status

def isControl (b : UInt8) : Bool := b < 32 || b = 127

/-- A control character as an escape. -/
def controlEscape (b : UInt8) : Bytes :=
  match b with
  | 7 => "\\a"
  | 8 => "\\b"
  | 9 => "\\t"
  | 10 => "\\n"
  | 11 => "\\v"
  | 12 => "\\f"
  | 13 => "\\r"
  | _ => 92 :: encode ([b.toNat / 64,b.toNat / 8 % 8,b.toNat % 8].map fun n =>
      Char.ofNat (48 + n))

/-- The inside of a quoted name, in which quotes and control characters leave the quotes. -/
def quotedBytes : (isEscaped : Bool) → Bytes → Bytes
  | true,[] => "'"
  | false,[] => "'"
  | isEscaped,b :: rest =>
    if isControl b then
      (if isEscaped then controlEscape b else "'$'" ++ controlEscape b) ++ quotedBytes true rest
    else
      let start : Bytes := if isEscaped then "''" else []
      start ++ (if b = 39 then ofString "'\\''" else [b]) ++ quotedBytes false rest

/-- A name in quotes. A name with a single quote gets double quotes if nothing speaks against it. -/
def quoted (text : Bytes) : Bytes :=
  let isSpecial (b : UInt8) : Bool := isControl b || [34,36,92,96,33].contains b
  if text.contains 39 && !text.any isSpecial then "\"" ++ text ++ "\""
  else "'" ++ quotedBytes false text

/-- A name that is put in quotes only if it could be misread. -/
def named (text : Bytes) : Bytes :=
  let isSpecial (b : UInt8) : Bool :=
    isControl b || (ofString " !\"$&'()*:;<=>?[\\]^\x60|").contains b
  let isOdd := match text with
    | [] => true
    | first :: rest => first = 35 || first = 126 ||
        (rest = [] && (first = 123 || first = 125)) || text.any isSpecial
  if isOdd then quoted text else text

/-- Options of one letter, some with a value, and the arguments that are no options. -/
structure Options where
  letters : List Char := []
  values : List (Char × Bytes) := []
  operands : List Bytes := []

namespace Options

def has (o : Options) (letter : Char) : Bool := o.letters.contains letter

def value? (o : Options) (letter : Char) : Option Bytes :=
  (o.values.reverse.find? (·.1 = letter)).map (·.2)

def addLetter (o : Options) (letter : Char) : Options :=
  { o with letters := o.letters ++ [letter] }

def addValue (o : Options) (letter : Char) (value : Bytes) : Options :=
  { o with values := o.values ++ [(letter,value)] }

def addOperand (o : Options) (operand : Bytes) : Options :=
  { o with operands := o.operands ++ [operand] }

end Options

/-- What a utility takes: letters without and with a value, and long names for letters. -/
structure OptionTable where
  plain : List Char := []
  valued : List Char := []
  long : List (String × Char) := []
  /-- Do the options end at the first operand? -/
  isOrdered : Bool := false
  /-- The status after a fault. -/
  status : Nat := 1

/-- Why options cannot be read. -/
inductive OptionFault where
  | unknown (letter : Char)
  | unknownName (argument : Bytes)
  | missingValue (letter : Char)
  deriving DecidableEq, Repr

def OptionFault.message : OptionFault → Bytes
  | unknown letter => "invalid option -- '" ++ encode [letter] ++ "'"
  | unknownName argument => "unrecognized option '" ++ argument ++ "'"
  | missingValue letter => "option requires an argument -- '" ++ encode [letter] ++ "'"

/-- The letters of one argument. A value is what is left of it, or else the next argument. -/
def readLetters (table : OptionTable) (o : Options) (next : Option Bytes) :
    List Char → Except OptionFault (Options × Bool)
  | [] => .ok (o,false)
  | letter :: rest =>
    if table.plain.contains letter then readLetters table (o.addLetter letter) next rest
    else if table.valued.contains letter then
      if rest ≠ [] then .ok (o.addValue letter (encode rest),false)
      else match next with
        | some value => .ok (o.addValue letter value,true)
        | none => .error (.missingValue letter)
    else .error (.unknown letter)

/-- Reads the arguments. Options and operands may be mixed; `--` ends the options. -/
def readArguments (table : OptionTable) :
    (fuel : Nat) → Options → List Bytes → Except OptionFault Options
  | 0,o,_ => .ok o
  | _,o,[] => .ok o
  | fuel + 1,o,argument :: rest =>
    match decode argument with
    | ['-','-'] => .ok { o with operands := o.operands ++ rest }
    | '-' :: '-' :: text =>
      let name := String.ofList (text.takeWhile (· ≠ '='))
      match table.long.find? (·.1 = name) with
      | none => .error (.unknownName argument)
      | some (_,letter) =>
        if !table.valued.contains letter then
          readArguments table fuel (o.addLetter letter) rest
        else if text.contains '=' then
          let value := encode ((text.dropWhile (· ≠ '=')).drop 1)
          readArguments table fuel (o.addValue letter value) rest
        else match rest with
          | value :: rest => readArguments table fuel (o.addValue letter value) rest
          | [] => .error (.missingValue letter)
    | '-' :: c :: letters =>
      match readLetters table o rest.head? (c :: letters) with
      | .error fault => .error fault
      | .ok (o,usesNext) => readArguments table fuel o (if usesNext then rest.drop 1 else rest)
    | _ =>
      if table.isOrdered then .ok { o with operands := o.operands ++ argument :: rest }
      else readArguments table fuel (o.addOperand argument) rest

/-- Does a task with the options and operands in the arguments. -/
def withOptions (utility : String) (table : OptionTable) (arguments : List Bytes)
    (next : Options → Task Nat) : Task Nat :=
  match readArguments table (arguments.length + 1) {} arguments with
  | .ok options => next options
  | .error fault => misuse utility fault.message table.status

/-- Goes through operands; the worst status counts. -/
def forOperands {α : Type} (operands : List α) (step : α → Task Nat) : Task Nat :=
  operands.foldlM (fun status operand => do return max status (← step operand)) 0

def isDigit (b : UInt8) : Bool := 48 ≤ b && b ≤ 57

def digitsValue (digits : Bytes) : Nat := digits.foldl (fun n b => n * 10 + (b.toNat - 48)) 0

def readNat? (b : Bytes) : Option Nat :=
  if b ≠ [] && b.all isDigit then some (digitsValue b) else none

/-- A number with a sign. -/
def readInt? : Bytes → Option Int
  | 45 :: rest => (readNat? rest).map fun n => -(n : Int)
  | 43 :: rest => (readNat? rest).map fun n => (n : Int)
  | b => (readNat? b).map fun n => (n : Int)

/-- The lines of a text, each with its line feed if it has one. -/
def linesAfter : (found : Bytes) → Bytes → List Bytes
  | found,[] => if found = [] then [] else [found.reverse]
  | found,b :: rest =>
    if b = 10 then (b :: found).reverse :: linesAfter [] rest
    else linesAfter (b :: found) rest

def lines (text : Bytes) : List Bytes := linesAfter [] text

/-- A line without its line feed. -/
def withoutEnd (line : Bytes) : Bytes := if line.getLast? = some 10 then line.dropLast else line

/-- The text of an operand, where a dash is the standard input. -/
def readOperand (p : Path) : Task (Except Errno ByteArray) :=
  if p = ofString "-" then Task.readAll 0 else Task.readFile p

end TeenyTiny.Model.Utility
