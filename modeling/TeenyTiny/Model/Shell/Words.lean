import TeenyTiny.Model.Arithmetic
import TeenyTiny.Model.Shell.State

/-! Words of a script and the fields they stand for. -/
namespace TeenyTiny.Model.Shell
open Text

/-- Fields that are complete, the last one first, and the one being put together. -/
structure Fields where
  complete : List Marked := []
  current : Option Marked := none
  /-- Has a blank just ended a field? -/
  isSeparated : Bool := false

namespace Fields

def finish (f : Fields) : Fields := { complete := f.current.toList ++ f.complete }

def add (f : Fields) (text : Marked) : Fields :=
  { complete := f.complete, current := some (f.current.getD [] ++ text) }

def isBlank (b : UInt8) : Bool := b = 32 || b = 9 || b = 10

/-- Adds a text that is split at separators. Blanks next to each other count as one. -/
def addSplit (separators : Bytes) (f : Fields) (text : Bytes) : Fields :=
  text.foldl (fun f b =>
    if !separators.contains b then f.add [(b,false)]
    else if isBlank b then
      if f.current.isSome then { f.finish with isSeparated := true } else f
    else if f.isSeparated then { f with isSeparated := false }
    else { complete := f.current.getD [] :: f.complete }) f

/-- Adds several texts, each after the first one beginning a new field. -/
def addAll (addOne : Fields → Bytes → Fields) (f : Fields) : List Bytes → Fields
  | [] => f
  | [last] => addOne f last
  | text :: rest => addAll addOne (addOne f text).finish rest

def toList (f : Fields) : List Marked := f.finish.complete.reverse

end Fields

/-- The value of a parameter, if it has one. -/
def parameter? (name : Bytes) : Run (Option Bytes) := do
  let shell ← get
  match Script.charsOf name with
  | ['#'] => return some (decimal shell.arguments.length)
  | ['?'] => return some (decimal shell.status)
  | ['$'] => return some (decimal shell.number)
  | ['!'] => return shell.lastBackground.map fun n => decimal n
  | ['-'] => return some (Script.bytesOf shell.letters)
  | ['@'] | ['*'] =>
    return if shell.arguments = [] then none else some ([32].intercalate shell.arguments)
  | cs =>
    if cs.all Char.isDigit then
      let n := Utility.digitsValue name
      return if n = 0 then some shell.name else shell.arguments[n - 1]?
    else value? name

/-- The bytes at which values are split. -/
def separators : Run Bytes := return (← value? "IFS").getD [32,9,10]

def dropLastNewlines (b : Bytes) : Bytes := (b.reverse.dropWhile (· = 10)).reverse

/-- The value of an arithmetic expression. -/
def calculate (text : Bytes) : Run Bytes := do
  let shell ← get
  let lookup (name : Bytes) : Except Arithmetic.Fault Int :=
    match shell.values.find? (·.1 = name) with
    | some (_,value) => Arithmetic.readInt value
    | none => .ok 0
  match Arithmetic.run lookup text with
  | .error (.illegalNumber value) => abort ("Illegal number: " ++ value)
  | .error fault =>
    abort ("arithmetic expression: " ++ fault.message ++ ": \"" ++ text ++ "\"")
  | .ok (n,changes) =>
    for (name,value) in changes.reverse do assign name (decimal value)
    return decimal n

/-- How words are put together: what commands write, and whether values are split. -/
structure Expansion where
  output : List Command → Run Bytes
  isSplit : Bool := true
  /-- Are texts that stand in the word itself split too? -/
  splitsTexts : Bool := false

mutual

def expandParts (e : Expansion) : (fuel : Nat) → Fields → Word → Run Fields
  | 0,f,_ => return f
  | _,f,[] => return f
  | fuel + 1,f,part :: rest => do expandParts e fuel (← expandPart e fuel f part) rest

def expandPart (e : Expansion) : (fuel : Nat) → Fields → Part → Run Fields
  | 0,f,_ => return f
  | fuel + 1,f,part => do
    let splitters ← separators
    let addValue (isQuoted : Bool) (f : Fields) (value : Bytes) : Fields :=
      if isQuoted || !e.isSplit then f.add (Marked.ofBytes isQuoted value)
      else f.addSplit splitters value
    match part with
    | .literal text isQuoted =>
      return if !isQuoted && e.splitsTexts then f.addSplit splitters text
        else f.add (Marked.ofBytes isQuoted text)
    | .output body isQuoted =>
      return addValue isQuoted f (dropLastNewlines (← e.output body))
    | .arithmetic expression isQuoted =>
      let text ← joinParts e fuel expression
      return addValue isQuoted f (← calculate text)
    | .parameter name form operand isQuoted =>
      let value ← parameter? name
      let useOperand : Run Fields :=
        expandParts { e with splitsTexts := e.isSplit && !isQuoted } fuel
          (if isQuoted then f.add [] else f) operand
      let useValue : Run Fields := do
        if name = ofString "@" || (name = ofString "*" && !isQuoted) then
          return Fields.addAll (addValue isQuoted) f (← get).arguments
        if name = ofString "*" then
          return f.add (Marked.ofBytes true ((splitters.take 1).intercalate (← get).arguments))
        return addValue isQuoted f (value.getD [])
      let isMissing (evenEmpty : Bool) : Bool := value.isNone || (evenEmpty && value = some [])
      let isUnset := value.isNone && name ≠ ofString "@" && name ≠ ofString "*" &&
        (← get).letters.contains 'u'
      match form with
      | .bad => abort "Bad substitution"
      | .plain =>
        if isUnset then abort (name ++ ": parameter not set")
        useValue
      | .length =>
        if isUnset then abort (name ++ ": parameter not set")
        return addValue isQuoted f (decimal (value.getD []).length)
      | .orElse evenEmpty => if isMissing evenEmpty then useOperand else useValue
      | .instead evenEmpty =>
        if isMissing evenEmpty then return if isQuoted then f.add [] else f
        useOperand
      | .orAssign evenEmpty =>
        if isMissing evenEmpty then
          let text ← joinParts e fuel operand
          assign name text
          return addValue isQuoted f text
        useValue
      | .orComplain evenEmpty =>
        if isMissing evenEmpty then
          let text ← joinParts e fuel operand
          let standard : Bytes :=
            if evenEmpty then "parameter not set or null" else "parameter not set"
          abort (name ++ ": " ++ if operand.isEmpty then standard else text)
        useValue
      | .dropEnd isLongest =>
        let pieces := Pattern.parse (← markParts e fuel operand)
        return addValue isQuoted f (Pattern.dropEnd isLongest pieces (value.getD []))
      | .dropStart isLongest =>
        let pieces := Pattern.parse (← markParts e fuel operand)
        return addValue isQuoted f (Pattern.dropStart isLongest pieces (value.getD []))

/-- A word as one text with marks, where nothing is split. -/
def markParts (e : Expansion) : (fuel : Nat) → Word → Run Marked
  | 0,_ => return []
  | fuel + 1,w => do
    let f ← expandParts { e with isSplit := false } fuel {} w
    return [(32,true)].intercalate f.toList

/-- A word as one text, where nothing is split. -/
def joinParts (e : Expansion) : (fuel : Nat) → Word → Run Bytes
  | 0,_ => return []
  | fuel + 1,w => do return (← markParts e fuel w).bytes

end

/-- More than the depth of any word. -/
def maxWord : Nat := 100000

/-- Parts of a path between its slashes. -/
def splitPath (m : Marked) : List Marked :=
  m.foldr (fun (b,isQuoted) found =>
    if b = Path.slash then [] :: found
    else match found with
      | first :: rest => ((b,isQuoted) :: first) :: rest
      | [] => [[(b,isQuoted)]]) [[]]

/-- The paths below a start that a pattern describes, part by part. -/
def globParts : (start : Path) → List Marked → Task (List Path)
  | start,[] => do return if (← Task.node? start false).isSome then [start] else []
  | start,part :: rest => do
    if !Pattern.isPattern part then
      let p := start ++ part.bytes
      if rest = [] then return ← globParts p []
      globParts (p ++ [Path.slash]) rest
    else
      let pieces := Pattern.parse part
      let isHidden := part.head?.any (·.1 = Path.dot)
      let names := (← Task.namesIn (if start = [] then [Path.dot] else start)).toOption.getD []
      let names := [Path.dot] :: [Path.dot,Path.dot] :: names
      let found := names.filter fun name =>
        Pattern.accepts pieces name && (isHidden || name.head? ≠ some Path.dot)
      let paths ← found.mapM fun name =>
        globParts (start ++ name ++ if rest = [] then [] else [Path.slash]) rest
      return paths.flatten

/-- The names that a field stands for if it is a pattern that describes some. -/
def glob (m : Marked) : Run (List Bytes) := do
  if !Pattern.isPattern m || (← hasOption 'f') then return [m.bytes]
  let found ← lift (globParts [] (splitPath m))
  return if found = [] then [m.bytes] else found

/-- The fields that words stand for. -/
def expandAll (output : List Command → Run Bytes) (words : List Word) : Run (List Bytes) := do
  let mut found := []
  for w in words do
    let f ← expandParts { output } maxWord {} w
    for field in f.toList do found := found ++ (← glob field)
  return found

/-- The single text that a word stands for where nothing is split. -/
def expandOne (output : List Command → Run Bytes) (w : Word) : Run Bytes :=
  joinParts { output } maxWord w

/-- The pattern that a word stands for. -/
def expandPattern (output : List Command → Run Bytes) (w : Word) : Run (List Pattern.Piece) := do
  return Pattern.parse (← markParts { output } maxWord w)

end TeenyTiny.Model.Shell
