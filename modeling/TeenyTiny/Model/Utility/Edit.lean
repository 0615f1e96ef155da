import TeenyTiny.Model.Utility.Lines

/-! A line editor: commands with addresses that are applied to every line of a text. -/
namespace TeenyTiny.Model.Utility
open Text

namespace Edit

inductive Address where
  | line (n : Nat)
  | last
  | found (r : List Regex)

/-- A piece of a replacement: a byte, or what was found as a whole or in a group. -/
inductive Piece where
  | byte (b : UInt8)
  | group (n : Nat)
  deriving DecidableEq, Repr

inductive Action where
  | substitute (r : List Regex) (pieces : List Piece) (isGlobal : Bool) (nth : Nat) (prints : Bool)
  | translate (source target : Bytes)
  | delete
  | print
  | number
  | quit
  | append (text : Bytes)
  | insert (text : Bytes)
  | change (text : Bytes)

structure Step where
  first : Option Address := none
  second : Option Address := none
  isNegated : Bool := false
  action : Action
  /-- Is the present line between the two addresses? -/
  isActive : Bool := false

/-! Reading -/

/-- The text up to a delimiter that no backslash stands in front of, and what follows. -/
def splitAtDelimiter (delimiter : UInt8) : (found : Bytes) → Bytes → Option (Bytes × Bytes)
  | _,[] => none
  | found,[b] => if b = delimiter then some (found.reverse,[]) else none
  | found,b :: c :: rest =>
    if b = delimiter then some (found.reverse,c :: rest)
    else if b = 92 then
      if c = delimiter then splitAtDelimiter delimiter (c :: found) rest
      else splitAtDelimiter delimiter (c :: b :: found) rest
    else splitAtDelimiter delimiter (b :: found) (c :: rest)

def replacement : Bytes → List Piece
  | [] => []
  | 38 :: rest => .group 0 :: replacement rest
  | 92 :: b :: rest =>
    if isDigit b then .group (b.toNat - 48) :: replacement rest
    else if b = 110 then .byte 10 :: replacement rest
    else if b = 116 then .byte 9 :: replacement rest
    else .byte b :: replacement rest
  | b :: rest => .byte b :: replacement rest

def readAddress (isExtended : Bool) (script : Bytes) : Option Address × Bytes :=
  match script with
  | 36 :: rest => (some .last,rest)
  | 47 :: rest =>
    match splitAtDelimiter 47 [] rest with
    | some (text,after) => (some (.found (Regex.parse isExtended text)),after)
    | none => (none,script)
  | _ =>
    let digits := script.takeWhile isDigit
    if digits = [] then (none,script)
    else (some (.line (digitsValue digits)),script.drop digits.length)

def isSeparator (b : UInt8) : Bool := b = 59 || b = 10 || isSpaceByte b

/-- The action at the start of a script, and what follows. -/
def readAction (isExtended : Bool) : Bytes → Option (Action × Bytes)
  | [] => none
  | letter :: rest =>
    let text := ((rest.dropWhile isSpaceByte).dropWhile (· = 92)).dropWhile isSpaceByte
    let line := text.takeWhile (· ≠ 10)
    let after := text.drop line.length
    match Char.ofUInt8 letter with
    | 'd' => some (.delete,rest)
    | 'p' => some (.print,rest)
    | '=' => some (.number,rest)
    | 'q' => some (.quit,rest)
    | 'a' => some (.append line,after)
    | 'i' => some (.insert line,after)
    | 'c' => some (.change line,after)
    | 's' => do
      let (delimiter,body) ← rest.head?.map (·,rest.drop 1)
      let (pattern,body) ← splitAtDelimiter delimiter [] body
      let (text,body) ← splitAtDelimiter delimiter [] body
      let isFlag (b : UInt8) : Bool := b = 103 || b = 112 || isDigit b
      let flags := body.takeWhile isFlag
      let digits := flags.filter isDigit
      some (.substitute (Regex.parse isExtended pattern) (replacement text) (flags.contains 103)
        (if digits = [] then 1 else digitsValue digits) (flags.contains 112),
        body.drop flags.length)
    | 'y' => do
      let (delimiter,body) ← rest.head?.map (·,rest.drop 1)
      let (source,body) ← splitAtDelimiter delimiter [] body
      let (target,body) ← splitAtDelimiter delimiter [] body
      some (.translate source target,body)
    | _ => none

def readSteps (isExtended : Bool) : (fuel : Nat) → Bytes → Option (List Step)
  | 0,_ => some []
  | fuel + 1,script =>
    match script.dropWhile isSeparator with
    | [] => some []
    | script =>
      let (first,rest) := readAddress isExtended script
      let (second,rest) := match first,rest with
        | some _,44 :: rest => readAddress isExtended rest
        | _,_ => (none,rest)
      let rest := rest.dropWhile isSpaceByte
      let isNegated := rest.head? = some 33
      do
        let (action,rest) ← readAction isExtended (if isNegated then rest.drop 1 else rest)
        return { first, second, isNegated, action } :: (← readSteps isExtended fuel rest)

/-! Running -/

/-- The text that a replacement stands for. -/
def fill (text : ByteArray) (start stop : Nat) (groups : Regex.Groups) (pieces : List Piece) :
    Bytes :=
  pieces.flatMap fun
    | .byte b => [b]
    | .group 0 => (text.extract start stop).data.toList
    | .group n =>
      match groups.find? (·.1 = n) with
      | some (_,first,last) => (text.extract first last).data.toList
      | none => []

/-- Replaces what an expression finds from a position on: the `nth` place, and those after it if
all are meant. -/
def substituteFrom (r : List Regex) (pieces : List Piece) (isGlobal : Bool) (text : ByteArray) :
    (fuel nth position : Nat) → Bytes × Bool
  | 0,_,position => ((text.extract position text.size).data.toList,false)
  | fuel + 1,nth,position =>
    let rest := (text.extract position text.size).data.toList
    if position > text.size then ([],false)
    else match Regex.search r text position with
      | none => (rest,false)
      | some (start,stop,groups) =>
        let before := (text.extract position start).data.toList
        let isMeant := nth ≤ 1
        let here := if isMeant then fill text start stop groups pieces
          else (text.extract start stop).data.toList
        if isMeant && !isGlobal then
          (before ++ here ++ (text.extract stop text.size).data.toList,true)
        else
          let next := if stop = start then stop + 1 else stop
          let skipped := (text.extract stop next).data.toList
          let (after,isDone) := substituteFrom r pieces isGlobal text fuel (nth - 1) next
          (before ++ here ++ skipped ++ after,isMeant || isDone)

def Address.holds (a : Address) (n : Nat) (isLast : Bool) (line : Bytes) : Bool :=
  match a with
  | .line m => m = n
  | .last => isLast
  | .found r => (Regex.search r line.toByteArray 0).isSome

/-- Is a step meant for a line? The step remembers whether a range has begun. -/
def Step.select (step : Step) (n : Nat) (isLast : Bool) (line : Bytes) : Bool × Step :=
  let (chosen,step) := match step.first,step.second with
    | none,_ => (true,step)
    | some first,none => (first.holds n isLast line,step)
    | some first,some second =>
      if step.isActive then (true,{ step with isActive := !second.holds n isLast line })
      else if first.holds n isLast line then
        let isOver : Bool := match second with
          | .line m => m ≤ n
          | _ => false
        (true,{ step with isActive := !isOver })
      else (false,step)
  (chosen != step.isNegated,step)

/-- A line on its way through the steps. -/
structure Cycle where
  line : Bytes
  before : Bytes := []
  after : Bytes := []
  isDeleted : Bool := false
  isOver : Bool := false

def Cycle.apply (n : Nat) (c : Cycle) : Action → Cycle
  | .substitute r pieces isGlobal nth prints =>
    let text := c.line.toByteArray
    let (line,isDone) := substituteFrom r pieces isGlobal text (text.size + 2) nth 0
    { c with line, before := if isDone && prints then c.before ++ line ++ [10] else c.before }
  | .translate source target =>
    { c with line := c.line.map fun b =>
        ((source.findIdx? (· = b)).bind (target[·]?)).getD b }
  | .delete => { c with isDeleted := true }
  | .print => { c with before := c.before ++ c.line ++ [10] }
  | .number => { c with before := c.before ++ digitsIn 10 n ++ [10] }
  | .quit => { c with isOver := true }
  | .append text => { c with after := c.after ++ text ++ [10] }
  | .insert text => { c with before := c.before ++ text ++ [10] }
  | .change text => { c with before := c.before ++ text ++ [10], isDeleted := true }

/-- What comes of the lines of a text. -/
def runLines (isQuiet : Bool) : (steps : List Step) → (n : Nat) → List Bytes → Bytes
  | _,_,[] => []
  | steps,n,whole :: rest =>
    let ending : Bytes := if whole.getLast? = some 10 then [10] else []
    let start : Cycle := { line := withoutEnd whole }
    let (c,steps) := steps.foldl (fun (c,done) step =>
      if c.isDeleted || c.isOver then (c,done ++ [step])
      else
        let (chosen,step) := step.select n rest.isEmpty c.line
        (if chosen then c.apply n step.action else c,done ++ [step])) (start,[])
    let shown := if c.isDeleted || isQuiet then [] else c.line ++ ending
    let text := c.before ++ shown ++ c.after
    if c.isOver then text else text ++ runLines isQuiet steps (n + 1) rest

end Edit

def sed (arguments : List Bytes) : Task Nat :=
  let table : OptionTable := { plain := ['n','E','r','i','s','u'], valued := ['e'] }
  withOptions "sed" table arguments fun o => do
    let scripts := (o.values.filter (·.1 = 'e')).map (·.2)
    let (script,operands) := match scripts,o.operands with
      | [],script :: operands => (some script,operands)
      | [],[] => (none,[])
      | scripts,operands => (some ([10].intercalate scripts),operands)
    match script with
    | none => misuse "sed" "no script specified"
    | some script =>
      match Edit.readSteps (o.has 'E' || o.has 'r') (script.length + 1) script with
      | none => fail "sed" ("-e expression #1, char " ++ digitsIn 10 script.length ++
          ": unknown command") 1
      | some steps =>
        let edit (text : Bytes) : Bytes := Edit.runLines (o.has 'n') steps 1 (lines text)
        let cannotRead (p : Path) (cause : Errno) : Bytes :=
          if cause = .isDirectory then "couldn't edit " ++ p ++ ": not a regular file"
          else "can't read " ++ p ++ ": " ++ reason cause
        if o.has 'i' then
          forOperands operands fun p => do
            match ← Task.readFile p,← Task.openFile p { writes := true } with
            | .ok block,.ok descriptor =>
              Task.perform (.close descriptor)
              Task.perform (.resize p 0)
              if let .ok descriptor ← Task.openFile p .append then
                Task.write descriptor (edit block.data.toList)
                Task.perform (.close descriptor)
              return 0
            | .error cause,_ | _,.error cause => fail "sed" (cannotRead p cause) 2
        else
          let texts ← (if operands = [] then [[45]] else operands).mapM fun p => do
            return (p,← readOperand p)
          let status ← forOperands texts fun (p,result) =>
            match result with
            | .ok _ => return 0
            | .error cause => fail "sed" (cannotRead p cause) 2
          say (edit (texts.flatMap fun (_,result) =>
            (result.toOption.map (·.data.toList)).getD []))
          return status

end TeenyTiny.Model.Utility
