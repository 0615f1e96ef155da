import TeenyTiny.Model.Script.Reader
import TeenyTiny.Model.Shell.Words

/-! Commands that are part of the shell and act on the script itself. -/
namespace TeenyTiny.Model.Shell
open Text

/-- The way a command of the shell complains. -/
def warning : Run (Bytes → Task Unit) := do
  let start ← complaintStart
  return fun text => Task.write 2 (start ++ text ++ "\n")

/-- Commands that the language itself needs: their faults end the script, and values that are
given to them stay. -/
def specialNames : List Bytes :=
  [".",":","break","continue","eval","exec","exit","export","local","readonly","return",
   "set","shift","times","trap","unset"]

def regularNames : List Bytes :=
  ["[","alias","bg","cd","chdir","command","echo","false","fg","getopts","hash","jobs",
   "kill","printf","pwd","read","test","true","type","ulimit","umask","unalias",
   "wait"]

def isSpecial (name : Bytes) : Bool := specialNames.contains name

def isBuiltin (name : Bytes) : Bool := isSpecial name || regularNames.contains name

/-- A complaint of a command of the shell; for a special one it ends the script. -/
def fail (text : Bytes) : Run Nat := do
  complain text
  if isSpecial (← get).context then exit 2
  return 2

/-- The file that a command name stands for: the first one on the search path that can be run. -/
def searchPath (name path : Bytes) : Task (Option Path) := do
  if name.contains Path.slash then return some name
  let candidates := (splitOn 58 path).map fun directory =>
    Path.child (if directory = [] then [Path.dot] else directory) name
  let mut found := none
  for p in candidates do
    if found.isNone then
      if (← Task.node? p).any fun node => !node.isDirectory && node.info.isRunnable then
        found := some p
  return found

/-- The same with the search path of the script. -/
def findProgram (name : Bytes) : Run (Option Path) := do
  lift (searchPath name ((← value? "PATH").getD []))

/-! Reading lines -/

/-- The bytes of a line of the standard input, with marks on those that a backslash stands in
front of, and whether the line was ended. -/
def readLineAfter (isRaw : Bool) : (fuel : Nat) → (found : Marked) → Task (Marked × Bool)
  | 0,found => return (found.reverse,false)
  | fuel + 1,found => do
    match (← Task.read 0 1).toOption.bind (·.data.toList.head?) with
    | none => return (found.reverse,false)
    | some 10 => return (found.reverse,true)
    | some 92 =>
      if isRaw then readLineAfter isRaw fuel ((92,false) :: found)
      else match (← Task.read 0 1).toOption.bind (·.data.toList.head?) with
        | none => return (found.reverse,false)
        | some 10 => readLineAfter isRaw fuel found
        | some b => readLineAfter isRaw fuel ((b,true) :: found)
    | some b => readLineAfter isRaw fuel ((b,false) :: found)

/-- Gives each name a field of the line, and the last one all that is left. -/
def assignFields (splitters : Bytes) : List Bytes → Marked → Run Unit
  | [],_ => pure ()
  | name :: rest,text => do
    let isSeparator (m : UInt8 × Bool) : Bool := !m.2 && splitters.contains m.1
    let isBlank (m : UInt8 × Bool) : Bool := isSeparator m && Fields.isBlank m.1
    let text := text.dropWhile isBlank
    if rest = [] then
      assign name ((text.reverse.dropWhile isBlank).reverse.map (·.1))
    else
      let field := text.takeWhile (!isSeparator ·)
      assign name (field.map (·.1))
      let after := (text.drop field.length).dropWhile isBlank
      let after := match after with
        | m :: more => if isSeparator m && !isBlank m then more else after
        | [] => []
      assignFields splitters rest after

def read (arguments : List Bytes) : Run Nat := do
  let isRaw := arguments.head? = some (ofString "-r")
  let names := if isRaw then arguments.drop 1 else arguments
  if names = [] then return ← fail "arg count"
  let (line,isEnded) ← lift (readLineAfter isRaw Task.maxPieces [])
  assignFields (← separators) names line
  return if isEnded then 0 else 1

/-! Values, options and arguments -/

def quotedValue (value : Bytes) : Bytes :=
  "'" ++ value.flatMap (fun b => if b = 39 then ofString "'\"'\"'" else [b]) ++ "'"

/-- The values of names, one in a line. -/
def listing (start : String) (names : List Bytes) : Run Bytes := do
  let shell ← get
  let sorted := names.mergeSort fun a b => !decide (b < a)
  return sorted.flatMap fun name =>
    let setting := match shell.values.find? (·.1 = name) with
      | some (_,value) => [61] ++ quotedValue value
      | none => []
    ofString start ++ name ++ setting ++ [10]

/-- Goes through `name` and `name=value`. -/
def forSettings (arguments : List Bytes) (step : Bytes → Run Unit) :
    Run Nat := do
  for argument in arguments do
    let name := argument.takeWhile (· ≠ 61)
    if !Script.isName name then return ← fail (argument ++ ": bad variable name")
    step name
    if let some (name,value) := Utility.setting? argument then assign name value
  return 0

def exportNames (arguments : List Bytes) : Run Nat := do
  if arguments = [] || arguments = [ofString "-p"] then
    let text ← listing "export " (← get).exported
    lift (Utility.say text)
    return 0
  forSettings arguments export_

def markReadOnly (arguments : List Bytes) : Run Nat := do
  if arguments = [] || arguments = [ofString "-p"] then
    let text ← listing "readonly " (← get).readOnly
    lift (Utility.say text)
    return 0
  let status ← forSettings arguments fun _ => pure ()
  modify fun shell =>
    { shell with readOnly := arguments.map (·.takeWhile (· ≠ 61)) ++ shell.readOnly }
  return status

def unsetNames (arguments : List Bytes) : Run Nat := do
  match arguments with
  | first :: rest =>
    if first = ofString "-f" then
      modify fun shell =>
        { shell with functions := shell.functions.filter fun (name,_) => !rest.contains name }
    else
      for name in if first = ofString "-v" then rest else arguments do
        if !Script.isName name then return ← fail (name ++ ": bad variable name")
        unset name
  | [] => pure ()
  return 0

/-- Keeps the values of names for the end of a function. -/
def local_ (arguments : List Bytes) : Run Nat := do
  if (← get).calls = 0 then return ← fail "not in a function"
  forSettings arguments fun name => do
    let value ← value? name
    modify fun shell => { shell with hidden := (name,value) :: shell.hidden }

/-- Turns options on or off, up to the first argument that is none. -/
def setLetters :
    (fuel : Nat) → List Bytes → Run (Except Bytes (List Bytes × Bool))
  | 0,arguments => return .ok (arguments,false)
  | _,[] => return .ok ([],false)
  | fuel + 1,argument :: rest => do
    match Script.charsOf argument with
    | ['-','-'] => return .ok (rest,true)
    | ['-'] =>
      setOption 'x' false
      setOption 'v' false
      return .ok (rest,rest ≠ [])
    | sign :: letters =>
      if sign ≠ '-' && sign ≠ '+' then return .ok (argument :: rest,true)
      if letters = ['o'] then
        match rest with
        | [] => return .ok ([],false)
        | name :: rest =>
          match optionNames.find? (ofString ·.1 = name) with
          | none => return .error ("Illegal option -o " ++ name)
          | some (_,letter) =>
            setOption letter (sign = '-')
            setLetters fuel rest
      else
        for letter in letters do
          if !isOptionLetter letter then
            return .error ("Illegal option -" ++ Script.bytesOf [letter])
          setOption letter (sign = '-')
        setLetters fuel rest
    | [] => return .ok (argument :: rest,true)

def setCommand (arguments : List Bytes) : Run Nat := do
  if arguments = [] then
    let text ← listing "" ((← get).values.map (·.1))
    lift (Utility.say text)
    return 0
  match ← setLetters (arguments.length + 1) arguments with
  | .error text => fail text
  | .ok (rest,replaces) =>
    if replaces then modify fun shell => { shell with arguments := rest }
    return 0

def shift (arguments : List Bytes) : Run Nat := do
  let count := match arguments with
    | [] => some 1
    | argument :: _ => Utility.readNat? argument
  match count with
  | none => fail ("Illegal number: " ++ arguments.headD [])
  | some n =>
    if n > (← get).arguments.length then fail "can't shift that many"
    else
      modify fun shell => { shell with arguments := shell.arguments.drop n }
      return 0

/-- The number that an argument is, or else the status of before. -/
def statusArgument (arguments : List Bytes) : Run Nat := do
  match arguments with
  | [] => return (← get).status
  | argument :: _ =>
    match Utility.readNat? argument with
    | some n => return n
    | none =>
      complain ("Illegal number: " ++ argument)
      exit 2

/-- Leaves loops; outside of loops nothing happens. -/
def leaveLoops (leave : Nat → Leave) (arguments : List Bytes) : Run Nat := do
  let levels := match arguments with
    | [] => some 1
    | argument :: _ => (Utility.readNat? argument).filter (· > 0)
  match levels with
  | none => fail ("Illegal number: " ++ arguments.headD [])
  | some n =>
    let loops := (← get).loops
    setStatus 0
    if loops > 0 then throw (leave (min n loops))
    return 0

/-! The directory and the mask -/

/-- Changes the directory. A path that goes up from a link goes back to where the link is. -/
def cd (arguments : List Bytes) : Run Nat := do
  let isPhysical := arguments.contains (ofString "-P")
  let arguments := arguments.filter fun a => a ≠ ofString "-P" && a ≠ ofString "-L"
  let target ← match arguments with
    | [] => value? "HOME"
    | p :: _ => if p = ofString "-" then value? "OLDPWD" else pure (some p)
  let target := target.getD []
  let old := (← get).directory
  let goal := if isPhysical then target else Path.absolute old target
  match ← lift (Task.attempt (.changeDirectory goal)) with
  | .error _ => fail ("can't cd to " ++ target)
  | .ok _ =>
    let here ← if isPhysical then lift Task.workingPath else pure goal
    modify fun shell => { shell with directory := here }
    assign "OLDPWD" old
    assign "PWD" here
    export_ "OLDPWD"
    export_ "PWD"
    if arguments.head? = some (ofString "-") then lift (Utility.say (here ++ [10]))
    return 0

def pwd (arguments : List Bytes) : Run Nat := do
  let here ← if arguments.contains (ofString "-P") then lift Task.workingPath
    else pure (← get).directory
  lift (Utility.say (here ++ [10]))
  return 0

def octalDigits (least n : Nat) : Bytes :=
  let digits := Utility.digitsIn 8 n
  List.replicate (least - digits.length) 48 ++ digits

/-- The rights that a mask leaves, as clauses. -/
def maskClauses (mask : Nat) : Bytes :=
  let clause (who : Bytes) (bits : Nat) : Bytes :=
    who ++ "=" ++ (if bits &&& 4 = 0 then ofString "r" else []) ++
      (if bits &&& 2 = 0 then ofString "w" else []) ++
      (if bits &&& 1 = 0 then ofString "x" else [])
  clause "u" (mask / 64 % 8) ++ "," ++ clause "g" (mask / 8 % 8) ++ "," ++ clause "o" (mask % 8)

def umask (arguments : List Bytes) : Run Nat := do
  let mask ← lift Task.mask
  match arguments with
  | [] =>
    lift (Utility.say (octalDigits 4 mask ++ [10]))
    return 0
  | argument :: _ =>
    if argument = ofString "-S" then
      lift (Utility.say (maskClauses mask ++ [10]))
      return 0
    if argument.all Utility.isDigit then
      match Utility.Mode.change? argument 0 false 0 with
      | some value =>
        lift (Task.perform (.setMask (value &&& 0o777)))
        return 0
      | none => fail ("Illegal number: " ++ argument)
    else match Utility.Mode.change? argument 0 true (Utility.Mode.without 0o777 mask) with
      | some kept =>
        lift (Task.perform (.setMask (Utility.Mode.without 0o777 kept)))
        return 0
      | none => fail ("Illegal mode: " ++ argument)

/-! Signals and programs in the background -/

/-- The condition of a trap: a signal, or the end. -/
def trapNumber? (b : Bytes) : Option Nat :=
  if (decode b).map Char.toUpper = "EXIT".toList then some 0 else Signal.number? b

def trap (arguments : List Bytes) : Run Nat := do
  let arguments := if arguments.head? = some (ofString "--") then arguments.drop 1 else arguments
  match arguments with
  | [] =>
    let shell ← get
    lift (Utility.say (shell.traps.flatMap fun (n,action) =>
      "trap -- " ++ quotedValue action ++ " " ++ Signal.word n ++ "\n"))
    return 0
  | action :: conditions =>
    let isReset := action = ofString "-" || conditions = [] || (Utility.readNat? action).isSome
    let conditions := if conditions = [] || (Utility.readNat? action).isSome then arguments
      else conditions
    for condition in conditions do
      match trapNumber? condition with
      | none =>
        lift (Task.write 2 ("trap: " ++ condition ++ ": bad trap\n"))
        return 1
      | some n =>
        modify fun shell =>
          let others := shell.traps.filter (·.1 ≠ n)
          { shell with traps := if isReset then others else others ++ [(n,action)] }
        if n ≠ 0 then
          lift (Task.perform (.handle n
            (if isReset then .default else if action = [] then .ignore else .catch_)))
    return 0

/-- Waits for all programs that were started. -/
def waitAll : (fuel : Nat) → Task Nat
  | 0 => return 0
  | fuel + 1 => do
    match ← Task.call (.wait none true) with
    | .ended _ _ => waitAll fuel
    | .signals (signal :: _) => return 128 + signal
    | _ => return 0

def wait (arguments : List Bytes) : Run Nat := do
  if arguments = [] then return ← lift (waitAll Task.maxPieces)
  let mut status := 0
  for argument in arguments do
    match Utility.readNat? argument with
    | none => status ← fail ("Illegal number: " ++ argument)
    | some n =>
      match ← lift (Task.call (.wait (some n) true)) with
      | .ended _ result =>
        if let .signaled signal := result then
          if let some text := Signal.report? signal then lift (Task.write 2 (text ++ [10]))
        status := Utility.statusCode result
      | .signals (signal :: _) => status := 128 + signal
      | _ => status := 127
  return status

/-- What a name means as a command. -/
def describe (name : Bytes) : Run (Option Bytes) := do
  let shell ← get
  if Script.reserved.any (ofString · = name) then return some " is a shell keyword"
  if shell.functions.any (·.1 = name) then return some " is a shell function"
  if isSpecial name then return some " is a special shell builtin"
  if isBuiltin name then return some " is a shell builtin"
  match ← findProgram name with
  | none => return none
  | some p =>
    if (← lift (Task.node? p)).isNone then return none
    return some (" is " ++ p)

def type (arguments : List Bytes) : Run Nat := do
  let mut status := 0
  for name in arguments do
    match ← describe name with
    | some text => lift (Utility.say (name ++ text ++ "\n"))
    | none =>
      lift (Utility.say (name ++ ": not found\n"))
      status := 127
  return status

/-- The short form of what a name means. -/
def commandPath (arguments : List Bytes) : Run Nat := do
  let mut status := 0
  for name in arguments do
    match ← describe name with
    | none => status := 127
    | some text =>
      let isPath := (ofString " is /").isPrefixOf text || (ofString " is .").isPrefixOf text
      lift (Utility.say ((if isPath then text.drop 4 else name) ++ [10]))
  return status

/-- Finds the next option in arguments. The name gets its letter, `OPTARG` its value, and `OPTIND`
the number of the argument where the search goes on. -/
def getopts (arguments : List Bytes) : Run Nat := do
  match arguments with
  | letters :: name :: rest =>
    let shell ← get
    let words := if rest = [] then shell.arguments else rest
    let index := (((← value? "OPTIND").bind Utility.readNat?).getD 1) - 1
    let word := (words[index]?).getD []
    let finish (next : Nat) : Run Nat := do
      assign "OPTIND" (decimal (next + 1))
      modify fun shell => { shell with optionOffset := 0 }
      assign name "?"
      return 1
    let offset := max 1 shell.optionOffset
    if word.head? ≠ some 45 || word.length < 2 then return ← finish index
    if word = ofString "--" then return ← finish (index + 1)
    let letter := (word[offset]?).getD 63
    let isLastLetter := offset + 1 ≥ word.length
    let goOn (next offset : Nat) : Run Unit := do
      assign "OPTIND" (decimal (next + 1))
      modify fun shell => { shell with optionOffset := offset }
    let isQuiet := letters.head? = some 58
    match letters.findIdx? (· = letter) with
    | some i =>
      if letter ≠ 58 then
        if letters[i + 1]? ≠ some 58 then
          goOn (if isLastLetter then index + 1 else index) (if isLastLetter then 0 else offset + 1)
          unset "OPTARG"
          assign name [letter]
        else if !isLastLetter then
          goOn (index + 1) 0
          assign "OPTARG" (word.drop (offset + 1))
          assign name [letter]
        else match words[index + 1]? with
          | some value =>
            goOn (index + 2) 0
            assign "OPTARG" value
            assign name [letter]
          | none =>
            goOn (index + 1) 0
            if isQuiet then
              assign "OPTARG" [letter]
              assign name ":"
            else
              lift (Task.write 2 (shell.name ++ ": " ++ decimal shell.line ++
                ": No arg for -" ++ [letter] ++ " option\n"))
              unset "OPTARG"
              assign name "?"
      return 0
    | none =>
      goOn (if isLastLetter then index + 1 else index) (if isLastLetter then 0 else offset + 1)
      if isQuiet then assign "OPTARG" [letter]
      else
        lift (Task.write 2 ("Illegal option -" ++ [letter] ++ "\n"))
        unset "OPTARG"
      assign name "?"
      return 0
  | _ => fail "Usage: getopts optstring var [arg...]"

/-- A command of the shell that needs no other command. -/
def builtin? (name : Bytes) : Option (List Bytes → Run Nat) :=
  match String.ofList (decode name) with
  | ":" | "true" => some fun _ => return 0
  | "false" => some fun _ => return 1
  | "alias" | "unalias" | "hash" | "jobs" | "bg" | "fg" | "times" | "ulimit" =>
    some fun _ => return 0
  | "echo" => some fun arguments => lift (Utility.echo arguments)
  | "printf" => some fun arguments => do lift (Utility.printf (← warning) arguments)
  | "test" => some fun arguments => do lift (Utility.test (← warning) false arguments)
  | "[" => some fun arguments => do lift (Utility.test (← warning) true arguments)
  | "kill" => some fun arguments => do lift (Utility.kill (← warning) arguments)
  | "pwd" => some pwd
  | "getopts" => some getopts
  | "cd" | "chdir" => some cd
  | "umask" => some umask
  | "read" => some read
  | "export" => some exportNames
  | "readonly" => some markReadOnly
  | "unset" => some unsetNames
  | "local" => some local_
  | "set" => some setCommand
  | "shift" => some shift
  | "trap" => some trap
  | "wait" => some wait
  | "type" => some type
  | "exit" => some fun arguments => do exit (← statusArgument arguments)
  | "return" => some fun arguments => do
    setStatus (← statusArgument arguments)
    throw (if (← get).calls > 0 then .return_ else .exit)
  | "break" => some (leaveLoops .break_)
  | "continue" => some (leaveLoops .continue_)
  | _ => none

end TeenyTiny.Model.Shell
