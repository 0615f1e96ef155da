import TeenyTiny.Model.Shell.Builtins

/-! Commands of a script, and programs from their start to their end. -/
namespace TeenyTiny.Model.Shell
open Text

/-- The nanoseconds that a command takes at least, and those that it takes to start a program. -/
def commandTime : Nat := 5000
def loadTime : Nat := 700000

/-- Where programs are searched if the environment does not say it. -/
def defaultPath : Bytes := "/usr/local/sbin:/usr/local/bin:/usr/sbin:/usr/bin:/sbin:/bin"

/-- The first of the descriptors that stay with the script. -/
def privateDescriptor : Nat := 10

/-- A descriptor, and the one at which its meaning of before is kept. -/
abbrev Saved := List (Nat × Option Nat)

/-- Keeps what a descriptor means. -/
def save (descriptor : Nat) (saved : Saved) : Task Saved := do
  if saved.any (·.1 = descriptor) then return saved
  match ← Task.call (.copyFrom descriptor privateDescriptor) with
  | .number copy => return (descriptor,some copy) :: saved
  | _ => return (descriptor,none) :: saved

/-- Gives descriptors their meanings of before. -/
def restore (saved : Saved) : Task Unit := do
  for (descriptor,copy) in saved do
    match copy with
    | some copy =>
      Task.perform (.copy copy descriptor)
      Task.perform (.close copy)
    | none => Task.perform (.close descriptor)

/-- Lets descriptors keep their new meanings. -/
def forget (saved : Saved) : Task Unit := do
  for (_,copy) in saved do
    if let some copy := copy then Task.perform (.close copy)

/-- Moves a descriptor to the place of another one. -/
def moveDescriptor (source target : Nat) : Task Unit := do
  if source ≠ target then
    Task.perform (.copy source target)
    Task.perform (.close source)

/-- Why a file cannot be opened. -/
def openFault (how : Access) (p : Path) (cause : Errno) : Bytes :=
  let isMissing := cause = .notFound || cause = .notDirectory
  if how.creates && how.writes then
    "cannot create " ++ p ++ ": " ++
      (if isMissing then ofString "Directory nonexistent" else Utility.reason cause)
  else "cannot open " ++ p ++ ": " ++
    (if isMissing then ofString "No such file" else Utility.reason cause)

/-- Opens what a redirection names; a fault is complained about. -/
def redirect (output : List Command → Run Bytes) (r : Redirection) : Run Bool := do
  match r with
  | .file descriptor how target =>
    let p ← expandOne output target
    let isKept := how.truncates && !how.isForced && (← hasOption 'C')
    let how := if isKept then { how with isExclusive := true } else how
    match ← lift (Task.openFile p how) with
    | .error cause =>
      complain (openFault how p cause)
      return false
    | .ok opened =>
      lift (moveDescriptor opened descriptor)
      return true
  | .copy descriptor source =>
    let text ← expandOne output source
    if text = ofString "-" then
      lift (Task.perform (.close descriptor))
      return true
    match (Utility.readNat? text).filter fun _ => text.length = 1 with
    | none =>
      modify fun shell => { shell with line := shell.readLine }
      abort "Syntax error: Bad fd number"
    | some n =>
      match ← lift (Task.attempt (.copy n descriptor)) with
      | .error cause =>
        complain (text ++ ": " ++ Utility.reason cause)
        return false
      | .ok _ => return true
  | .text descriptor document =>
    let text ← expandOne output document
    match ← lift (Task.call .pipe) with
    | .pair input out =>
      lift do
        Task.perform (.write out text.toByteArray)
        Task.perform (.close out)
        moveDescriptor input descriptor
      return true
    | _ => return false

def Redirection.descriptor : Redirection → Nat
  | .file descriptor .. => descriptor
  | .copy descriptor _ => descriptor
  | .text descriptor _ => descriptor

/-- Redirects streams one after the other, up to a fault; what they meant before is kept. -/
def redirectAll (output : List Command → Run Bytes) (redirections : List Redirection) :
    Run (Bool × Saved) := do
  let mut saved := []
  for r in redirections do
    saved ← lift (save (Redirection.descriptor r) saved)
    if !(← redirect output r) then return (false,saved)
  return (true,saved)

/-- Shows a command before it runs, if that is wanted. -/
def trace (settings : List (Bytes × Bytes)) (fields : List Bytes) : Run Unit := do
  if ← hasOption 'x' then
    let shown := settings.map (fun (name,value) => name ++ [61] ++ value) ++ fields
    lift (Task.write 2 (ofString "+ " ++ [32].intercalate shown ++ [10]))

/-- Signals that the script acts on go back to what they mean for other programs. -/
def forgetTraps : Run Unit := do
  for (signal,action) in (← get).traps do
    if signal ≠ 0 && action ≠ [] then lift (Task.perform (.handle signal .default))
  modify fun shell => { shell with traps := shell.traps.filter (·.2 = []) }

/-- The status of a program that was waited for, and a word about the signal that ended it. -/
def statusAfter (number : Nat) : Run Nat := do
  match ← lift (Task.call (.wait (some number) false)) with
  | .ended _ (.signaled signal) =>
    if let some text := Signal.report? signal then lift (Task.write 2 (text ++ [10]))
    return 128 + signal
  | .ended _ (.exited code) => return code
  | _ => return 0

/-- Options of the shell: those that were given, whether a command follows, and what is left. -/
structure Invocation where
  letters : List Char := []
  hasCommand : Bool := false
  rest : List Bytes

/-- One letter of an option; `o` takes a name from the next argument. -/
def Invocation.add (i : Invocation) (letter : Char) : Except Bytes Invocation :=
  if letter = 'c' then .ok { i with hasCommand := true }
  else if letter = 'o' then
    match i.rest with
    | [] => .ok i
    | name :: rest =>
      match optionNames.find? (ofString ·.1 = name) with
      | some (_,letter) => .ok { i with letters := i.letters ++ [letter], rest }
      | none => .error ("Illegal option -o " ++ name)
  else if isOptionLetter letter then .ok { i with letters := i.letters ++ [letter] }
  else .error ("Illegal option -" ++ Script.bytesOf [letter])

/-- Reads options up to the first argument that is none; each round takes an argument. -/
def Invocation.read : (fuel : Nat) → Invocation → Except Bytes Invocation
  | 0,i => .ok i
  | fuel + 1,i =>
    match i.rest with
    | [] => .ok i
    | argument :: rest =>
      if argument = ofString "-" || argument = ofString "--" then .ok { i with rest }
      else if argument.head? = some 45 then do
        let i ← (Script.charsOf (argument.drop 1)).foldlM Invocation.add { i with rest }
        Invocation.read fuel i
      else .ok i

/-- The path of the working directory; if it is gone, there is a complaint and no path. -/
def findWorkingPath : Task Path := do
  if ← Task.isDirectory "." then Task.workingPath
  else
    Task.write 2 "sh: 0: getcwd() failed: No such file or directory\n"
    return []

/-- What is known about the place of a command in the script. -/
structure Position where
  /-- Does somebody look at the status, so that a failure is no reason to end? -/
  isTested : Bool := false
  /-- Does nothing follow, so that a program may take the place of the script? -/
  isLast : Bool := false

mutual

/-- Commands one after the other. -/
def runCommands (at_ : Position) : (fuel : Nat) → List Command → Run Unit
  | 0,_ => exit 2
  | _ + 1,[] => pure ()
  | fuel + 1,command :: rest => do
    runCommand { at_ with isLast := at_.isLast && rest.isEmpty } fuel command
    runCommands at_ fuel rest

/-- Acts on signals that have come. -/
def runTraps : (fuel : Nat) → Run Unit
  | 0 => exit 2
  | fuel + 1 => do
    let shell ← get
    if shell.traps.any fun (signal,action) => signal ≠ 0 && action ≠ [] then
      match ← lift (Task.call .takeSignals) with
      | .signals found =>
        for signal in found do
          match shell.traps.find? (·.1 = signal) with
          | some (_,action) =>
            let status := (← get).status
            runText fuel action
            setStatus status
          | none => pure ()
      | _ => pure ()

/-- Runs a text as a script. -/
def runText : (fuel : Nat) → Bytes → Run Unit
  | 0,_ => exit 2
  | fuel + 1,text => runLines fuel (Script.Reader.ofBytes text)

/-- Reads a script line by line and runs the lines. -/
def runLines : (fuel : Nat) → Script.Reader → Run Unit
  | 0,_ => exit 2
  | fuel + 1,reader => do
    let outcome := reader.next
    if ← hasOption 'v' then
      let left := match outcome with
        | .ok (_,after) => after.rest.length
        | .error _ => 0
      let taken := reader.rest.take (reader.rest.length - left)
      lift (Task.write 2 (Script.bytesOf taken))
    match outcome with
    | .error fault =>
      modify fun shell => { shell with line := fault.line }
      complain fault.text
      exit 2
    | .ok (none,_) => pure ()
    | .ok (some commands,after) =>
      modify fun shell => { shell with readLine := after.line }
      runCommands {} fuel commands
      runLines fuel after

/-- What a command does at the end of the script. -/
def runEnd : (fuel : Nat) → Run Unit
  | 0 => pure ()
  | fuel + 1 => do
    match (← get).traps.find? (·.1 = 0) with
    | none => pure ()
    | some (_,action) =>
      let status := (← get).status
      modify fun shell => { shell with traps := shell.traps.filter (·.1 ≠ 0) }
      let isLeft ← tryCatch (do runText fuel action; pure false) fun _ => pure true
      if !isLeft then setStatus status

/-- A part of a script as a program of its own. -/
def asProgram : (fuel : Nat) → Run Unit → Shell → Task Nat
  | 0,_,_ => return 2
  | fuel + 1,body,shell => do
    let whole : Run Unit := do
      tryCatch body fun _ => pure ()
      tryCatch (runTraps fuel) fun _ => pure ()
      runEnd fuel
    let (_,shell) ← whole shell
    return shell.status

/-- Starts a part of a script beside the script itself; the result is its number. -/
def startPart : (fuel : Nat) → Run Unit → Run Nat
  | 0,_ => exit 2
  | fuel + 1,body => do
    let part : Run Unit := do
      modify fun shell => { shell with traps := shell.traps.filter (·.1 ≠ 0), loops := 0 }
      forgetTraps
      body
    lift (Task.fork (asProgram fuel part (← get)).process)

/-- What commands write. -/
def takeOutput : (fuel : Nat) → List Command → Run Bytes
  | 0,_ => exit 2
  | fuel + 1,body => do
    match ← lift (Task.call .pipe) with
    | .pair input out =>
      let number ← startPart fuel do
        lift (Task.perform (.close input))
        lift (moveDescriptor out 1)
        runCommands { isLast := true } fuel body
      lift (Task.perform (.close out))
      let block ← lift (Task.readAll input)
      lift (Task.perform (.close input))
      let outputStatus ← statusAfter number
      modify fun shell => { shell with outputStatus }
      return (block.toOption.getD ByteArray.empty).data.toList.filter (· ≠ 0)
    | _ => return []

/-- Ends the script after a failure that nobody looks at, if that is wanted. -/
def checkFailure (at_ : Position) : (fuel : Nat) → Run Unit
  | 0 => exit 2
  | _ + 1 => do
    let shell ← get
    if shell.status ≠ 0 && shell.letters.contains 'e' && !at_.isTested then throw .exit

def runCommand (at_ : Position) : (fuel : Nat) → Command → Run Unit
  | 0,_ => exit 2
  | fuel + 1,command => do
    runTraps fuel
    if ← hasOption 'n' then return
    match command with
    | .simple line assignments words redirections =>
      lift (Task.pause commandTime)
      modify fun shell => { shell with line }
      runSimple at_ fuel assignments words redirections
      checkFailure at_ fuel
    | .pipeline isNegated commands =>
      let inner : Position := { at_ with isTested := at_.isTested || isNegated, isLast := false }
      match commands with
      | [single] => runCommand inner fuel single
      | _ => runPipeline fuel none commands
      if isNegated then
        setStatus (if (← get).status = 0 then 1 else 0)
      else checkFailure at_ fuel
    | .andThen first second =>
      runCommand { isTested := true } fuel first
      if (← get).status = 0 then runCommand at_ fuel second
    | .orElse first second =>
      runCommand { isTested := true } fuel first
      if (← get).status ≠ 0 then runCommand at_ fuel second
    | .background command =>
      let number ← startPart fuel do
        match ← lift (Task.openFile "/dev/null" .input) with
        | .ok descriptor => lift (moveDescriptor descriptor 0)
        | .error _ => pure ()
        lift (Task.perform (.handle 2 .ignore))
        lift (Task.perform (.handle 3 .ignore))
        runPart fuel command
      modify fun shell => { shell with lastBackground := some number, status := 0 }
    | .subshell body =>
      let number ← startPart fuel (runCommands { at_ with isLast := true } fuel body)
      setStatus (← statusAfter number)
      checkFailure at_ fuel
    | .group body => runCommands { at_ with isLast := false } fuel body
    | .ifElse condition thenBody elseBody =>
      runCommands { isTested := true } fuel condition
      if (← get).status = 0 then runCommands { at_ with isLast := false } fuel thenBody
      else if elseBody.isEmpty then setStatus 0
      else runCommands { at_ with isLast := false } fuel elseBody
    | .loop expected condition body =>
      modify fun shell => { shell with loops := shell.loops + 1 }
      runLoop { at_ with isLast := false } fuel expected condition body 0
      modify fun shell => { shell with loops := shell.loops - 1 }
    | .forEach name words body =>
      let fields ← expandAll (takeOutput fuel) words
      modify fun shell => { shell with loops := shell.loops + 1, status := 0 }
      runEach { at_ with isLast := false } fuel name body fields
      modify fun shell => { shell with loops := shell.loops - 1 }
    | .choice subject items =>
      let text ← expandOne (takeOutput fuel) subject
      setStatus 0
      runChoice { at_ with isLast := false } fuel text items
    | .function name body =>
      modify fun shell =>
        { shell with
          functions := (name,body) :: shell.functions.filter (·.1 ≠ name), status := 0 }
    | .redirected line command redirections =>
      modify fun shell => { shell with line }
      let (isOpen,saved) ← redirectAll (takeOutput fuel) redirections
      let result ← tryCatch (do
        if isOpen then runCommand { at_ with isLast := false } fuel command else setStatus 2
        pure none) fun leave => pure (some leave)
      lift (restore saved)
      if let some leave := result then throw leave
      if !isOpen then checkFailure at_ fuel

/-- A command that is all that a program of its own does: its redirections stay. -/
def runPart : (fuel : Nat) → Command → Run Unit
  | 0,_ => exit 2
  | fuel + 1,command => do
    match command with
    | .redirected line inner redirections =>
      modify fun shell => { shell with line }
      let (isOpen,saved) ← redirectAll (takeOutput fuel) redirections
      lift (forget saved)
      if isOpen then runPart fuel inner else setStatus 2
    | .subshell body => runCommands { isLast := true } fuel body
    | _ => runCommand { isLast := true } fuel command

/-- The commands of a pipeline, each a program of its own; the input comes from a descriptor. -/
def runPipeline : (fuel : Nat) → Option Nat → List Command → Run Unit
  | 0,_,_ => exit 2
  | _ + 1,_,[] => pure ()
  | fuel + 1,input,command :: rest => do
    let (next,out) ← if rest.isEmpty then pure (none,none)
      else match ← lift (Task.call .pipe) with
        | .pair next out => pure (some next,some out)
        | _ => pure (none,none)
    let number ← startPart fuel do
      if let some descriptor := next then lift (Task.perform (.close descriptor))
      if let some descriptor := input then lift (moveDescriptor descriptor 0)
      if let some descriptor := out then lift (moveDescriptor descriptor 1)
      runPart fuel command
    if let some descriptor := input then lift (Task.perform (.close descriptor))
    if let some descriptor := out then lift (Task.perform (.close descriptor))
    runPipeline fuel next rest
    let status ← statusAfter number
    if rest.isEmpty then setStatus status

/-- A body of a loop. The result says whether the loop goes on. -/
def runBody (at_ : Position) : (fuel : Nat) → List Command → Run Bool
  | 0,_ => exit 2
  | fuel + 1,body =>
    tryCatch (do runCommands at_ fuel body; pure true) fun
      | .break_ levels => if levels > 1 then throw (.break_ (levels - 1)) else pure false
      | .continue_ levels => if levels > 1 then throw (.continue_ (levels - 1)) else pure true
      | leave => throw leave

def runLoop (at_ : Position) :
    (fuel : Nat) → Bool → List Command → List Command → (status : Nat) → Run Unit
  | 0,_,_,_,_ => exit 2
  | fuel + 1,expected,condition,body,status => do
    let goesOn ← runBody { isTested := true } fuel condition
    if goesOn && ((← get).status = 0) = expected then
      let goesOn ← runBody at_ fuel body
      if goesOn then runLoop at_ fuel expected condition body (← get).status
    else setStatus status

def runEach (at_ : Position) : (fuel : Nat) → Bytes → List Command → List Bytes → Run Unit
  | 0,_,_,_ => exit 2
  | _ + 1,_,_,[] => pure ()
  | fuel + 1,name,body,field :: rest => do
    assign name field
    if ← runBody at_ fuel body then runEach at_ fuel name body rest

def runChoice (at_ : Position) :
    (fuel : Nat) → Bytes → List (List Word × List Command) → Run Unit
  | 0,_,_ => exit 2
  | _ + 1,_,[] => pure ()
  | fuel + 1,text,(patterns,body) :: rest => do
    let mut isFound := false
    for pattern in patterns do
      if !isFound then
        let pieces ← expandPattern (takeOutput fuel) pattern
        isFound := Pattern.accepts pieces text
    if isFound then runCommands at_ fuel body else runChoice at_ fuel text rest

/-- A simple command: its words are put together first, then its streams are redirected, and then
values are given to names. -/
def runSimple (at_ : Position) :
    (fuel : Nat) → List (Bytes × Word) → List Word → List Redirection → Run Unit
  | 0,_,_,_ => exit 2
  | fuel + 1,assignments,words,redirections => do
    modify fun shell => { shell with outputStatus := 0 }
    let fields ← expandAll (takeOutput fuel) words
    let staysOpen := fields = [ofString "exec"]
    let (isOpen,saved) ← redirectAll (takeOutput fuel) redirections
    let saved ← if at_.isLast then do lift (forget saved); pure [] else pure saved
    let isSpecialName := fields.head?.any isSpecial
    let result ← tryCatch (do
      if !isOpen then
        setStatus 2
        if isSpecialName then throw .exit
      else
        let before ← get
        let settings ← assignments.mapM fun (name,w) => do
          let value ← expandOne (takeOutput fuel) w
          assign name value
          return (name,value)
        trace settings fields
        match fields with
        | [] => modify fun shell => { shell with status := shell.outputStatus }
        | name :: arguments =>
          runWithSettings at_ fuel before (settings.map (·.1)) name arguments
      pure none) fun leave => pure (some leave)
    lift (if staysOpen && isOpen then forget saved else restore saved)
    if let some leave := result then throw leave

/-- A command with values for names, which only a special one leaves behind. -/
def runWithSettings (at_ : Position) :
    (fuel : Nat) → (before : Shell) → (changed : List Bytes) → Bytes → List Bytes → Run Unit
  | 0,_,_,_,_ => exit 2
  | fuel + 1,before,changed,name,arguments => do
    if changed.isEmpty || isSpecial name then runNamed at_ fuel name arguments
    else
      for other in changed do export_ other
      let result ← tryCatch (do runNamed at_ fuel name arguments; pure none) fun leave =>
        pure (some leave)
      for other in changed do
        modify fun shell =>
          { shell with
            values := (before.values.find? (·.1 = other)).toList ++
              shell.values.filter (·.1 ≠ other)
            exported := if before.exported.contains other then shell.exported
              else shell.exported.filter (· ≠ other) }
      if let some leave := result then throw leave

/-- A function, a command of the shell, or a program. -/
def runNamed (at_ : Position) : (fuel : Nat) → Bytes → List Bytes → Run Unit
  | 0,_,_ => exit 2
  | fuel + 1,name,arguments => do
    match (← get).functions.find? (·.1 = name) with
    | some (_,body) =>
      if isSpecial name then runBuiltin at_ fuel name arguments
      else runFunction at_ fuel body arguments
    | none =>
      if isBuiltin name then runBuiltin at_ fuel name arguments
      else runExternal at_ fuel name arguments

def runFunction (at_ : Position) : (fuel : Nat) → Command → List Bytes → Run Unit
  | 0,_,_ => exit 2
  | fuel + 1,body,arguments => do
    let before ← get
    set { before with arguments, hidden := [], loops := 0, calls := before.calls + 1 }
    let result ← tryCatch (do runCommand { at_ with isLast := false } fuel body; pure none) fun
      | .return_ => pure none
      | leave => pure (some leave)
    modify fun shell =>
      { shell with
        arguments := before.arguments, hidden := before.hidden, loops := before.loops
        calls := before.calls
        values := shell.hidden.foldl (fun values (name,value) =>
          (value.map (name,·)).toList ++ values.filter (·.1 ≠ name)) shell.values }
    if let some leave := result then throw leave

/-- A command of the shell, under its name. -/
def runBuiltin (at_ : Position) : (fuel : Nat) → Bytes → List Bytes → Run Unit
  | 0,_,_ => exit 2
  | fuel + 1,name,arguments => do
    let before := (← get).context
    modify fun shell => { shell with context := name }
    let result ← tryCatch (do runInContext at_ fuel name arguments; pure none) fun leave =>
      pure (some leave)
    modify fun shell => { shell with context := before }
    if let some leave := result then throw leave

/-- Commands of the shell, with those that run other commands. -/
def runInContext (at_ : Position) : (fuel : Nat) → Bytes → List Bytes → Run Unit
  | 0,_,_ => exit 2
  | fuel + 1,name,arguments => do
    match builtin? name with
    | some command => setStatus (← command arguments)
    | none =>
      match String.ofList (decode name),arguments with
      | "eval",_ =>
        let text := [32].intercalate arguments
        setStatus 0
        runText fuel text
      | ".",[] => pure ()
      | ".",p :: _ =>
        let found ← if p.contains Path.slash then pure (some p) else findProgram p
        match ← lift (Task.readFile (found.getD p)) with
        | .ok block =>
          setStatus 0
          tryCatch (do
            modify fun shell => { shell with calls := shell.calls + 1, context := p }
            runText fuel block.data.toList
            modify fun shell => { shell with calls := shell.calls - 1 }) fun leave => do
              modify fun shell => { shell with calls := shell.calls - 1 }
              if leave ≠ .return_ then throw leave
        | .error _ =>
          abort (if p.contains Path.slash then "cannot open " ++ p ++ ": No such file"
            else p ++ ": not found")
      | "exec",[] => setStatus 0
      | "exec",name :: rest =>
        setStatus (← becomeProgram fuel name rest)
        throw .exit
      | "command",first :: rest =>
        if first = ofString "-v" || first = ofString "-V" then
          setStatus (← if first = ofString "-v" then commandPath rest else type rest)
        else
          let words := if first = ofString "-p" || first = ofString "--" then rest
            else first :: rest
          match words with
          | [] => setStatus 0
          | inner :: more =>
            modify fun shell => { shell with context := [] }
            if isBuiltin inner then runBuiltin at_ fuel inner more
            else runExternal at_ fuel inner more
      | _,_ => setStatus 0

/-- A program in the place of the script; the result is its status. -/
def becomeProgram : (fuel : Nat) → Bytes → List Bytes → Run Nat
  | 0,_,_ => exit 2
  | fuel + 1,name,arguments => do
    let found ← findProgram name
    let environment ← environment
    let result : Except Errno Nat ← match found with
      | none => pure (.error .notFound)
      | some p => do
        forgetTraps
        lift (startProgram fuel p name arguments environment)
    match result with
    | .ok status => return status
    | .error cause =>
      let isMissing := cause = .notFound || cause = .notDirectory
      complain (name ++ ": " ++
        if isMissing then ofString "not found" else Utility.reason cause)
      return if isMissing || cause = .loop || cause = .nameTooLong then 127 else 126

/-- A program beside the script, which waits for it. -/
def runExternal (at_ : Position) : (fuel : Nat) → Bytes → List Bytes → Run Unit
  | 0,_,_ => exit 2
  | fuel + 1,name,arguments => do
    if at_.isLast && (← get).traps.isEmpty then
      setStatus (← becomeProgram fuel name arguments)
    else if (← findProgram name).isNone then
      complain (name ++ ": not found")
      setStatus 127
    else
      let number ← startPart fuel do setStatus (← becomeProgram fuel name arguments)
      setStatus (← statusAfter number)

/-- Goes on as the program that a file is. A file that is no program is taken for a script. -/
def startProgram :
    (fuel : Nat) → Path → (name : Bytes) → List Bytes → Utility.Environment →
    Task (Except Errno Nat)
  | 0,_,_,_,_ => return .error .loop
  | fuel + 1,p,name,arguments,environment => do
    match ← Task.load p with
    | .ok program =>
      return .ok (← runProgram fuel (program.calledBy name) arguments environment)
    | .error .notExecutable =>
      return .ok (← runShell fuel "/bin/sh" (p :: arguments) environment)
    | .error cause => return .error cause

/-- A program from its start to its status. -/
def runProgram : (fuel : Nat) → Program → List Bytes → Utility.Environment → Task Nat
  | 0,_,_,_ => return 2
  | fuel + 1,program,arguments,environment => do
    Task.perform (.closeFrom privateDescriptor)
    Task.pause loadTime
    let arguments := program.arguments ++ arguments
    if program.utility = ofString "sh" || program.utility = ofString "dash" then
      runShell fuel program.self arguments environment
    else
      let launch : Utility.Launch := fun name arguments environment => do
        let path := (environment.find? (·.1 = ofString "PATH")).map (·.2)
        match ← searchPath name (path.getD "/bin:/usr/bin") with
        | none => return .error .notFound
        | some p => startProgram fuel p name arguments environment
      Utility.run launch program.utility arguments environment

/-- The shell as a command, called by a name: it runs a text, a file, or its standard input. -/
def runShell : (fuel : Nat) → (self : Bytes) → List Bytes → Utility.Environment → Task Nat
  | 0,_,_,_ => return 2
  | fuel + 1,self,arguments,environment => do
    let complain (text : Bytes) : Task Unit :=
      Task.write 2 (self ++ ": 0: " ++ text ++ "\n")
    let path := environment.find? (·.1 = ofString "PATH")
    let here ← findWorkingPath
    let start : Shell :=
      { name := self, number := ← Task.processNumber, directory := here
        values := (ofString "PWD",here) ::
          (path.getD (ofString "PATH",defaultPath)) ::
          (environment.filter fun (name,_) => name ≠ ofString "PWD" && name ≠ ofString "PATH")
        exported := (environment.map (·.1)).filter (· ≠ ofString "PWD") ++ [ofString "PWD"] }
    let run (letters : List Char) (name : Bytes) (arguments : List Bytes) (text : Bytes) :
        Task Nat :=
      asProgram fuel (runText fuel text) { start with name, arguments, letters }
    match Invocation.read (arguments.length + 1) { rest := arguments } with
    | .error text =>
      complain text
      return 2
    | .ok i =>
      match i.hasCommand,i.rest with
      | true,[] =>
        complain "-c requires an argument"
        return 2
      | true,text :: names => run i.letters (names.headD self) (names.drop 1) text
      | false,[] =>
        let block := (← Task.readAll 0).toOption.getD ByteArray.empty
        run i.letters self [] block.data.toList
      | false,file :: rest =>
        if i.letters.contains 's' then
          let block := (← Task.readAll 0).toOption.getD ByteArray.empty
          return ← run i.letters self i.rest block.data.toList
        match ← Task.readFile file with
        | .ok block => run i.letters file rest block.data.toList
        | .error cause =>
          complain (openFault .input file cause)
          return 2

end

/-- More steps than any script takes that ends. -/
def maxDepth : Nat := 1000000000

end TeenyTiny.Model.Shell
