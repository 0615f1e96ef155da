import TeenyTiny.Model.Arithmetic
import TeenyTiny.Model.Signal
import TeenyTiny.Model.Utility.Condition
import TeenyTiny.Model.Utility.Edit
import TeenyTiny.Model.Utility.Files
import TeenyTiny.Model.Utility.Names

/-! Utilities that wait, send signals, calculate, or run other programs; and all utilities by
name. -/
namespace TeenyTiny.Model.Utility
open Text

abbrev Environment := List (Bytes × Bytes)

/-- Goes on as the program that a name stands for, up to its status, if it can be started. -/
abbrev Launch := (name : Bytes) → (arguments : List Bytes) → Environment → Task (Except Errno Nat)

/-- Goes on as a program, or complains that it cannot be started. -/
def become (launch : Launch) (utility : String) (wording : Bytes → Bytes) (name : Bytes)
    (arguments : List Bytes) (environment : Environment) : Task Nat := do
  match ← launch name arguments environment with
  | .ok status => return status
  | .error cause =>
    fail utility (wording name ++ ": " ++ reason cause) (if cause = .notFound then 127 else 126)

def failedToRun (name : Bytes) : Bytes := "failed to run command " ++ quoted name

/-- The nanoseconds of a time in seconds, which may have a point and a unit. -/
def sleepTime? (argument : Bytes) : Option Nat :=
  let whole := argument.takeWhile isDigit
  let (fraction,rest) := match argument.dropWhile isDigit with
    | 46 :: rest => (rest.takeWhile isDigit,rest.dropWhile isDigit)
    | rest => ([],rest)
  let unit : Option Nat := match decode rest with
    | [] | ['s'] => some 1
    | ['m'] => some 60
    | ['h'] => some 3600
    | ['d'] => some 86400
    | _ => none
  let parts := fraction.foldl (fun n _ => n * 10) 1
  if whole = [] && fraction = [] then
    if decode rest = "infinity".toList then some 1000000000000000000 else none
  else unit.map fun seconds =>
    (digitsValue whole * parts + digitsValue fraction) * seconds * 1000000000 / parts

def sleep (arguments : List Bytes) : Task Nat :=
  withOptions "sleep" {} arguments fun o => do
    match o.operands.find? fun a => (sleepTime? a).isNone with
    | some argument => misuse "sleep" ("invalid time interval " ++ quoted argument)
    | none =>
      if o.operands = [] then return ← misuse "sleep" "missing operand"
      Task.pause ((o.operands.filterMap sleepTime?).foldl (fun sum next => sum + next) 0)
      return 0

/-- Sends a signal to programs given by their numbers. -/
def sendSignals (warn : Bytes → Task Unit) (signal : Nat) (targets : List Bytes) : Task Nat :=
  forOperands targets fun target => do
    match readNat? target with
    | none =>
      if target.head? = some 37 then
        warn (reason .noProcess ++ "\n")
        return 1
      warn ("Illegal number: " ++ target)
      return 2
    | some number =>
      match ← Task.attempt (.kill number signal) with
      | .ok _ => return 0
      | .error cause =>
        warn (reason cause ++ "\n")
        return 1

def killUsage : String :=
  "Usage: kill [-s sigspec | -signum | -sigspec] [pid | job]... or\nkill -l [exitstatus]"

/-- Sends a signal, which is 15 if none is named. -/
def kill (warn : Bytes → Task Unit) (arguments : List Bytes) : Task Nat := do
  let usage : Task Nat := do
    warn killUsage
    return 2
  let send (signal : Nat) (targets : List Bytes) : Task Nat :=
    if targets = [] then usage else sendSignals warn signal targets
  match arguments with
  | [] => usage
  | first :: rest =>
    if first.head? ≠ some 45 then return ← send 15 arguments
    match Signal.number? (first.drop 1) with
    | some signal => send signal rest
    | none =>
      match decode first with
      | ['-','-'] => send 15 rest
      | ['-','l'] =>
        match rest with
        | [] => say (Signal.words.flatMap fun word => ofString word ++ [10])
        | code :: _ => say (Signal.word ((readNat? code).getD 0 % 128) ++ [10])
        return 0
      | '-' :: 's' :: more =>
        let (name,targets) := if more ≠ [] then (encode more,rest)
          else (rest.headD [],rest.drop 1)
        match Signal.number? name with
        | some signal => send signal targets
        | none =>
          warn ("invalid signal number or name: " ++ name)
          return 2
      | '-' :: c :: _ =>
        warn ("Illegal option -" ++ encode [c])
        return 2
      | _ => usage

/-! Calculating with arguments -/

inductive Value where
  | number (n : Int)
  | text (b : Bytes)

namespace Value

def ofBytes (b : Bytes) : Value :=
  match readInt? b with
  | some n => if b.head? = some 43 then text b else number n
  | none => text b

def bytes : Value → Bytes
  | number n => decimal n
  | text b => b

/-- Neither empty nor zero. -/
def isTrue : Value → Bool
  | number n => n ≠ 0
  | text b => b ≠ []

end Value

inductive ExprFault where
  | missingArgument (after : Bytes)
  | notNumeric
  | divisionByZero
  | unexpected (argument : Bytes)
  deriving DecidableEq, Repr

def ExprFault.message : ExprFault → Bytes
  | missingArgument after => "syntax error: missing argument after " ++ quoted after
  | notNumeric => "non-integer argument"
  | divisionByZero => "division by zero"
  | unexpected argument => "syntax error: unexpected argument " ++ quoted argument

namespace Calculation

abbrev Read := StateT (List Bytes) (Except ExprFault)

/-- Operators from those that bind least to those that bind most. -/
def levels : List (List String) :=
  [["|"],["&"],["<","<=","=","==","!=",">=",">"],["+","-"],["*","/","%"],[":"]]

/-- What an expression finds at the start of a text: the first group, or else the length. -/
def matchText (text pattern : Bytes) : Value :=
  let r := Regex.parse false pattern
  let hasGroup := r.any fun
    | .group _ _ => true
    | _ => false
  let block := text.toByteArray
  match Regex.matchFrom block Regex.maxMatch r 0 [] with
  | none => if hasGroup then .text [] else .number 0
  | some (stop,groups) =>
    match groups.find? (·.1 = 1) with
    | some (_,first,last) => .text (block.extract first last).data.toList
    | none => .number stop

def apply (operator : String) (a b : Value) : Except ExprFault Value := do
  let compare (onNumbers : Int → Int → Bool) (onTexts : Bytes → Bytes → Bool) : Value :=
    .number (Arithmetic.ofBool (match a,b with
      | .number m,.number n => onNumbers m n
      | _,_ => onTexts a.bytes b.bytes))
  let calculate (f : Int → Int → Except ExprFault Int) : Except ExprFault Value :=
    match a,b with
    | .number m,.number n => (f m n).map .number
    | _,_ => throw .notNumeric
  match operator with
  | "|" => return if a.isTrue then a else if b.isTrue then b else .number 0
  | "&" => return if a.isTrue && b.isTrue then a else .number 0
  | "<" => return compare (fun m n => m < n) fun x y => decide (x < y)
  | "<=" => return compare (fun m n => m ≤ n) fun x y => !decide (y < x)
  | ">" => return compare (fun m n => m > n) fun x y => decide (y < x)
  | ">=" => return compare (fun m n => m ≥ n) fun x y => !decide (x < y)
  | "!=" => return compare (fun m n => m ≠ n) fun x y => x ≠ y
  | "+" => calculate fun m n => .ok (m + n)
  | "-" => calculate fun m n => .ok (m - n)
  | "*" => calculate fun m n => .ok (m * n)
  | "/" => calculate fun m n => if n = 0 then .error .divisionByZero else .ok (m.tdiv n)
  | "%" => calculate fun m n => if n = 0 then .error .divisionByZero else .ok (m.tmod n)
  | ":" => return matchText a.bytes b.bytes
  | _ => return compare (fun m n => m = n) fun x y => x = y

mutual

def readLevel : (fuel : Nat) → (last : Bytes) → List (List String) → Read Value
  | 0,last,_ => throw (.missingArgument last)
  | fuel + 1,last,[] => do
    match ← get with
    | [] => throw (.missingArgument last)
    | argument :: rest =>
      set rest
      match decode argument,rest with
      | ['('],_ =>
        let value ← readLevel fuel argument levels
        match ← get with
        | closing :: rest =>
          if closing ≠ ofString ")" then throw (.unexpected closing)
          set rest
          return value
        | [] => throw (.missingArgument argument)
      | ['l','e','n','g','t','h'],text :: rest =>
        set rest
        return .number text.length
      | ['s','u','b','s','t','r'],text :: start :: size :: rest =>
        set rest
        match readNat? start,readNat? size with
        | some start,some size => return .text ((text.drop (start - 1)).take size)
        | _,_ => return .text []
      | ['i','n','d','e','x'],text :: set_ :: rest =>
        set rest
        return .number (((text.findIdx? set_.contains).map (· + 1)).getD 0 : Nat)
      | _,_ => return .ofBytes argument
  | fuel + 1,last,level :: rest => do
    readRest fuel level rest (← readLevel fuel last rest)

def readRest : (fuel : Nat) → List String → List (List String) → Value → Read Value
  | 0,_,_,left => return left
  | fuel + 1,level,rest,left => do
    match ← get with
    | operator :: after =>
      match level.find? (ofString · = operator) with
      | none => return left
      | some text =>
        set after
        let right ← readLevel fuel operator rest
        readRest fuel level rest (← apply text left right)
    | [] => return left

end

end Calculation

def expr (arguments : List Bytes) : Task Nat := do
  if arguments = [] then return ← misuse "expr" "missing operand" 2
  let fuel := 16 * arguments.length + 16
  match (Calculation.readLevel fuel [] Calculation.levels).run arguments with
  | .error fault => fail "expr" fault.message 2
  | .ok (_,extra :: _) => fail "expr" (ExprFault.unexpected extra).message 2
  | .ok (value,[]) =>
    say (value.bytes ++ [10])
    return if value.isTrue then 0 else 1

/-! Running other programs -/

/-- The status of a program that has ended, as a number. -/
def statusCode : ExitStatus → Nat
  | .exited code => code
  | .signaled signal => 128 + signal

/-- Runs a program beside this one and waits for its end. -/
def runAndWait (program : Task Nat) : Task ExitStatus := do
  let number ← Task.fork program.process
  match ← Task.call (.wait (some number) false) with
  | .ended _ status => return status
  | _ => return .exited 0

/-- Splits `name=value`. -/
def setting? (argument : Bytes) : Option (Bytes × Bytes) :=
  let name := argument.takeWhile (· ≠ 61)
  if name.length < argument.length then some (name,argument.drop (name.length + 1)) else none

def environmentText (environment : Environment) : Bytes :=
  environment.flatMap fun (name,value) => name ++ [61] ++ value ++ [10]

def setValue (environment : Environment) (name value : Bytes) : Environment :=
  environment.filter (·.1 ≠ name) ++ [(name,value)]

def env (launch : Launch) (environment : Environment) (arguments : List Bytes) : Task Nat :=
  let table : OptionTable := { plain := ['i'], valued := ['u'], isOrdered := true, status := 125 }
  withOptions "env" table arguments fun o => do
    let start := if o.has 'i' then []
      else environment.filter fun (name,_) => !o.values.any (·.2 = name)
    let settings := o.operands.takeWhile fun a => (setting? a).isSome
    let changed := (settings.filterMap setting?).foldl
      (fun found (name,value) => setValue found name value) start
    match o.operands.drop settings.length with
    | [] =>
      say (environmentText changed)
      return 0
    | name :: rest => become launch "env" quoted name rest changed

def printenv (environment : Environment) (arguments : List Bytes) : Task Nat := do
  if arguments = [] then
    say (environmentText environment)
    return 0
  forOperands arguments fun name => do
    match environment.find? (·.1 = name) with
    | some (_,value) =>
      say (value ++ [10])
      return 0
    | none => return 1

/-- Runs a program, and ends it by a signal when its time is over. -/
def timeout (launch : Launch) (environment : Environment) (arguments : List Bytes) : Task Nat :=
  let table : OptionTable :=
    { plain := ['v','f'], valued := ['s','k'], isOrdered := true, status := 125 }
  withOptions "timeout" table arguments
    fun o => do
      match o.operands with
      | time :: name :: rest =>
        match sleepTime? time,((o.value? 's').map Signal.number?).getD (some 15) with
        | some limit,some signal =>
          let number ← Task.fork
            (become launch "timeout" failedToRun name rest environment).process
          let clock ← Task.fork (Task.process do
            Task.pause limit
            Task.perform (.kill number signal)
            return 0)
          match ← Task.call (.wait (some number) false) with
          | .ended _ status =>
            let isExpired := match ← Task.call (.kill clock 9) with
              | .refused _ => true
              | _ => false
            let _ ← Task.call (.wait (some clock) false)
            if status = .signaled 9 && signal = 9 then Task.finish status
            return if isExpired || status = .signaled signal then 124 else statusCode status
          | _ => return 125
        | _,_ => misuse "timeout" ("invalid time interval " ++ quoted time) 125
      | _ =>
        Task.write 2 "Try 'timeout --help' for more information.\n"
        return 125

/-- Runs a program with more arguments, which come from the standard input. -/
def xargs (launch : Launch) (environment : Environment) (arguments : List Bytes) : Task Nat :=
  let table : OptionTable :=
    { plain := ['r','t','0'], valued := ['n','I'], isOrdered := true }
  withOptions "xargs" table arguments fun o => do
      let block := (← Task.readAll 0).toOption.getD ByteArray.empty
      let spaced := block.data.toList.map fun b => if isSpaceByte b then 32 else b
      let words := (splitOn 32 spaced).filter (· ≠ [])
      let program := if o.operands = [] then [ofString "echo"] else o.operands
      if words = [] && o.has 'r' then return 0
      let size := ((o.value? 'n').bind readNat?).getD (words.length + 1)
      let groups := if words = [] then [[]]
        else (List.range ((words.length + size - 1) / size)).map fun i =>
          (words.drop (i * size)).take size
      let status ← forOperands groups fun group => do
        return statusCode (← runAndWait
          (become launch "xargs" id (program.headD []) (program.drop 1 ++ group) environment))
      return if status = 0 then 0 else if status ≥ 126 then status else 123

/-- A utility by its name, other than the shell. -/
def run (launch : Launch) (name : Bytes) (arguments : List Bytes) (environment : Environment) :
    Task Nat :=
  match String.ofList (decode name) with
  | "true" | "sync" => return 0
  | "false" => return 1
  | "echo" => echoProgram arguments
  | "printf" => printf (complain "printf") arguments
  | "test" => test (complain "test") false arguments
  | "[" => test (complain "[") true arguments
  | "cat" => cat arguments
  | "cp" => cp arguments
  | "mv" => mv arguments
  | "rm" => rm arguments
  | "unlink" => rm arguments
  | "rmdir" => rmdir arguments
  | "mkdir" => mkdir arguments
  | "touch" => touch arguments
  | "ln" | "link" => ln arguments
  | "chmod" => chmod arguments
  | "truncate" => truncate arguments
  | "sleep" => sleep arguments
  | "pwd" => pwd
  | "ls" => ls arguments
  | "basename" => basename arguments
  | "dirname" => dirname arguments
  | "readlink" => readlink arguments
  | "realpath" => realpath arguments
  | "stat" => stat arguments
  | "head" => head arguments
  | "tail" => tail arguments
  | "tac" => tac arguments
  | "wc" => wc arguments
  | "tr" => tr arguments
  | "sort" => sort arguments
  | "uniq" => uniq arguments
  | "cut" => cut arguments
  | "seq" => seq arguments
  | "tee" => tee arguments
  | "grep" => grep arguments
  | "sed" => sed arguments
  | "cmp" => cmp arguments
  | "yes" => yes arguments
  | "kill" => kill (complain "kill") arguments
  | "expr" => expr arguments
  | "env" => env launch environment arguments
  | "printenv" => printenv environment arguments
  | "timeout" => timeout launch environment arguments
  | "xargs" => xargs launch environment arguments
  | "nohup" =>
    match arguments with
    | [] => misuse "nohup" "missing operand" 125
    | name :: rest => become launch "nohup" failedToRun name rest environment
  | "id" => do
    say (if arguments = [] then "uid=0(root) gid=0(root) groups=0(root)\n" else "0\n")
    return 0
  | "whoami" => do
    say "root\n"
    return 0
  | "uname" => do
    say "Linux\n"
    return 0
  | _ => return 0

end TeenyTiny.Model.Utility
