import TeenyTiny.Model.Script
import TeenyTiny.Model.Utility.Programs

/-! The state of a script that runs. -/
namespace TeenyTiny.Model
open Text

/-- Ways to leave commands early: a number of loops, a function, or the script. -/
inductive Leave where
  | break_ (levels : Nat)
  | continue_ (levels : Nat)
  | return_
  | exit
  deriving DecidableEq, Repr

structure Shell where
  /-- The name it was called by, and its number. -/
  name : Bytes := []
  number : Nat := 0
  arguments : List Bytes := []
  values : List (Bytes × Bytes) := []
  /-- Names whose values programs find in their environment. -/
  exported : List Bytes := []
  readOnly : List Bytes := []
  functions : List (Bytes × Command) := []
  status : Nat := 0
  /-- The status of the last command whose output was taken. -/
  outputStatus : Nat := 0
  lastBackground : Option Nat := none
  /-- Options that are on. -/
  letters : List Char := []
  /-- What is done at the end, which has the number 0, and on signals. -/
  traps : List (Nat × Bytes) := []
  line : Nat := 0
  /-- The line up to which the script has been read. -/
  readLine : Nat := 0
  /-- The command of the shell that runs, in which others may be nested. -/
  context : Bytes := []
  /-- The working directory as it was reached, links included. -/
  directory : Path := []
  /-- How many letters of an argument the search for options has passed. -/
  optionOffset : Nat := 0
  /-- The values that names had before a function took them for itself. -/
  hidden : List (Bytes × Option Bytes) := []
  /-- How many loops and functions there are around the present command. -/
  loops : Nat := 0
  calls : Nat := 0

namespace Shell

/-- A part of a script's run. -/
abbrev Run := ExceptT Leave (StateT Shell Task)

def lift {α : Type} (t : Task α) : Run α := fun shell => do return (.ok (← t),shell)

def setStatus (status : Nat) : Run Unit := modify fun shell => { shell with status }

/-- Ends the script with a status. -/
def exit {α : Type} (status : Nat) : Run α := do
  setStatus (status % 256)
  throw .exit

/-- What complaints of the script begin with: its name, the line, and the command of the shell. -/
def complaintStart : Run Bytes := do
  let shell ← get
  let command : Bytes := if shell.context = [] then [] else shell.context ++ ": "
  return shell.name ++ ": " ++ decimal shell.line ++ ": " ++ command

/-- A complaint of the script itself. -/
def complain (text : Bytes) : Run Unit := do
  lift (Task.write 2 ((← complaintStart) ++ text ++ "\n"))

/-- A complaint that ends the script. -/
def abort {α : Type} (text : Bytes) : Run α := do
  complain text
  exit 2

def hasOption (letter : Char) : Run Bool := return (← get).letters.contains letter

def setOption (letter : Char) (isOn : Bool) : Run Unit := modify fun shell =>
  let others := shell.letters.filter (· ≠ letter)
  { shell with letters := if isOn then others ++ [letter] else others }

def value? (name : Bytes) : Run (Option Bytes) :=
  return ((← get).values.find? (·.1 = name)).map (·.2)

def export_ (name : Bytes) : Run Unit := modify fun shell =>
  { shell with
    exported := if shell.exported.contains name then shell.exported else shell.exported ++ [name] }

/-- Gives a name a value, unless it is read only. -/
def assign (name value : Bytes) : Run Unit := do
  let shell ← get
  if shell.readOnly.contains name then abort (name ++ ": is read only")
  set { shell with values := (name,value) :: shell.values.filter (·.1 ≠ name) }
  if shell.letters.contains 'a' then export_ name

def unset (name : Bytes) : Run Unit := do
  let shell ← get
  if shell.readOnly.contains name then abort (name ++ ": is read only")
  set { shell with
    values := shell.values.filter (·.1 ≠ name)
    exported := shell.exported.filter (· ≠ name) }

/-- The place of a name in the table of names. -/
def bucket (name : Bytes) : Nat :=
  name.foldl (fun sum b => sum + b.toNat) ((name.headD 0).toNat * 16) % 39

/-- The environment of programs that are started, in the order of the table. -/
def environment : Run Utility.Environment := do
  let shell ← get
  let sorted := shell.exported.mergeSort fun a b => bucket a ≤ bucket b
  return sorted.filterMap fun name => shell.values.find? (·.1 = name)

/-- Long names of options and their letters. -/
def optionNames : List (String × Char) :=
  [("errexit",'e'),("noglob",'f'),("ignoreeof",'I'),("interactive",'i'),("monitor",'m'),
   ("noexec",'n'),("stdin",'s'),("xtrace",'x'),("verbose",'v'),("vi",'V'),
   ("emacs",'E'),("noclobber",'C'),("allexport",'a'),("notify",'b'),("nounset",'u'),
   ("nolog",' '),("debug",' ')]

def isOptionLetter (c : Char) : Bool := c ≠ ' ' && optionNames.any (·.2 = c)

end Shell
end TeenyTiny.Model
