import TeenyTiny.Model.Program

/-! Running programs, seen from outside: a program makes a call, gets a reply and goes on, starts
another program beside itself, or ends. What the calls do is said elsewhere. -/
namespace TeenyTiny.Model

/-- How a file is opened. -/
structure Access where
  reads : Bool := false
  writes : Bool := false
  appends : Bool := false
  truncates : Bool := false
  /-- Is a missing file made? -/
  creates : Bool := false
  /-- Is a file that exists refused? -/
  isExclusive : Bool := false
  /-- Is a file replaced even if scripts are told not to? -/
  isForced : Bool := false
  deriving DecidableEq, Repr

namespace Access

def input : Access := { reads := true }

def output : Access := { writes := true, truncates := true, creates := true }

def forced : Access := { output with isForced := true }

def append : Access := { writes := true, appends := true, creates := true }

def both : Access := { reads := true, writes := true, creates := true }

end Access

/-- What a signal does to a program. -/
inductive Handling where
  | default | ignore | catch_
  deriving DecidableEq, Repr

/-- What a program asks of the machine. -/
inductive Call where
  | pause (nanoseconds : Nat)
  | openFile (p : Path) (how : Access)
  | close (descriptor : Nat)
  /-- Closes the descriptors from a number on. -/
  | closeFrom (least : Nat)
  /-- The program that a file is. -/
  | load (p : Path)
  | copy (source target : Nat)
  /-- The descriptor that is free from a number on is made to mean what another one means. -/
  | copyFrom (source least : Nat)
  | pipe
  | read (descriptor limit : Nat)
  | write (descriptor : Nat) (block : ByteArray)
  | info (p : Path) (follow : Bool)
  /-- What an open descriptor leads to. -/
  | opened (descriptor : Nat)
  | list (p : Path)
  | makeDirectory (p : Path) (mode : Nat)
  | removeDirectory (p : Path)
  | unlink (p : Path)
  | rename (source target : Path)
  | link (source target : Path)
  | symlink (target p : Path)
  /-- Puts a node where nothing is. -/
  | create (p : Path) (node : Node)
  | setMode (p : Path) (mode : Nat)
  | resize (p : Path) (size : Nat)
  | setMask (mask : Nat)
  | mask
  | changeDirectory (p : Path)
  | workingDirectory
  | processNumber
  /-- Waits for a program that was started, or for any. A signal to act on may end the wait. -/
  | wait (number : Option Nat) (isInterruptible : Bool)
  | kill (number signal : Nat)
  | handle (signal : Nat) (handling : Handling)
  /-- The signals that came and wait to be acted on. -/
  | takeSignals

/-- What the machine says to a call. -/
inductive Reply where
  | done
  | refused (cause : Errno)
  | number (n : Nat)
  | pair (first second : Nat)
  | block (b : ByteArray)
  | node (place : Place) (number : Nat) (n : Node)
  | names (found : List Bytes)
  | place (p : Place)
  | ended (number : Nat) (status : ExitStatus)
  | signals (found : List Nat)
  | program (p : Program)

/-- A running program, from its next step on. -/
inductive Process where
  | finish (status : ExitStatus)
  | call (c : Call) (next : Reply → Process)
  | fork (child : Process) (next : Nat → Process)

/-- A part of a program: what is to be done, and then what follows its result. -/
def Task (α : Type) : Type := (α → Process) → Process

namespace Task

instance : Monad Task where
  pure a := fun next => next a
  bind t f := fun next => t fun a => f a next

/-- Ends the program, whatever would follow. -/
def finish {α : Type} (status : ExitStatus) : Task α := fun _ => .finish status

def call (c : Call) : Task Reply := fun next => .call c next

/-- Starts a program beside this one; the result is its number. -/
def fork (child : Process) : Task Nat := fun next => .fork child next

/-- The program that does a task and ends with the status it gives. -/
def process (t : Task Nat) : Process := t fun code => .finish (.exited (code % 256))

/-- A call that is done or refused. -/
def attempt (c : Call) : Task (Except Errno Unit) := do
  match ← call c with
  | .refused cause => return .error cause
  | _ => return .ok ()

/-- A call whose reply does not matter. -/
def perform (c : Call) : Task Unit := do let _ ← call c

def pause (nanoseconds : Nat) : Task Unit := perform (.pause nanoseconds)

/-- Opens a file; the result is its descriptor. -/
def openFile (p : Path) (how : Access) : Task (Except Errno Nat) := do
  match ← call (.openFile p how) with
  | .number n => return .ok n
  | .refused cause => return .error cause
  | _ => return .error .badDescriptor

def read (descriptor limit : Nat) : Task (Except Errno ByteArray) := do
  match ← call (.read descriptor limit) with
  | .block b => return .ok b
  | .refused cause => return .error cause
  | _ => return .error .badDescriptor

def write (descriptor : Nat) (text : Bytes) : Task Unit :=
  if text = [] then pure () else perform (.write descriptor text.toByteArray)

/-- What a path names: where it is, its number, and the node. -/
def find (p : Path) (follow : Bool := true) : Task (Except Errno (Place × Nat × Node)) := do
  match ← call (.info p follow) with
  | .node place number n => return .ok (place,number,n)
  | .refused cause => return .error cause
  | _ => return .error .notFound

def node? (p : Path) (follow : Bool := true) : Task (Option Node) := do
  return (← find p follow).toOption.map fun (_,_,node) => node

def isDirectory (p : Path) : Task Bool := do return (← node? p).any Node.isDirectory

/-- The program that a file is. -/
def load (p : Path) : Task (Except Errno Program) := do
  match ← call (.load p) with
  | .program found => return .ok found
  | .refused cause => return .error cause
  | _ => return .error .notFound

def namesIn (p : Path) : Task (Except Errno (List Bytes)) := do
  match ← call (.list p) with
  | .names found => return .ok found
  | .refused cause => return .error cause
  | _ => return .error .notFound

def mask : Task Nat := do
  match ← call .mask with
  | .number n => return n
  | _ => return 0

/-- The number of this program. -/
def processNumber : Task Nat := do
  match ← call .processNumber with
  | .number n => return n
  | _ => return 0

def workingPlace : Task Place := do
  match ← call .workingDirectory with
  | .place p => return p
  | _ => return []

def workingPath : Task Path := do
  return Path.slash :: [Path.slash].intercalate (← workingPlace)

/-- More pieces than any input has. -/
def maxPieces : Nat := 1000000

/-- How much is read at a time. -/
def pieceSize : Nat := 65536

/-- Reads to the end. -/
def readAllAfter (descriptor : Nat) : (fuel : Nat) → ByteArray → Task (Except Errno ByteArray)
  | 0,found => return .ok found
  | fuel + 1,found => do
    match ← read descriptor pieceSize with
    | .error cause => return .error cause
    | .ok piece =>
      if piece.isEmpty then return .ok found
      readAllAfter descriptor fuel (found ++ piece)

def readAll (descriptor : Nat) : Task (Except Errno ByteArray) :=
  readAllAfter descriptor maxPieces ByteArray.empty

/-- Reads a file to its end. -/
def readFile (p : Path) : Task (Except Errno ByteArray) := do
  match ← openFile p .input with
  | .error cause => return .error cause
  | .ok descriptor =>
    let found ← readAll descriptor
    perform (.close descriptor)
    return found

end Task
end TeenyTiny.Model
