import Std.Time.DateTime.Timestamp
import TeenyTiny.Command.Execute

/-! The command line on a real machine. Files are real; other programs are never started, so that
every compiler counts as a file that may not be run. -/
namespace TeenyTiny.Terminal
open Text

def textOf (b : Bytes) : String := String.ofList (decode b)

def errnoOf : IO.Error → Errno
  | .noFileOrDirectory .. | .noSuchThing .. => .notFound
  | .alreadyExists .. => .exists_
  | .inappropriateType .. => .notDirectory
  | .invalidArgument .. => .invalidArgument
  | .unsatisfiedConstraints .. => .notEmpty
  | .resourceExhausted .. => .nameTooLong
  | _ => .permissionDenied

def attempt {α : Type} (action : IO α) : IO (Except Errno α) := do
  match ← action.toBaseIO with
  | .ok result => return .ok result
  | .error e => return .error (errnoOf e)

def infoOf (metadata : IO.FS.Metadata) : FileInfo :=
  if metadata.type == .dir then ⟨true,0o755⟩ else ⟨false,0o644⟩

def info (p : Path) : IO (Except Errno FileInfo) := attempt do
  let entry : IO.FS.DirEntry := ⟨".",textOf p⟩
  return infoOf (← entry.path.metadata)

def linkInfo (p : Path) : IO (Except Errno FileInfo) := attempt do
  let entry : IO.FS.DirEntry := ⟨".",textOf p⟩
  return infoOf (← entry.path.symlinkMetadata)

/-- Three bits of a mode: to read, to write and to run. -/
def rights (bits : Nat) : IO.AccessRight :=
  ⟨bits.testBit 2,bits.testBit 1,bits.testBit 0⟩

def setRights (p : Path) (mode : Nat) : IO Unit :=
  IO.setAccessRights (textOf p) ⟨rights (mode / 64),rights (mode / 8),rights mode⟩

/-- Two digits of a clock. -/
def clockDigits (n : Nat) : Bytes := if n < 10 then "0" ++ decimal n else decimal n

def timeOfDay : IO Bytes := do
  let seconds := (← Std.Time.Timestamp.now).toSecondsSinceUnixEpoch.val.toNat % 86400
  return clockDigits (seconds / 3600) ++ ":" ++ clockDigits (seconds / 60 % 60) ++ ":" ++
    clockDigits (seconds % 60)

def host : Host IO where
  workingDirectory := attempt do return ofString (← IO.currentDir).toString
  info := info
  linkInfo := linkInfo
  read p := attempt (IO.FS.readBinFile (textOf p))
  makeDirectory p mode := attempt do
    IO.FS.createDir (textOf p)
    setRights p mode
  createFile p := attempt do
    let _ ← IO.FS.Handle.mk (textOf p) .writeNew
  append p block := attempt do
    let file ← IO.FS.Handle.mk (textOf p) .append
    file.write block
    file.flush
  setMode p mode := attempt (setRights p mode)
  close _ := return .ok ()
  rename source target := attempt (IO.FS.rename (textOf source) (textOf target))
  remove p := discard (attempt (IO.FS.removeFile (textOf p)))
  removeTree p := discard (attempt (IO.FS.removeDirAll (textOf p)))
  randomNumber := IO.rand 0 4294967295
  timeOfDay := timeOfDay
  execute _ _ _ _ _ := return .error .permissionDenied

def surroundings : IO Surroundings := do
  let setting (name : String) : IO Bytes := return ofString ((← IO.getEnv name).getD "")
  let scratch ← setting "TMPDIR"
  return {
    compiler := ← setting "CC"
    searchPath := splitOn 58 (← setting "PATH")
    temporaryDirectory := if scratch = [] then "/tmp" else scratch }

end TeenyTiny.Terminal

open TeenyTiny in
def main (arguments : List String) : IO UInt32 := do
  let (status,printed) ← Command.runProgram Terminal.host (← Terminal.surroundings)
    (arguments.map Text.ofString) ByteArray.empty
  (← IO.getStdout).write printed.out
  (← IO.getStderr).write printed.err
  return status.toUInt32
