import TeenyTiny.Path

/-! What the program asks of the machine it runs on: files, child programs, numbers and the time.
Everything above is written against this interface and for any monad. -/
namespace TeenyTiny
open Text

/-- Why the system refused a request. -/
inductive Errno where
  | notFound | notDirectory | isDirectory | exists_ | nameTooLong | permissionDenied
  | invalidArgument | notEmpty | notExecutable | argumentsTooLong | loop | notPermitted
  | noProcess | noChild | badDescriptor | noSpace | brokenPipe
  deriving DecidableEq, Repr

def Errno.message : Errno → String
  | notFound => "no such file or directory"
  | notDirectory => "not a directory"
  | isDirectory => "is a directory"
  | exists_ => "file exists"
  | nameTooLong => "file name too long"
  | permissionDenied => "permission denied"
  | invalidArgument => "invalid argument"
  | notEmpty => "directory not empty"
  | notExecutable => "exec format error"
  | argumentsTooLong => "argument list too long"
  | loop => "too many levels of symbolic links"
  | notPermitted => "operation not permitted"
  | noProcess => "no such process"
  | noChild => "no child processes"
  | badDescriptor => "bad file descriptor"
  | noSpace => "no space left on device"
  | brokenPipe => "broken pipe"

/-- A refused request with what it was about. -/
inductive HostError where
  | path (operation : String) (path : Path) (cause : Errno)
  /-- Every name of a form was taken. -/
  | namesTaken (operation : String) (form : Path)
  | rename (source target : Path) (cause : Errno)
  /-- There is no path to the working directory. -/
  | workingDirectory (cause : Errno)
  deriving DecidableEq, Repr

def HostError.message : HostError → Bytes
  | path operation p cause => operation ++ " " ++ p ++ ": " ++ cause.message
  | namesTaken operation form => operation ++ " " ++ form ++ ": file already exists"
  | rename source target cause => "rename " ++ source ++ " " ++ target ++ ": " ++ cause.message
  | workingDirectory cause => "getwd: " ++ cause.message

structure FileInfo where
  isDirectory : Bool
  mode : Nat
  deriving DecidableEq, Repr

/-- May the file be run? Any of the three execute bits will do. -/
def FileInfo.isRunnable (info : FileInfo) : Bool := info.mode &&& 0o111 != 0

inductive Channel where
  | out | err
  deriving DecidableEq, Repr

/-- How a child program ended. -/
inductive ExitStatus where
  | exited (code : Nat)
  | signaled (signal : Nat)
  deriving DecidableEq, Repr

/-- The names of the signals, from the first one on. -/
def signalNames : List String :=
  ["hangup","interrupt","quit","illegal instruction","trace/breakpoint trap","aborted",
   "bus error","floating point exception","killed","user defined signal 1",
   "segmentation fault","user defined signal 2","broken pipe","alarm clock","terminated",
   "stack fault","child exited","continued","stopped (signal)","stopped",
   "stopped (tty input)","stopped (tty output)","urgent I/O condition",
   "CPU time limit exceeded","file size limit exceeded","virtual timer expired",
   "profiling timer expired","window changed","I/O possible","power failure",
   "bad system call"]

/-- The name of a signal. Those without a name have a number. -/
def signalName (n : Nat) : Bytes :=
  match ("" :: signalNames)[n]? with
  | some name => if name = "" then "signal " ++ decimal n else name
  | none => "signal " ++ decimal n

def ExitStatus.message : ExitStatus → Bytes
  | exited code => "exit status " ++ decimal code
  | signaled signal => "signal: " ++ signalName signal

/-- Where the output of a child program goes. -/
inductive Streams where
  /-- It is read to its end, together with what programs write that the child has left behind. -/
  | captured
  /-- It goes where the output of this program goes. Only the child is waited for, so that programs
  it has left behind may write later. -/
  | shared
  deriving DecidableEq, Repr

/-- The end of a child program, with what was written so far, in order. If the output is captured,
its end may be after the limit. -/
structure Finished where
  status : ExitStatus
  /-- Had the limit passed when the last output was there? -/
  isOverdue : Bool := false
  output : List (Channel × ByteArray) := []

namespace Finished

/-- Everything written, whichever the channel. -/
def combined (f : Finished) : ByteArray :=
  f.output.foldl (fun block piece => block ++ piece.2) ByteArray.empty

def onChannel (f : Finished) (channel : Channel) : ByteArray :=
  ({ f with output := f.output.filter (·.1 = channel) } : Finished).combined

end Finished

/-- The machine. A file that is being written is named by its path. -/
structure Host (m : Type → Type) where
  workingDirectory : m (Except Errno Path)
  info : Path → m (Except Errno FileInfo)
  /-- As `info`, but a link at the end of the path is not followed. -/
  linkInfo : Path → m (Except Errno FileInfo)
  read : Path → m (Except Errno ByteArray)
  makeDirectory : Path → (mode : Nat) → m (Except Errno Unit)
  /-- Makes an empty file, which must not exist before. -/
  createFile : Path → m (Except Errno Unit)
  /-- Writes at the end of a file. -/
  append : Path → ByteArray → m (Except Errno Unit)
  setMode : Path → Nat → m (Except Errno Unit)
  close : Path → m (Except Errno Unit)
  /-- Gives a file a new name. A file that has the name already is replaced. -/
  rename : Path → Path → m (Except Errno Unit)
  remove : Path → m Unit
  removeTree : Path → m Unit
  randomNumber : m Nat
  /-- The time of day as `hh:mm:ss`. -/
  timeOfDay : m Bytes
  /-- Runs a program with arguments and standard input; a limit is in nanoseconds. -/
  execute : Path → List Bytes → (stdin : ByteArray) → Streams → (limit : Option Nat) →
    m (Except Errno Finished)

namespace Host

variable {m : Type → Type} [Monad m]

/-- The path from the root. A path that starts there needs no working directory. -/
def absolute (host : Host m) (p : Path) : m (Except HostError Path) := do
  if p.isAbsolute then return .ok (Path.clean p)
  match ← host.workingDirectory with
  | .ok here => return .ok (Path.absolute here p)
  | .error cause => return .error (.workingDirectory cause)

/-- Is there a directory at this path? -/
def isDirectory (host : Host m) (p : Path) : m Bool := do
  match ← host.info p with
  | .ok info => return info.isDirectory
  | .error _ => return false

/-- Is there a directory at this path, and no link to one? -/
def isOwnDirectory (host : Host m) (p : Path) : m Bool := do
  match ← host.linkInfo p with
  | .ok info => return info.isDirectory
  | .error _ => return false

/-- The mode of directories that stay. -/
def directoryMode : Nat := 0o755

/-- The mode of directories that are there for a while, for their owner only. -/
def temporaryMode : Nat := 0o700

/-- Makes a directory and those above it that are missing; `depth` bounds their number. -/
def makeDirectoriesWithin (host : Host m) : (depth : Nat) → Path → m (Except HostError Unit)
  | 0,_ => return .ok ()
  | depth + 1,p => do
    match ← host.info p with
    | .ok info =>
      return if info.isDirectory then .ok () else .error (.path "mkdir" p .notDirectory)
    | .error _ =>
      let above := Path.parent p
      if above ≠ [] then
        if let .error e ← host.makeDirectoriesWithin depth above then
          return .error e
      match ← host.makeDirectory p directoryMode with
      | .ok _ => return .ok ()
      | .error cause =>
        return if ← host.isOwnDirectory p then .ok () else .error (.path "mkdir" p cause)

/-- Makes a directory and those above it that are missing. -/
def makeDirectories (host : Host m) (p : Path) : m (Except HostError Unit) :=
  host.makeDirectoriesWithin (p.length + 1) p

/-- Tries names with a random number between `before` and `after` until `create` finds one free;
`taken` is the failure if none is. -/
def createFresh (host : Host m) (operation : String) (create : Path → m (Except Errno Unit))
    (before after : Bytes) (taken : HostError) : (attempts : Nat) → m (Except HostError Path)
  | 0 => return .error taken
  | attempts + 1 => do
    let p := before ++ decimal (← host.randomNumber) ++ after
    match ← create p with
    | .ok _ => return .ok p
    | .error .exists_ => host.createFresh operation create before after taken attempts
    | .error cause => return .error (.path operation p cause)

/-- Makes an empty file with a new name in a directory. -/
def createTemporaryFile (host : Host m) (directory : Path) (before after : Bytes) :
    m (Except HostError Path) :=
  let before := Path.child directory before
  host.createFresh "open" host.createFile before after
    (.namesTaken "createtemp" (before ++ "*" ++ after)) 10000

/-- Makes a directory with a new name in a directory. If that one is missing, the failure is about
it and not about the new name. The form of the taken names has the directory twice. -/
def createTemporaryDirectory (host : Host m) (directory : Path) (before : Bytes) :
    m (Except HostError Path) := do
  let create (p : Path) : m (Except Errno Unit) := host.makeDirectory p temporaryMode
  let before := Path.child directory before
  let taken := .namesTaken "mkdirtemp" (directory ++ "/" ++ before ++ "*")
  match ← host.createFresh "mkdir" create before [] taken 10000 with
  | .error (.path operation p .notFound) =>
    match ← host.info directory with
    | .error .notFound => return .error (.path "stat" directory .notFound)
    | _ => return .error (.path operation p .notFound)
  | outcome => return outcome

/-- Puts a file in the place of another one. A directory is never replaced. -/
def replace (host : Host m) (source target : Path) : m (Except HostError Unit) := do
  if ← host.isOwnDirectory target then
    match ← host.linkInfo source with
    | .error cause => return .error (.rename source target cause)
    | .ok _ => return .error (.rename source target .exists_)
  match ← host.rename source target with
  | .ok _ => return .ok ()
  | .error cause => return .error (.rename source target cause)

end Host
end TeenyTiny
