import TeenyTiny.Duration
import TeenyTiny.Host
import TeenyTiny.Text.Blank

/-! The C compiler of the machine: finding it, building with it, and running what it built. -/
namespace TeenyTiny
open Text

/-- What the program knows of its surroundings. -/
structure Surroundings where
  /-- The compiler the user prefers, empty if there is no preference. -/
  compiler : Bytes
  /-- The directories in which commands are looked for. -/
  searchPath : List Path
  temporaryDirectory : Path
  /-- Where the output goes of programs that are run. -/
  streams : Streams := .captured

/-- Why no program was found for a command. -/
inductive LookupError where
  | host (e : HostError)
  | cause (e : Errno)
  | notInPath
  deriving DecidableEq, Repr

def LookupError.message : LookupError → Bytes
  | host e => e.message
  | cause e => e.message
  | notInPath => "executable file not found in $PATH"

/-- How a child program failed: it could not be started, or it ended badly. -/
inductive ChildError where
  | start (e : HostError)
  | status (s : ExitStatus)
  deriving DecidableEq, Repr

def ChildError.message : ChildError → Bytes
  | start e => e.message
  | status s => s.message

inductive BuildError where
  | noCompiler
  | notFound (compiler : Bytes) (e : LookupError)
  | failed (compiler : Bytes) (e : ChildError) (output : Bytes)
  | timedOut (compiler : Bytes) (limit : Duration)
  deriving DecidableEq, Repr

def BuildError.message : BuildError → Bytes
  | noCompiler => "no C compiler found"
  | notFound compiler e =>
    "no C compiler found: " ++ compiler ++ ": exec: " ++ quoted compiler ++ ": " ++ e.message
  | failed compiler e output => compiler ++ " failed: " ++ e.message ++ "\n" ++ trim output
  | timedOut compiler limit => compiler ++ " timed out after " ++ limit.text

/-- Why a binary did not run to a good end. -/
inductive RunError where
  /-- There is no path to it. -/
  | noPath (e : HostError)
  | failed (binary : Path) (e : ChildError)
  deriving DecidableEq, Repr

def RunError.message : RunError → Bytes
  | noPath e => e.message
  | failed binary e => "run " ++ Path.base binary ++ ": " ++ e.message

/-- The path of the executable that belongs to a C file. -/
def binaryPath (cFile : Path) : Path := Path.dropExtension cFile

/-- How to call the C compiler. A limit that is not positive is none. -/
structure Toolchain where
  compiler : Bytes
  flags : List Bytes := []
  limit : Duration := 30 * Duration.second
  deriving DecidableEq, Repr

namespace Toolchain

/-- The preferred compiler, or `cc`. -/
def default (preferred : Bytes) : Toolchain :=
  { compiler := if preferred = [] then "cc" else preferred }

variable {m : Type → Type} [Monad m]

/-- Can the file be run as a program? -/
def checkRunnable (host : Host m) (p : Path) : m (Except LookupError Unit) := do
  match ← host.info p with
  | .error cause => return .error (.host (.path "stat" p cause))
  | .ok info =>
    return if info.isDirectory then .error (.cause .isDirectory)
      else if info.isRunnable then .ok ()
      else .error (.cause .permissionDenied)

/-- The first directory in which there is a program of this name. -/
def searchIn (host : Host m) (name : Bytes) : List Path → m (Except LookupError Path)
  | [] => return .error .notInPath
  | directory :: rest => do
    let p := Path.clean (Path.child directory name)
    match ← checkRunnable host p with
    | .ok _ => return .ok p
    | .error _ => searchIn host name rest

/-- The program for a command: a command with a slash is a path, any other is searched. -/
def lookUp (host : Host m) (searchPath : List Path) (command : Bytes) :
    m (Except LookupError Path) := do
  if command.contains Path.slash then
    match ← checkRunnable host command with
    | .ok _ => return .ok command
    | .error e => return .error e
  else searchIn host command searchPath

/-- The program of the compiler. -/
def find (host : Host m) (searchPath : List Path) (t : Toolchain) :
    m (Except BuildError Path) := do
  if t.compiler = [] then return .error .noCompiler
  match ← lookUp host searchPath t.compiler with
  | .ok p => return .ok p
  | .error e => return .error (.notFound t.compiler e)

/-- Runs a program and tells how it failed. -/
def runChild (host : Host m) (p : Path) (arguments : List Bytes) (stdin : ByteArray)
    (streams : Streams) (limit : Option Nat) : m (Except ChildError Unit × Finished) := do
  match ← host.execute p arguments stdin streams limit with
  | .error cause =>
    return (.error (.start (.path "fork/exec" p cause)),{ status := .exited 0 })
  | .ok finished =>
    if finished.status = .exited 0 then return (.ok (),finished)
    return (.error (.status finished.status),finished)

/-- Compiles a C file into an executable. -/
def build (host : Host m) (searchPath : List Path) (t : Toolchain) (cFile binary : Path) :
    m (Except BuildError Unit) := do
  match ← t.find host searchPath with
  | .error e => return .error e
  | .ok compiler =>
    let limit := if t.limit > 0 then some t.limit.toNat else none
    let output : List Bytes := ["-o",binary,cFile]
    match ← runChild host compiler (t.flags ++ output) ByteArray.empty .captured limit with
    | (.ok _,_) => return .ok ()
    | (.error e,finished) =>
      if finished.isOverdue then return .error (.timedOut t.compiler t.limit)
      return .error (.failed t.compiler e finished.combined.data.toList)

/-- Runs an executable without arguments. -/
def run (host : Host m) (binary : Path) (stdin : ByteArray) (streams : Streams) :
    m (Except RunError Unit × Finished) := do
  match ← host.absolute binary with
  | .error e => return (.error (.noPath e),{ status := .exited 0 })
  | .ok p =>
    let (outcome,finished) ← runChild host p [] stdin streams none
    return (outcome.mapError (.failed binary),finished)

end Toolchain
end TeenyTiny
