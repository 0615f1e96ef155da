import TeenyTiny.Output.Fill
import TeenyTiny.Text.Quoted

/-! An output file. It is written under a temporary name beside its place and moved there when it
is complete, so that its place never holds a part of it. -/
namespace TeenyTiny
open Text

/-- Why a path cannot name an output file. -/
inductive InvalidPath where
  | empty
  | special (path : Path)
  | extension (path : Path)
  | directory (path : Path)
  deriving DecidableEq, Repr

def InvalidPath.message : InvalidPath → Bytes
  | empty => "invalid output path: empty"
  | special p => "invalid output path: " ++ quoted p
  | extension p => "invalid output path: unsupported extension in " ++ quoted p
  | directory p => "invalid output path: " ++ quoted p ++ " is a directory"

inductive CommitError (ε : Type) where
  | invalidPath (e : InvalidPath)
  | host (e : HostError)
  | fill (e : ε)

namespace OutputFile

def isExtensionByte (b : UInt8) : Bool :=
  (48 ≤ b && b ≤ 57) || (65 ≤ b && b ≤ 90) || (97 ≤ b && b ≤ 122)

/-- No extension, or a dot and one to eight letters and digits. -/
def isValidExtension : Bytes → Bool
  | [] => true
  | _ :: rest => rest.all isExtensionByte && 1 ≤ rest.length && rest.length ≤ 8

/-- What is wrong with the text of a path. -/
def checkText (p : Path) : Except InvalidPath Unit :=
  if p = [] then .error .empty
  else
    let base := Path.base p
    if base = [Path.dot] ∨ base = [Path.dot,Path.dot] ∨ base = [Path.slash] then
      .error (.special p)
    else if !isValidExtension (Path.extension base) then .error (.extension p)
    else .ok ()

variable {m : Type → Type} [Monad m]

/-- What is wrong with a path, by its text or because a directory is there. -/
def checkPath (host : Host m) (p : Path) : m (Except InvalidPath Unit) := do
  match checkText p with
  | .error e => return .error e
  | .ok _ => return if ← host.isDirectory p then .error (.directory p) else .ok ()

/-- The mode of a complete file. -/
def fileMode : Nat := 0o644

/-- Writes at the end of an open file. -/
def appendBlock (host : Host m) (p : Path) (block : ByteArray) : m (Written WriteError) := do
  match ← host.append p block with
  | .ok _ => return ⟨block.size,none⟩
  | .error cause => return ⟨0,some (.host (.path "write" p cause))⟩

/-- Completes a file that is written, and moves it to its place. -/
def publish (host : Host m) (temporary p : Path) : m (Except HostError Unit) := do
  if let .error cause ← host.setMode temporary fileMode then
    return .error (.path "chmod" temporary cause)
  if let .error cause ← host.close temporary then
    return .error (.path "close" temporary cause)
  host.replace temporary p

/-- Fills a file. On failure the temporary file is removed; the value of the fill is given if it
was run. -/
def commit {ε α : Type} (host : Host m) (p : Path) (fill : Fill ε α) :
    m (Option α × Except (CommitError ε) Unit) := do
  if let .error e ← checkPath host p then
    return (none,.error (.invalidPath e))
  let directory := Path.directory p
  if let .error e ← host.makeDirectories directory then
    return (none,.error (.host e))
  match ← host.createTemporaryFile directory ("." ++ Path.base p ++ ".") ".tmp" with
  | .error e => return (none,.error (.host e))
  | .ok temporary =>
    let ((value,outcome),_) ← (fill (limited (appendBlock host temporary))).run 0
    match outcome with
    | .error e =>
      let _ ← host.close temporary
      host.remove temporary
      return (some value,.error (.fill e))
    | .ok _ =>
      match ← publish host temporary p with
      | .ok _ => return (some value,.ok ())
      | .error e =>
        let _ ← host.close temporary
        host.remove temporary
        return (some value,.error (.host e))

end OutputFile

def CommitError.message {ε : Type} (message : ε → Bytes) : CommitError ε → Bytes
  | invalidPath e => e.message
  | host e => e.message
  | fill e => message e

end TeenyTiny
