import TeenyTiny.Host

/-! Source files named by the user. -/
namespace TeenyTiny

inductive SourceFileError where
  | host (e : HostError)
  /-- The path, as the user wrote it, is one of a directory. -/
  | isDirectory (path : Path)
  deriving DecidableEq, Repr

def SourceFileError.message : SourceFileError → Bytes
  | host e => e.message
  | isDirectory p => p ++ " is a directory"

/-- A source with its path from the root. -/
structure SourceFile where
  fullPath : Path
  block : ByteArray

def SourceFile.text (file : SourceFile) : Bytes := file.block.data.toList

def SourceFile.read {m : Type → Type} [Monad m] (host : Host m) (p : Path) :
    m (Except SourceFileError SourceFile) := do
  match ← host.absolute p with
  | .error e => return .error (.host e)
  | .ok fullPath =>
    match ← host.info fullPath with
    | .error cause => return .error (.host (.path "stat" fullPath cause))
    | .ok info =>
      if info.isDirectory then return .error (.isDirectory p)
      match ← host.read fullPath with
      | .error cause => return .error (.host (.path "open" fullPath cause))
      | .ok block => return .ok ⟨fullPath,block⟩

end TeenyTiny
