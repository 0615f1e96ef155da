import TeenyTiny.Compile
import TeenyTiny.Host

/-! What is written into an output, and the limit on its size. -/
namespace TeenyTiny
open Text

inductive WriteError where
  | tooLarge
  | host (e : HostError)
  deriving DecidableEq, Repr

def WriteError.message : WriteError → Bytes
  | tooLarge => "generated output too large"
  | host e => e.message

/-- A source of output: it may write any number of blocks, whatever they are written to, and gives
a value and a verdict. -/
abbrev Fill (ε α : Type) : Type 1 :=
  {m : Type → Type} → [Monad m] → (ByteArray → m (Written WriteError)) → m (α × Except ε Unit)

/-- The largest output, 16 MiB. -/
def maxOutputSize : Nat := 16 * 1024 * 1024

/-- Refuses a block as a whole if it would go over the limit. The state is the size so far. -/
def limited {m : Type → Type} [Monad m] (write : ByteArray → m (Written WriteError))
    (block : ByteArray) : StateT Nat m (Written WriteError) := do
  let used ← get
  if used + block.size > maxOutputSize then
    return ⟨0,some .tooLarge⟩
  let written ← write block
  set (used + written.accepted)
  return written

/-- Why a list of output steps stopped. -/
inductive FillError where
  | write (e : WriteError)
  | compile (e : CompileError WriteError)
  | refused (message : Bytes)

def FillError.message : FillError → Bytes
  | write e => e.message
  | compile e => e.message WriteError.message
  | refused message => message

inductive FillStep where
  | write (block : ByteArray)
  /-- A write whose failure is passed over. -/
  | tryWrite (block : ByteArray)
  | compile (src : Bytes)
  | refuse (message : Bytes)

namespace Fill

/-- Writes the C text of a source, and gives its symbols. -/
def ofSource (src : Bytes) : Fill FillError Symbols := fun write => do
  let (symbols,outcome) ← TeenyTiny.compile write src
  return (symbols,outcome.mapError .compile)

variable {m : Type → Type} [Monad m]

def takeStep (write : ByteArray → m (Written WriteError)) :
    FillStep → m (Except FillError Unit)
  | .write block => do
    match (← write block).failure with
    | none => return .ok ()
    | some e => return .error (.write e)
  | .tryWrite block => do
    let _ ← write block
    return .ok ()
  | .compile src => do return (← ofSource src write).2
  | .refuse message => return .error (.refused message)

def takeSteps (write : ByteArray → m (Written WriteError)) :
    List FillStep → m (Except FillError Unit)
  | [] => return .ok ()
  | step :: rest => do
    match ← takeStep write step with
    | .ok _ => takeSteps write rest
    | .error e => return .error e

/-- Takes the steps in order, up to the first failure. -/
def ofSteps (steps : List FillStep) : Fill FillError Unit := fun write => do
  return ((),← takeSteps write steps)

end Fill
end TeenyTiny
