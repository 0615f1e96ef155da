import TeenyTiny.Generator
import TeenyTiny.Source

/-! Compilation of a source text into the text of a C program. -/
namespace TeenyTiny
open Text

/-- Why a compilation did not deliver its text. -/
inductive CompileError (ε : Type) where
  | diagnostic (d : Diagnostic)
  | delivery (e : DeliveryError ε)

def CompileError.message {ε : Type} (message : ε → Bytes) : CompileError ε → Bytes
  | diagnostic d => d.text
  | delivery e => e.message message

/-- A fault with its line of the source. -/
def Fault.explain (source : List Char) (fault : Fault) : Diagnostic :=
  { fault with snippet := sourceLine source fault.line }

/-- Compiles a source and hands the text to `write`, in one piece and only if there is no fault.
The symbols found so far are given in any case. -/
def compile {m : Type → Type} [Monad m] {ε : Type} (write : ByteArray → m (Written ε))
    (src : Bytes) : m (Symbols × Except (CompileError ε) Unit) :=
  let source := decode (preprocess src)
  match Generator.program { stream := TokenStream.ofChars source } with
  | .error fault g => pure (g.symbols,.error (.diagnostic (fault.explain source)))
  | .ok _ g => do
    let (_,written) ← g.listing.finalize write
    match written.failure with
    | some e => pure (g.symbols,.error (.delivery e))
    | none => pure (g.symbols,.ok ())

/-- A writer into a growing block. It accepts everything. -/
def appendTo {ε : Type} (block : ByteArray) : StateM ByteArray (Written ε) := do
  modify (· ++ block)
  return ⟨block.size,none⟩

/-- Compiles a source into a block. -/
def compileToBlock (src : Bytes) : Symbols × Except (CompileError Empty) ByteArray :=
  let ((symbols,outcome),block) := (compile appendTo src).run ByteArray.empty
  (symbols,outcome.map fun _ => block)

/-- Compiles a source into a text. -/
def compileText (src : Bytes) : Symbols × Except (CompileError Empty) Bytes :=
  let (symbols,outcome) := compileToBlock src
  (symbols,outcome.map (·.data.toList))

end TeenyTiny
