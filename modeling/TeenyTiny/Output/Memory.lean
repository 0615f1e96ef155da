import TeenyTiny.Output.Fill

/-! An output kept in memory. -/
namespace TeenyTiny

/-- The output of the last successful commit. -/
structure Memory where
  stored : Option ByteArray := none

/-- Nothing has been committed yet. -/
structure NothingStored where

def NothingStored.message (_ : NothingStored) : Bytes := "nothing committed"

namespace Memory

def bytes (memory : Memory) : Except NothingStored ByteArray :=
  match memory.stored with
  | some block => .ok block
  | none => .error ⟨⟩

/-- Replaces what is stored if the fill succeeds, and leaves it otherwise. -/
def commit {ε α : Type} (memory : Memory) (fill : Fill ε α) : (α × Except ε Unit) × Memory :=
  let ((result,_),block) := ((fill (limited appendTo)).run 0).run ByteArray.empty
  match result.2 with
  | .ok _ => (result,⟨some block⟩)
  | .error _ => (result,memory)

end Memory
end TeenyTiny
