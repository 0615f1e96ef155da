import TeenyTiny.Text.Layout

/-! The symbol table: variables in the order of their first definition, labels with the line of
their first declaration, and jump targets with the line of their first reference. -/
namespace TeenyTiny
open Text

/-- A label with a line it occurs on. -/
structure LabelLine where
  name : Bytes
  line : Int
  deriving DecidableEq, Repr

structure Symbols where
  names : List Bytes := []
  labels : List LabelLine := []
  gotos : List LabelLine := []
  deriving DecidableEq, Repr

namespace Symbols

def isDefined (s : Symbols) (name : Bytes) : Bool := s.names.contains name

/-- Adds a variable, and tells whether it is new. -/
def define (s : Symbols) (name : Bytes) : Bool × Symbols :=
  if s.isDefined name then (false,s)
  else (true,{ s with names := s.names ++ [name] })

def findLabel? (s : Symbols) (name : Bytes) : Option LabelLine :=
  s.labels.find? (·.name == name)

/-- Declares a label unless it is declared already; then the first declaration is given. -/
def declareLabel (s : Symbols) (name : Bytes) (line : Int) : Option LabelLine × Symbols :=
  match s.findLabel? name with
  | some first => (some first,s)
  | none => (none,{ s with labels := s.labels ++ [⟨name,line⟩] })

/-- Notes a jump target; of several references the first is kept. -/
def referenceLabel (s : Symbols) (name : Bytes) (line : Int) : Symbols :=
  if s.gotos.any (·.name == name) then s
  else { s with gotos := s.gotos ++ [⟨name,line⟩] }

/-- The jump targets that are not declared, in the order of their first reference. -/
def unresolved (s : Symbols) : List LabelLine :=
  s.gotos.filter fun target => (s.findLabel? target.name).isNone

/-- The declared labels in the order of the bytes of their names. -/
def sortedLabels (s : Symbols) : List LabelLine :=
  s.labels.mergeSort fun a b => !decide (b.name < a.name)

def variableLines (s : Symbols) : List Bytes :=
  s.names.zipIdx.map fun (name,i) =>
    "  " ++ padTo 20 name ++ "  (declared #" ++ decimal (i + 1) ++ ")\n"

def labelLines (s : Symbols) : List Bytes :=
  s.sortedLabels.map fun label =>
    "  " ++ padTo 20 label.name ++ "  line " ++ decimal label.line ++ "\n"

def gotoLines (s : Symbols) : List Bytes :=
  s.gotos.map fun target =>
    let status := if (s.findLabel? target.name).isSome then "ok" else "undeclared"
    "  " ++ padTo 20 target.name ++ "  line " ++ decimal target.line ++ " (" ++ status ++ ")\n"

/-- A titled part of the printed table, or what stands there if it has no lines. -/
def titled (title : Bytes) (lines : List Bytes) (ifNone : Bytes) : Bytes :=
  if lines = [] then ifNone else title ++ lines.flatten

/-- The table as it is printed. -/
def dump (s : Symbols) : Bytes :=
  titled "Variables:\n" s.variableLines "Variables: (empty)\n" ++
    titled "Labels:\n" s.labelLines [] ++ titled "Gotos:\n" s.gotoLines []

end Symbols
end TeenyTiny
