import TeenyTiny.Model.FileTree
import TeenyTiny.Text.Blank

/-! From a file to the program that runs when the file is started. -/
namespace TeenyTiny.Model
open Text

/-- A utility with the name it is called by, and arguments in front of those of the caller. -/
structure Program where
  utility : Bytes
  self : Path
  arguments : List Bytes := []
  deriving DecidableEq, Repr

namespace Program

def isBlank (b : UInt8) : Bool := b = 32 || b = 9 || b = 10

/-- The interpreter that the first line of a script names, with an argument if there is one. -/
def interpreter? (script : Bytes) : Option (Path × List Bytes) :=
  match script with
  | 35 :: 33 :: rest =>
    let line := trimBoth isBlank (rest.takeWhile (· ≠ 10))
    let p := line.takeWhile (!isBlank ·)
    let argument := (line.dropWhile (!isBlank ·)).dropWhile isBlank
    if p = [] && rest.contains 10 then none
    else some (p,if argument = [] then [] else [argument])
  | _ => none

/-- The program with the name that the caller gives it. An interpreter has the name that the script
gives it. -/
def calledBy (program : Program) (name : Bytes) : Program :=
  if program.arguments = [] then { program with self := name } else program

/-- How many interpreters a script may need, one after the other. -/
def maxInterpreters : Nat := 6

end Program

/-- The program that a file is; `depth` bounds the number of interpreters. -/
def FileTree.loadWithin (t : FileTree) (workingDirectory : Place) :
    (depth : Nat) → Path → Except Errno Program
  | depth,p => do
    let (_,_,node) ← t.find workingDirectory true p
    if node.isDirectory || !node.info.isRunnable then throw .permissionDenied
    match depth,node with
    | 0,_ => throw .loop
    | _,.utility name => return { utility := name, self := p }
    | depth + 1,.file _ block =>
      match Program.interpreter? block.data.toList with
      | none => throw .notExecutable
      | some (interpreter,extra) =>
        let program ← t.loadWithin workingDirectory depth interpreter
        return { program with arguments := program.arguments ++ extra ++ [p] }
    | _,_ => throw .permissionDenied

def FileTree.load (t : FileTree) (workingDirectory : Place) (p : Path) : Except Errno Program :=
  t.loadWithin workingDirectory Program.maxInterpreters p

end TeenyTiny.Model
