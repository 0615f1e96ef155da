import TeenyTiny.Model.Machine

/-! The files of the modelled machine, as a host serves them. How programs are run is left open. -/
namespace TeenyTiny.Model
open Text

namespace Machine

/-- Changes the files if that is possible. -/
def modifyTree (step : FileTree → Place → Except Errno FileTree) :
    StateM Machine (Except Errno Unit) := do
  let machine ← get
  match step machine.tree machine.workingDirectory with
  | .ok tree =>
    set { machine with tree }
    return .ok ()
  | .error cause => return .error cause

/-- Takes away what a path names, if it names something. -/
def erase (p : Path) (step : FileTree → Place → FileTree) : StateM Machine Unit :=
  modify fun machine =>
    match machine.tree.find machine.workingDirectory false p with
    | .ok (place,_) => { machine with tree := step machine.tree place }
    | .error _ => machine

/-- The path of the working directory, if it is still there. -/
def findWorkingPath (machine : Machine) : Except Errno Path :=
  if machine.tree.isDirectoryAt machine.workingDirectory then .ok machine.workingPath
  else .error .notFound

def infoAt (machine : Machine) (follow : Bool) (p : Path) : Except Errno FileInfo :=
  (machine.tree.find machine.workingDirectory follow p).map fun (_,_,node) => node.info

/-- A way to run programs: a path, arguments, standard input, where the output goes, and a limit. -/
abbrev Executor := Machine → Path → List Bytes → ByteArray → Streams → Option Nat →
  Except Errno Finished × Machine

/-- The machine as a host that runs programs in a given way. -/
def hostWith (execute : Executor) : Host (StateM Machine) where
  workingDirectory := return (← get).findWorkingPath
  info p := return (← get).infoAt true p
  linkInfo p := return (← get).infoAt false p
  read p := return match (← get).tree.find (← get).workingDirectory true p with
    | .ok (_,_,.file _ block) => .ok block
    | .ok (_,_,.directory _) => .error .isDirectory
    | .ok _ => .ok ByteArray.empty
    | .error cause => .error cause
  makeDirectory p mode := modifyTree fun tree here => tree.makeDirectory here p mode
  createFile p := modifyTree fun tree here => tree.create here p (.file 0o600 ByteArray.empty)
  append p block := modifyTree fun tree here => tree.modifyFile here p (· ++ block)
  setMode p mode := modifyTree fun tree here => tree.setMode here p mode
  close _ := return .ok ()
  rename source target := modifyTree fun tree here => tree.rename here source target
  remove p := erase p FileTree.erase
  removeTree p := erase p FileTree.eraseBelow
  randomNumber := modifyGet fun machine =>
    (machine.nextNumber,{ machine with nextNumber := machine.nextNumber + 1 })
  timeOfDay := return "00:00:00"
  execute p arguments stdin streams limit := modifyGet fun machine =>
    execute machine p arguments stdin streams limit

end Machine
end TeenyTiny.Model
