import TeenyTiny.Model.Host
import TeenyTiny.Model.Kernel
import TeenyTiny.Model.Shell.Interpreter

/-! Programs on the modelled machine: the shell and the utilities. -/
namespace TeenyTiny.Model
open Text

namespace Machine

/-- One more than the longest argument, and the size of all arguments together. -/
def maxArgument : Nat := 131072
def maxArguments : Nat := 2097152

/-- What speaks against arguments, if anything does. -/
def checkArguments (arguments : List Bytes) : Except Errno Unit :=
  if arguments.any (·.contains 0) then .error .invalidArgument
  else if arguments.any (maxArgument ≤ ·.length) then .error .argumentsTooLong
  else if maxArguments < arguments.foldl (fun size a => size + a.length + 9) 0 then
    .error .argumentsTooLong
  else .ok ()

/-- Runs a program from its start to its end. A limit that is shorter than the time of the start
comes before everything else. -/
def execute : Executor := fun machine p arguments stdin streams limit =>
  if limit.any (· ≤ startTime) then
    (.ok { status := .signaled 9, isOverdue := true },machine)
  else match checkArguments arguments *> machine.tree.load machine.workingDirectory p with
    | .error cause => (.error cause,machine)
    | .ok program =>
      let task := Shell.runProgram Shell.maxDepth program arguments machine.environment
      let (finished,machine) := machine.run task.process stdin streams limit
      (.ok finished,machine)

def host : Host (StateM Machine) := hostWith execute

end Machine
end TeenyTiny.Model
