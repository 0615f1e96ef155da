import TeenyTiny.Command.Execute
import TeenyTiny.Model.Execution

/-! The whole program on the modelled machine, as the one sees it who has started it. -/
namespace TeenyTiny.Model.Machine

/-- Runs the whole program and reads its output to the end, which comes when no program that was
left behind can add to it. -/
def session (around : Surroundings) (arguments : List Bytes) (stdin : ByteArray) :
    StateM Machine (Nat × Command.Printed) := do
  let (code,printed) ← Command.runProgram host around arguments stdin
  let output ← modifyGet lateOutput
  return (code,printed.addFinished { status := .exited code, output })

end TeenyTiny.Model.Machine
