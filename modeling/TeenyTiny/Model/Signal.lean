import TeenyTiny.Model.Utility.Basic

/-! The short names of signals. -/
namespace TeenyTiny.Model.Signal
open Text

/-- The names, from the first signal on. -/
def words : List String :=
  ["HUP","INT","QUIT","ILL","TRAP","ABRT","BUS","FPE","KILL","USR1","SEGV","USR2",
   "PIPE","ALRM","TERM","STKFLT","CHLD","CONT","STOP","TSTP","TTIN","TTOU","URG","XCPU",
   "XFSZ","VTALRM","PROF","WINCH","IO","PWR","SYS"]

def last : Nat := 64

/-- A signal given by its number or its name; capitals do not matter. -/
def number? (b : Bytes) : Option Nat :=
  let word := (decode b).map Char.toUpper
  match words.findIdx? (·.toList = word) with
  | some i => some (i + 1)
  | none => (Utility.readNat? b).filter (· ≤ last)

/-- The name of a signal, or else its number. -/
def word (n : Nat) : Bytes := ((("EXIT" :: words)[n]?).map ofString).getD (decimal n)

/-- What a shell says about a command that a signal ended; about some it says nothing. -/
def report? (signal : Nat) : Option Bytes :=
  if signal = 2 || signal = 13 then none
  else some (String.capitalize (String.ofList (decode (signalName signal))))

end TeenyTiny.Model.Signal
