import TeenyTiny.Duration

/-! The flags of the command line and the options they set. -/
namespace TeenyTiny.Command
open Text

inductive Flag where
  | verbose | out | native | compiler | compilerFlag | limit | help
  deriving DecidableEq, Repr

namespace Flag

def name : Flag → String
  | verbose => "verbose"
  | out => "out"
  | native => "cc"
  | compiler => "cc-path"
  | compilerFlag => "cflag"
  | limit => "timeout"
  | help => "help"

/-- The letter that stands for the flag behind a single dash. -/
def letter? : Flag → Option Char
  | verbose => some 'v'
  | out => some 'o'
  | help => some 'h'
  | _ => none

/-- A switch is on when it is given without a value. -/
def isSwitch : Flag → Bool
  | verbose | native | help => true
  | _ => false

/-- The flag as messages name it. -/
def title (flag : Flag) : Bytes :=
  match flag.letter? with
  | some letter => "-" ++ encode [letter] ++ ", --" ++ flag.name
  | none => "--" ++ flag.name

end Flag

/-- Why a value does not suit a flag. -/
inductive ValueError where
  | switch (value : Bytes)
  | duration (e : Duration.ParseError)
  deriving DecidableEq, Repr

def ValueError.message : ValueError → Bytes
  | switch value => "strconv.ParseBool: parsing " ++ quoted value ++ ": invalid syntax"
  | duration e => e.message

structure Options where
  verbose : Bool := false
  out : Bytes := "out.c"
  native : Bool := false
  compiler : Bytes := []
  compilerFlags : List Bytes := []
  limit : Duration := 30 * Duration.second
  help : Bool := false
  deriving DecidableEq, Repr

namespace Options

def switchValue (value : Bytes) : Except ValueError Bool :=
  if ["1","t","T","TRUE","true","True"].any (ofString · = value) then .ok true
  else if ["0","f","F","FALSE","false","False"].any (ofString · = value) then .ok false
  else .error (.switch value)

/-- Gives a flag a value. Only compiler flags add up; of others the last value counts. -/
def set (o : Options) (flag : Flag) (value : Bytes) : Except ValueError Options :=
  match flag with
  | .verbose => return { o with verbose := ← switchValue value }
  | .out => return { o with out := value }
  | .native => return { o with native := ← switchValue value }
  | .compiler => return { o with compiler := value }
  | .compilerFlag => return { o with compilerFlags := o.compilerFlags ++ [value] }
  | .limit => return { o with limit := ← (Duration.parse value).mapError .duration }
  | .help => return { o with help := ← switchValue value }

end Options
end TeenyTiny.Command
