import TeenyTiny.Command.Options

/-! Command lines: the subcommand, the flags and the arguments. -/
namespace TeenyTiny.Command
open Text

inductive Subcommand where
  /-- No subcommand: the help, or a build of the file given. -/
  | root
  | build | run | tokens | dump
  deriving DecidableEq, Repr

namespace Subcommand

def named : List (String × Subcommand) :=
  [("build",build),("run",run),("tokens",tokens),("dump",dump)]

def ofName? (name : Bytes) : Option Subcommand :=
  (named.find? fun entry => ofString entry.1 = name).map (·.2)

def flags : Subcommand → List Flag
  | build => [.verbose,.out,.native,.compiler,.compilerFlag,.limit,.help]
  | run => [.verbose,.compiler,.compilerFlag,.limit,.help]
  | root | tokens | dump => [.verbose,.help]

end Subcommand

/-- What is wrong with a command line. -/
inductive UsageError where
  | badFlag (text : Bytes)
  | unknownFlag (name : Bytes)
  | unknownLetter (letter : UInt8) (letters : Bytes)
  | missingValue (text : Bytes)
  | missingLetterValue (letter : UInt8) (letters : Bytes)
  | invalidValue (value : Bytes) (flag : Flag) (e : ValueError)
  | notOneArgument (count : Nat)
  | manyArguments (count : Nat)
  deriving DecidableEq, Repr

/-- A byte shown as the character with its number. -/
def quotedByte (b : UInt8) : Bytes := quotedChar (Char.ofNat b.toNat)

def UsageError.message : UsageError → Bytes
  | badFlag text => "bad flag syntax: " ++ text
  | unknownFlag name => "unknown flag: --" ++ name
  | unknownLetter letter letters =>
    "unknown shorthand flag: " ++ quotedByte letter ++ " in -" ++ letters
  | missingValue text => "flag needs an argument: " ++ text
  | missingLetterValue letter letters =>
    "flag needs an argument: " ++ quotedByte letter ++ " in -" ++ letters
  | invalidValue value flag e =>
    "invalid argument " ++ quoted value ++ " for " ++ quoted flag.title ++ " flag: " ++ e.message
  | notOneArgument count => "accepts 1 arg(s), received " ++ decimal count
  | manyArguments count => "accepts at most 1 arg(s), received " ++ decimal count

def dash : UInt8 := 45
def equals : UInt8 := 61

/-- The argument behind which there are no flags. -/
def endOfFlags : Bytes := [dash,dash]

def findLong? (flags : List Flag) (name : Bytes) : Option Flag :=
  flags.find? fun flag => ofString flag.name = name

def findLetter? (flags : List Flag) (letter : UInt8) : Option Flag :=
  flags.find? fun flag => flag.letter?.any (·.toNat = letter.toNat)

/-- Before the subcommand is known, every flag that is not a known switch is taken to have its value
in the next argument. -/
def takesNext (argument : Bytes) : Bool :=
  let known := Subcommand.root.flags
  !argument.contains equals &&
    match argument with
    | [45,45] => false
    | 45 :: 45 :: name => !(findLong? known name).any Flag.isSwitch
    | [45,letter] => !(findLetter? known letter).any Flag.isSwitch
    | _ => false

/-- The first argument that is neither a flag nor the value of one. -/
def firstWord? : List Bytes → Option Bytes
  | [] => none
  | argument :: rest =>
    if argument = endOfFlags then none
    else if takesNext argument then
      match rest with
      | _ :: next :: more => firstWord? (next :: more)
      | _ => none
    else if argument ≠ [] && argument.head? ≠ some dash then some argument
    else firstWord? rest

/-- The arguments without the first one that is this word. -/
def eraseWord (word : Bytes) : List Bytes → List Bytes
  | [] => []
  | argument :: rest =>
    if argument = endOfFlags then argument :: rest
    else if takesNext argument then
      match rest with
      | [] => [argument]
      | value :: more => argument :: value :: eraseWord word more
    else if argument = word then rest
    else argument :: eraseWord word rest

/-- The subcommand and the arguments that are left for it. -/
def splitSubcommand (arguments : List Bytes) : Subcommand × List Bytes :=
  match firstWord? arguments with
  | none => (.root,arguments)
  | some word =>
    match Subcommand.ofName? word with
    | some subcommand => (subcommand,eraseWord word arguments)
    | none => (.root,arguments)

/-- Options so far, and the arguments that are no flags, the last one first. -/
structure Parsed where
  options : Options := {}
  words : List Bytes := []

def Parsed.set (parsed : Parsed) (flag : Flag) (value : Bytes) : Except UsageError Parsed :=
  match parsed.options.set flag value with
  | .ok options => .ok { parsed with options }
  | .error e => .error (.invalidValue value flag e)

/-- What a switch is set to when it has no value. -/
def switchOn : Bytes := "true"

/-- A flag with its name, behind two dashes. Gives the arguments left. -/
def parseLong (flags : List Flag) (parsed : Parsed) (text : Bytes) (rest : List Bytes) :
    Except UsageError (Parsed × List Bytes) := do
  let body := text.drop 2
  if body.head? = some dash || body.head? = some equals then throw (.badFlag text)
  let name := body.takeWhile (· ≠ equals)
  let some flag := findLong? flags name | throw (.unknownFlag name)
  if name.length < body.length then
    return (← parsed.set flag (body.drop (name.length + 1)),rest)
  else if flag.isSwitch then return (← parsed.set flag switchOn,rest)
  else match rest with
    | value :: rest => return (← parsed.set flag value,rest)
    | [] => throw (.missingValue text)

/-- Do the letters spell a flag of a test runner? Such flags are passed over, whatever follows. -/
def isTestFlag (letters : Bytes) : Bool := (ofString "test.").isPrefixOf letters

/-- Flags with their letters, behind one dash. -/
def parseLetters (flags : List Flag) (parsed : Parsed) :
    (letters : Bytes) → (rest : List Bytes) → Except UsageError (Parsed × List Bytes)
  | [],rest => return (parsed,rest)
  | letter :: more,rest => do
    let letters := letter :: more
    if isTestFlag letters then return (parsed,rest)
    let some flag := findLetter? flags letter | throw (.unknownLetter letter letters)
    if more.head? = some equals && 2 ≤ more.length then
      return (← parsed.set flag (more.drop 1),rest)
    else if flag.isSwitch then
      parseLetters flags (← parsed.set flag switchOn) more rest
    else if more ≠ [] then return (← parsed.set flag more,rest)
    else match rest with
      | value :: rest => return (← parsed.set flag value,rest)
      | [] => throw (.missingLetterValue letter letters)

/-- Reads flags and words in any order; each round takes at least one argument. -/
def parseArguments (flags : List Flag) :
    (fuel : Nat) → Parsed → List Bytes → Except UsageError Parsed
  | 0,parsed,_ => return parsed
  | _,parsed,[] => return parsed
  | fuel + 1,parsed,argument :: rest => do
    if argument = endOfFlags then
      return { parsed with words := rest.reverse ++ parsed.words }
    else if argument.head? = some dash && 2 ≤ argument.length then
      let (parsed,rest) ←
        if argument[1]? = some dash then parseLong flags parsed argument rest
        else parseLetters flags parsed (argument.drop 1) rest
      parseArguments flags fuel parsed rest
    else parseArguments flags fuel { parsed with words := argument :: parsed.words } rest

/-- A command line that can be carried out. -/
structure Invocation where
  subcommand : Subcommand
  options : Options
  /-- The source file. Without a subcommand there may be none. -/
  source : Option Bytes

/-- Reads a command line. Faults of flags come before a wrong number of arguments. -/
def parse (arguments : List Bytes) : Except UsageError Invocation := do
  let (subcommand,arguments) := splitSubcommand arguments
  let parsed ← parseArguments subcommand.flags (arguments.length + 1) {} arguments
  let words := parsed.words.reverse
  if parsed.options.help then return ⟨.root,parsed.options,none⟩
  match subcommand,words with
  | _,[source] => return ⟨subcommand,parsed.options,some source⟩
  | .root,[] => return ⟨.root,parsed.options,none⟩
  | .root,_ => throw (.manyArguments words.length)
  | _,_ => throw (.notOneArgument words.length)

end TeenyTiny.Command
