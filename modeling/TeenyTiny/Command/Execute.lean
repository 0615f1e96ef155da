import TeenyTiny.Command.Line
import TeenyTiny.Output.File
import TeenyTiny.Output.Memory
import TeenyTiny.SourceFile
import TeenyTiny.Toolchain

/-! Carrying out command lines. -/
namespace TeenyTiny.Command
open Text

/-- Why a command failed. -/
inductive CommandError where
  | usage (e : UsageError)
  | sourceFile (e : SourceFileError)
  | compilation (source : Path) (e : CommitError FillError)
  | tokens (source : Path) (d : Diagnostic)
  | scratch (e : HostError)
  | memory (e : NothingStored)
  | build (e : BuildError)
  | run (e : RunError)

def CommandError.message : CommandError → Bytes
  | usage e => e.message
  | sourceFile e => e.message
  | compilation source e => source ++ ": " ++ e.message FillError.message
  | tokens source d => source ++ ": " ++ d.text
  | scratch e => e.message
  | memory e => e.message
  | build e => e.message
  | run e => e.message

/-- What was printed. -/
structure Printed where
  out : ByteArray := ByteArray.empty
  err : ByteArray := ByteArray.empty

namespace Printed

def addOut (text : Bytes) : Printed → Printed
  | ⟨out,err⟩ => ⟨text.foldl ByteArray.push out,err⟩

def addErr (text : Bytes) : Printed → Printed
  | ⟨out,err⟩ => ⟨out,text.foldl ByteArray.push err⟩

/-- Adds what a program wrote. -/
def addFinished (finished : Finished) : Printed → Printed
  | ⟨out,err⟩ => ⟨out ++ finished.onChannel .out,err ++ finished.onChannel .err⟩

end Printed

/-- A command: it prints, and it may fail. -/
abbrev Action (m : Type → Type) := ExceptT CommandError (StateT Printed m)

def helpText : Bytes :=
  "ttc translates Teeny Tiny programs into a single C source file.

Commands:
  build   Compile a (.teeny) source file into C, optionally into a native binary
  run     Compile, build and execute a program
  tokens  Print the token stream of a source file
  dump    Print the generated C and the symbol table

Given only a file, ttc behaves like \"ttc build\" and writes out.c.

Usage:
  ttc [source.teeny] [flags]
  ttc [command]

Available Commands:
  build       Compile a Teeny Tiny source file into C
  completion  Generate the autocompletion script for the specified shell
  dump        Print the generated C and the symbol table
  help        Help about any command
  run         Compile, build and execute a Teeny Tiny program
  tokens      Print the token stream of a source file

Flags:
  -h, --help      help for ttc
  -v, --verbose   log compiler progress to stderr

Use \"ttc [command] --help\" for more information about a command.
"

/-- The compiler that the options ask for. -/
def Options.toolchain (o : Options) (preferred : Bytes) : Toolchain :=
  let base := Toolchain.default preferred
  { compiler := if o.compiler = [] then base.compiler else o.compiler
    flags := o.compilerFlags
    limit := if o.limit > 0 then o.limit else base.limit }

section
variable {m : Type → Type} [Monad m] (host : Host m) (around : Surroundings) (o : Options)

/-- Asks the machine. -/
def ask {α : Type} (request : m α) : Action m α := liftM request

def printOut (text : Bytes) : Action m Unit :=
  modify (Printed.addOut text)

def printErr (text : Bytes) : Action m Unit :=
  modify (Printed.addErr text)

/-- A line for users who want to see the progress. -/
def log (text : Bytes) : Action m Unit := do
  if o.verbose then
    printErr (endLine ("ttc: " ++ (← ask host.timeOfDay) ++ " " ++ text))

def readSource (source : Path) : Action m SourceFile := do
  match ← ask (SourceFile.read host source) with
  | .ok file => return file
  | .error e => throw (.sourceFile e)

/-- Compiles a source file into an output, which `commit` writes. Gives what `commit` gives and the
symbols; on failure `onSymbols` gets those found so far. -/
def compileTo {β : Type} (source : Path)
    (commit : Fill FillError Symbols →
      m (β × Option Symbols × Except (CommitError FillError) Unit))
    (onSymbols : Symbols → Action m Unit) : Action m (β × Symbols) := do
  let file ← readSource host source
  log host o ("compiling " ++ file.fullPath)
  let (result,symbols,outcome) ← ask (commit (Fill.ofSource file.text))
  match outcome with
  | .ok _ =>
    let symbols := symbols.getD {}
    log host o (decimal symbols.names.length ++ " variables declared")
    return (result,symbols)
  | .error e =>
    symbols.forM onSymbols
    throw (.compilation source e)

def compileToFile (source out : Path) : Action m Unit := do
  let commit (fill : Fill FillError Symbols) := return ((),← OutputFile.commit host out fill)
  let _ ← compileTo host o source commit fun _ => pure ()

def compileToMemory (source : Path) : Action m (Memory × Symbols) := do
  let commit (fill : Fill FillError Symbols) := do
    let ((symbols,outcome),memory) := ({} : Memory).commit fill
    return (memory,some symbols,outcome.mapError .fill)
  compileTo host o source commit fun symbols => printErr symbols.dump

/-- Builds an executable. -/
def buildBinary (cFile binary : Path) : Action m Unit := do
  let toolchain := o.toolchain around.compiler
  match ← ask (toolchain.build host around.searchPath cFile binary) with
  | .ok _ => return ()
  | .error e => throw (.build e)

/-- Compiles to a C file and, if that is asked for, on to an executable beside it. -/
def build (source : Path) : Action m Unit := do
  let out : Path := if o.out = [] then "out.c" else o.out
  compileToFile host o source out
  printOut ("compiled " ++ source ++ " -> " ++ out ++ "\n")
  if o.native then
    let binary := binaryPath out
    log host o ("building " ++ binary ++ " with " ++ (o.toolchain around.compiler).compiler)
    buildBinary host around o out binary
    printOut ("built " ++ binary ++ "\n")

/-- Compiles, builds and runs in a directory that is there for this. -/
def runIn (directory : Path) (source : Path) (stdin : ByteArray) : Action m Unit := do
  let cFile := Path.child directory "prog.c"
  compileToFile host o source cFile
  let binary := binaryPath cFile
  buildBinary host around o cFile binary
  log host o ("running " ++ binary)
  let (outcome,finished) ← ask (Toolchain.run host binary stdin around.streams)
  modify (Printed.addFinished finished)
  if let .error e := outcome then throw (.run e)

/-- Compiles, builds and runs a program. The files made for this are removed in any case. -/
def run (source : Path) (stdin : ByteArray) : Action m Unit := do
  match ← ask (host.createTemporaryDirectory around.temporaryDirectory "ttc-run-") with
  | .error e => throw (.scratch e)
  | .ok directory =>
    ExceptT.mk do
      let outcome ← (runIn host around o directory source stdin).run
      host.removeTree directory
      return outcome

/-- Lists the tokens of a source file. -/
def tokens (source : Path) : Action m Unit := do
  let file ← readSource host source
  let chars := decode (preprocess file.text)
  match (TokenStream.ofChars chars).upToFault with
  | (_,some fault) => throw (.tokens source (fault.explain chars))
  | (tokens,none) =>
    printOut ("Tokens (" ++ decimal tokens.length ++ ")\n")
    for token in tokens do
      printOut ("  " ++ token.describe ++ "\n")

/-- Shows the C text and the symbols of a source file; of a faulty one the symbols only. -/
def dump (source : Path) : Action m Unit := do
  let (memory,symbols) ← compileToMemory host o source
  match memory.bytes with
  | .error e => throw (.memory e)
  | .ok code =>
    printOut ("Generated C\n" ++ code.data.toList ++ "\n" ++ symbols.dump)

end

/-- Carries out a command line that has been read. -/
def perform {m : Type → Type} [Monad m] (host : Host m) (around : Surroundings)
    (invocation : Invocation) (stdin : ByteArray) : Action m Unit :=
  match invocation.source with
  | none => printOut helpText
  | some source =>
    match invocation.subcommand with
    | .root | .build => build host around invocation.options source
    | .run => run host around invocation.options source stdin
    | .tokens => tokens host source
    | .dump => dump host invocation.options source

/-- Carries out a command line. -/
def execute {m : Type → Type} [Monad m] (host : Host m) (around : Surroundings)
    (arguments : List Bytes) (stdin : ByteArray) : m (Except CommandError Unit × Printed) :=
  match parse arguments with
  | .error e => return (.error (.usage e),{})
  | .ok invocation => ((perform host around invocation stdin).run).run {}

/-- The whole program: what is printed, errors included, and the exit status. A program that it
runs writes to the same streams. -/
def runProgram {m : Type → Type} [Monad m] (host : Host m) (around : Surroundings)
    (arguments : List Bytes) (stdin : ByteArray) : m (Nat × Printed) := do
  let (outcome,printed) ← execute host { around with streams := .shared } arguments stdin
  match outcome with
  | .ok _ => return (0,printed)
  | .error e => return (1,printed.addErr (endLine ("ttc: " ++ e.message)))

end TeenyTiny.Command
