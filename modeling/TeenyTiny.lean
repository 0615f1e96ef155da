import TeenyTiny.Command.Execute
import TeenyTiny.Main
import TeenyTiny.Model.Session
import TeenyTiny.Output.File
import TeenyTiny.Output.Memory
import TeenyTiny.Proofs.Acceptance
import TeenyTiny.Proofs.Ast
import TeenyTiny.Proofs.Bookkeeping
import TeenyTiny.Proofs.CTokens
import TeenyTiny.Proofs.CarriageReturns
import TeenyTiny.Proofs.Concatenation
import TeenyTiny.Proofs.Consistency
import TeenyTiny.Proofs.Consumption
import TeenyTiny.Proofs.Decoding
import TeenyTiny.Proofs.Decompile
import TeenyTiny.Proofs.Delivery
import TeenyTiny.Proofs.Derivation
import TeenyTiny.Proofs.Disks
import TeenyTiny.Proofs.Dumps
import TeenyTiny.Proofs.Encoding
import TeenyTiny.Proofs.EndTokens
import TeenyTiny.Proofs.Executables
import TeenyTiny.Proofs.Expressions
import TeenyTiny.Proofs.Extension
import TeenyTiny.Proofs.FileOutput
import TeenyTiny.Proofs.FileTrees
import TeenyTiny.Proofs.Fills
import TeenyTiny.Proofs.Goals
import TeenyTiny.Proofs.Handovers
import TeenyTiny.Proofs.Histories
import TeenyTiny.Proofs.LabelFaults
import TeenyTiny.Proofs.LabelPlaces
import TeenyTiny.Proofs.Layout
import TeenyTiny.Proofs.LayoutIndependence
import TeenyTiny.Proofs.LexicalFaults
import TeenyTiny.Proofs.Lexing
import TeenyTiny.Proofs.LineEndings
import TeenyTiny.Proofs.Lines
import TeenyTiny.Proofs.MemoryOutput
import TeenyTiny.Proofs.Names
import TeenyTiny.Proofs.Numbers
import TeenyTiny.Proofs.Passage
import TeenyTiny.Proofs.Prefixes
import TeenyTiny.Proofs.PrintedTexts
import TeenyTiny.Proofs.Printing
import TeenyTiny.Proofs.ProgramLines
import TeenyTiny.Proofs.Programs
import TeenyTiny.Proofs.Progress
import TeenyTiny.Proofs.Quoting
import TeenyTiny.Proofs.Scanning
import TeenyTiny.Proofs.Seam
import TeenyTiny.Proofs.Snippets
import TeenyTiny.Proofs.SourceBytes
import TeenyTiny.Proofs.SourceLines
import TeenyTiny.Proofs.Statements
import TeenyTiny.Proofs.Translation
import TeenyTiny.Proofs.Unambiguous
import TeenyTiny.Proofs.Verdicts
import TeenyTiny.Proofs.Window
import TeenyTiny.Proofs.Words
import TeenyTiny.SourceFile
import TeenyTiny.Toolchain
