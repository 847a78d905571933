import SlotLang.Assembly.Assembler
import SlotLang.Assembly.Directive
import SlotLang.Assembly.Error
import SlotLang.CodeModule.Basic
import SlotLang.CodeModule.Error
import SlotLang.CodeModule.Format
import SlotLang.CodeModule.Listing
import SlotLang.Command.Basic
import SlotLang.Command.Console
import SlotLang.Compile
import SlotLang.Diagnostic
import SlotLang.Files.Directory
import SlotLang.Files.FileName
import SlotLang.Files.OperatingSystem
import SlotLang.Instruction
import SlotLang.Lowering.Basic
import SlotLang.Lowering.Error
import SlotLang.Machine.Basic
import SlotLang.Machine.Error
import SlotLang.Machine.Run
import SlotLang.Machine.Script
import SlotLang.Main
import SlotLang.Proofs.AssembledCode
import SlotLang.Proofs.CommandPipeline
import SlotLang.Proofs.ConsoleRuns
import SlotLang.Proofs.ConstantPool
import SlotLang.Proofs.CursorParser
import SlotLang.Proofs.CursorReads
import SlotLang.Proofs.DeclarationOrder
import SlotLang.Proofs.EnteredStatements
import SlotLang.Proofs.ErrorPlaces
import SlotLang.Proofs.FaithfulListings
import SlotLang.Proofs.FreshDeclarations
import SlotLang.Proofs.Grammar
import SlotLang.Proofs.HostDifferences
import SlotLang.Proofs.InternalErrors
import SlotLang.Proofs.Interpreter
import SlotLang.Proofs.LabelResolution
import SlotLang.Proofs.LexicalErrors
import SlotLang.Proofs.LoopEntry
import SlotLang.Proofs.LoopTermination
import SlotLang.Proofs.LoweredCode
import SlotLang.Proofs.MachineSteps
import SlotLang.Proofs.NamedVariables
import SlotLang.Proofs.NestedLabels
import SlotLang.Proofs.NestedLoops
import SlotLang.Proofs.NodeSources
import SlotLang.Proofs.ParsedPrograms
import SlotLang.Proofs.PrintedTokens
import SlotLang.Proofs.RegroupedSequences
import SlotLang.Proofs.Relabeling
import SlotLang.Proofs.SelfDelimiting
import SlotLang.Proofs.SequencedCode
import SlotLang.Proofs.SlotSemantics
import SlotLang.Proofs.SlotTypes
import SlotLang.Proofs.StackHeights
import SlotLang.Proofs.StackSafety
import SlotLang.Proofs.StoredModules
import SlotLang.Proofs.SymbolTable
import SlotLang.Proofs.TextLayout
import SlotLang.Proofs.TiledText
import SlotLang.Proofs.TokenizedText
import SlotLang.Proofs.TypeChecking
import SlotLang.Proofs.UnderlinedNames
import SlotLang.Proofs.ViablePrefixes
import SlotLang.Proofs.WrittenFiles
import SlotLang.Span
import SlotLang.Statement.Basic
import SlotLang.Statement.Error
import SlotLang.Statement.Parser
import SlotLang.Text.Blank
import SlotLang.Text.Classes
import SlotLang.Text.CodePoint
import SlotLang.Text.Decimal
import SlotLang.Text.Letter
import SlotLang.Text.Printable
import SlotLang.Text.Quoted
import SlotLang.Text.Utf8
import SlotLang.Token.Basic
import SlotLang.Token.Error
import SlotLang.Token.Lexer
import SlotLang.Value
