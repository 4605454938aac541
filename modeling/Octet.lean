import Octet.Assembler
import Octet.Catalog
import Octet.Code
import Octet.Command.Basic
import Octet.Command.Flag
import Octet.Command.Reader
import Octet.Command.Record
import Octet.Command.Suggestion
import Octet.Emulator
import Octet.Expansion.Includes
import Octet.Expansion.Macros
import Octet.Expansion.Site
import Octet.Fault
import Octet.Formula
import Octet.Formula.Builtin
import Octet.Formula.Eval
import Octet.Formula.Expr
import Octet.Formula.Grammar
import Octet.Formula.Key
import Octet.Formula.Lexeme
import Octet.Formula.Method
import Octet.Formula.Operator
import Octet.Formula.Order
import Octet.Formula.Real
import Octet.Formula.Scope
import Octet.Formula.Store
import Octet.Formula.Template
import Octet.Formula.Term
import Octet.Formula.Value
import Octet.Formula.Written
import Octet.Layout
import Octet.Library.FileTree
import Octet.Library.Path
import Octet.Library.Resolver
import Octet.Library.Standard
import Octet.Literal
import Octet.Machine.Basic
import Octet.Machine.Execute
import Octet.Machine.Memory
import Octet.Main
import Octet.Program
import Octet.Proofs.Acceptance
import Octet.Proofs.Assembly
import Octet.Proofs.CallResolution
import Octet.Proofs.CodePoints
import Octet.Proofs.CommandLines
import Octet.Proofs.DefinitionOrder
import Octet.Proofs.Derivation
import Octet.Proofs.Disassembly
import Octet.Proofs.Encoding
import Octet.Proofs.Execution
import Octet.Proofs.ExecutionFaults
import Octet.Proofs.ExpansionEnds
import Octet.Proofs.FailedOperations
import Octet.Proofs.FaultPlaces
import Octet.Proofs.FaultShapes
import Octet.Proofs.FileTrees
import Octet.Proofs.FormulaExtents
import Octet.Proofs.Gist
import Octet.Proofs.Grammar
import Octet.Proofs.HardwareStack
import Octet.Proofs.Identifiers
import Octet.Proofs.ImageRuns
import Octet.Proofs.IncludeExpansion
import Octet.Proofs.IncludeRecursion
import Octet.Proofs.InstructionEffects
import Octet.Proofs.InstructionPointer
import Octet.Proofs.JumpFreeRuns
import Octet.Proofs.LargerMemories
import Octet.Proofs.Layout
import Octet.Proofs.Lexing
import Octet.Proofs.LineLocality
import Octet.Proofs.LineRules
import Octet.Proofs.LinearSweep
import Octet.Proofs.ListingAddresses
import Octet.Proofs.ListingLabels
import Octet.Proofs.Loading
import Octet.Proofs.MacroExpansion
import Octet.Proofs.Nesting
import Octet.Proofs.NumeralValues
import Octet.Proofs.OperandIndependence
import Octet.Proofs.OperandRanges
import Octet.Proofs.Outcome
import Octet.Proofs.OverloadKeys
import Octet.Proofs.ParameterBinding
import Octet.Proofs.Pasting
import Octet.Proofs.PathWalks
import Octet.Proofs.PlaceIndependence
import Octet.Proofs.PositionalBinding
import Octet.Proofs.QuotedLines
import Octet.Proofs.RenderedCalls
import Octet.Proofs.Resolvers
import Octet.Proofs.Respacing
import Octet.Proofs.ScanStates
import Octet.Proofs.Sessions
import Octet.Proofs.SourceLines
import Octet.Proofs.Spacing
import Octet.Proofs.StandardCalls
import Octet.Proofs.StandardLibrary
import Octet.Proofs.StandardMacros
import Octet.Proofs.StraightLine
import Octet.Proofs.Tables
import Octet.Proofs.TickLimits
import Octet.Proofs.Tiling
import Octet.Proofs.TokenForms
import Octet.Proofs.TokenPlaces
import Octet.Proofs.TokenText
import Octet.Proofs.WorklistInvariants
import Octet.Proofs.WorklistSteps
import Octet.Proofs.WrittenTokens
import Octet.Register
import Octet.Source
import Octet.Stack
import Octet.Statement.Basic
import Octet.Statement.Parse
import Octet.Table
import Octet.Text.Basic
import Octet.Text.Case
import Octet.Text.Integer
import Octet.Text.Letter
import Octet.Text.Numeral
import Octet.Text.Printable
import Octet.Text.Quoted
import Octet.Text.Search
import Octet.Token.Basic
import Octet.Token.Rule
import Octet.Token.Scan
import Octet.Word
import Octet.Worklist
