import ForthAsm.Assembly.Block
import ForthAsm.Assembly.Line
import ForthAsm.Assembly.Operation
import ForthAsm.Assembly.Program
import ForthAsm.CommandLine.Invocation
import ForthAsm.CommandLine.Report
import ForthAsm.Compilation
import ForthAsm.CompileFailure
import ForthAsm.Diagnostic
import ForthAsm.Draft
import ForthAsm.Files.Artifact
import ForthAsm.Files.Location
import ForthAsm.Files.Path
import ForthAsm.Files.System
import ForthAsm.Files.Tree
import ForthAsm.Instruction.Basic
import ForthAsm.Instruction.Literal
import ForthAsm.Instruction.LoopNumber
import ForthAsm.Instruction.OfWord
import ForthAsm.Instruction.StackEffect
import ForthAsm.IoFailure
import ForthAsm.Log.Filter
import ForthAsm.Log.Quoted
import ForthAsm.Log.Record
import ForthAsm.Log.Setting
import ForthAsm.Main
import ForthAsm.Pattern.Atom
import ForthAsm.Pattern.Basic
import ForthAsm.Pattern.Bracket
import ForthAsm.Pattern.Build
import ForthAsm.Pattern.CharacterSet
import ForthAsm.Pattern.Expression
import ForthAsm.Pattern.Fault
import ForthAsm.Pattern.Meaning
import ForthAsm.Pattern.Nesting
import ForthAsm.Pattern.OfText
import ForthAsm.Pattern.Parser
import ForthAsm.Pattern.Reading
import ForthAsm.Pattern.Size
import ForthAsm.Proofs.CallRules
import ForthAsm.Proofs.Correctness
import ForthAsm.Proofs.Deliveries
import ForthAsm.Proofs.Desk
import ForthAsm.Proofs.Diagnostics
import ForthAsm.Proofs.Drafts
import ForthAsm.Proofs.Effects
import ForthAsm.Proofs.Ends
import ForthAsm.Proofs.Entries
import ForthAsm.Proofs.Execution
import ForthAsm.Proofs.Failures
import ForthAsm.Proofs.Files
import ForthAsm.Proofs.Interpreter
import ForthAsm.Proofs.Knowledge
import ForthAsm.Proofs.Labels
import ForthAsm.Proofs.Layout
import ForthAsm.Proofs.Lines
import ForthAsm.Proofs.Lowering
import ForthAsm.Proofs.Machine
import ForthAsm.Proofs.Meaning
import ForthAsm.Proofs.Numerals
import ForthAsm.Proofs.Outcomes
import ForthAsm.Proofs.Padding
import ForthAsm.Proofs.Readiness
import ForthAsm.Proofs.Reading
import ForthAsm.Proofs.Reports
import ForthAsm.Proofs.Rows
import ForthAsm.Proofs.Scan
import ForthAsm.Proofs.Settings
import ForthAsm.Proofs.Simulation
import ForthAsm.Proofs.Stack
import ForthAsm.Proofs.StackWalk
import ForthAsm.Proofs.Statement
import ForthAsm.Proofs.Tokens
import ForthAsm.Proofs.Trees
import ForthAsm.Proofs.Vocabulary
import ForthAsm.Source.Byte
import ForthAsm.Source.Delivery
import ForthAsm.Source.Position
import ForthAsm.Source.Stream
import ForthAsm.Source.Word
import ForthAsm.Text.Blank
import ForthAsm.Text.ByteRow
import ForthAsm.Text.Cut
import ForthAsm.Text.Letter
import ForthAsm.Text.Plain
import ForthAsm.Text.Similarity
