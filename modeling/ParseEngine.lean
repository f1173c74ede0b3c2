import ParseEngine.Calculator
import ParseEngine.CommandLine
import ParseEngine.Cursor
import ParseEngine.Cursor.Move
import ParseEngine.Decimal.Binary64
import ParseEngine.Decimal.Layout
import ParseEngine.Decimal.Reading
import ParseEngine.Decimal.Shortest
import ParseEngine.Diagnostic
import ParseEngine.Engine
import ParseEngine.Grammar.Blueprint
import ParseEngine.Grammar.Builder
import ParseEngine.Grammar.Expr
import ParseEngine.Grammar.Run
import ParseEngine.Json.Basic
import ParseEngine.Json.Reader
import ParseEngine.Kind
import ParseEngine.Main
import ParseEngine.Numeral
import ParseEngine.Outcome
import ParseEngine.Pattern.Basic
import ParseEngine.Pattern.Program
import ParseEngine.Pattern.Reader
import ParseEngine.Pattern.Search
import ParseEngine.Pattern.Tree
import ParseEngine.Prim
import ParseEngine.Proofs.Agreement
import ParseEngine.Proofs.Alternatives
import ParseEngine.Proofs.Anchoring
import ParseEngine.Proofs.Arithmetic
import ParseEngine.Proofs.Backtracking
import ParseEngine.Proofs.Blanks
import ParseEngine.Proofs.Boundary
import ParseEngine.Proofs.Calculation
import ParseEngine.Proofs.Calling
import ParseEngine.Proofs.ContextMemo
import ParseEngine.Proofs.Contract
import ParseEngine.Proofs.Coupling
import ParseEngine.Proofs.Diagnosis
import ParseEngine.Proofs.Dialogue
import ParseEngine.Proofs.Expression
import ParseEngine.Proofs.Foundation
import ParseEngine.Proofs.Fuel
import ParseEngine.Proofs.Growing
import ParseEngine.Proofs.History
import ParseEngine.Proofs.Integers
import ParseEngine.Proofs.LeftFold
import ParseEngine.Proofs.LinearScript
import ParseEngine.Proofs.Literals
import ParseEngine.Proofs.Nonrecursive
import ParseEngine.Proofs.Numerals
import ParseEngine.Proofs.OperatorChain
import ParseEngine.Proofs.OwnValue
import ParseEngine.Proofs.PatternReading
import ParseEngine.Proofs.Positions
import ParseEngine.Proofs.Progress
import ParseEngine.Proofs.Repetition
import ParseEngine.Proofs.Routine
import ParseEngine.Proofs.Rule
import ParseEngine.Proofs.Script
import ParseEngine.Proofs.SeedReads
import ParseEngine.Proofs.Separation
import ParseEngine.Proofs.Session
import ParseEngine.Proofs.SettledOnce
import ParseEngine.Proofs.Settlement
import ParseEngine.Proofs.Simulation
import ParseEngine.Proofs.Stability
import ParseEngine.Proofs.Stack
import ParseEngine.Proofs.Termination
import ParseEngine.Proofs.Tracking
import ParseEngine.Proofs.Transparency
import ParseEngine.Proofs.Triples
import ParseEngine.Proofs.Watching
import ParseEngine.Runner.Adapter
import ParseEngine.Runner.Basic
import ParseEngine.Runner.Choice
import ParseEngine.Runner.Interceptor
import ParseEngine.Runner.Memo
import ParseEngine.Runner.Repetition
import ParseEngine.Session.Basic
import ParseEngine.Session.Journal
import ParseEngine.Session.Options
import ParseEngine.Session.OptionsReader
import ParseEngine.Steps.Driver
import ParseEngine.Steps.Script
import ParseEngine.Text.Blank
import ParseEngine.Text.Bytes
import ParseEngine.Text.Case
import ParseEngine.Text.Letter
import ParseEngine.Text.Number
import ParseEngine.Text.Printable
import ParseEngine.Text.Quoted
import ParseEngine.Text.Recent
import ParseEngine.Text.Runs
import ParseEngine.Text.Word
import ParseEngine.Value.Basic
import ParseEngine.Value.Transform
import ParseEngine.Workbench
