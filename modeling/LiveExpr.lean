import LiveExpr.Builtin
import LiveExpr.CommandLine
import LiveExpr.Compile.Assignment
import LiveExpr.Compile.Formula
import LiveExpr.Compile.Operation
import LiveExpr.Compile.Program
import LiveExpr.Compile.Progress
import LiveExpr.Compile.Symbol
import LiveExpr.Description
import LiveExpr.Diagnostic
import LiveExpr.Expression
import LiveExpr.File
import LiveExpr.Grammar
import LiveExpr.Grammar.Form
import LiveExpr.Grammar.Formula
import LiveExpr.Grammar.Operand
import LiveExpr.Grammar.Reader
import LiveExpr.Grammar.Sequence
import LiveExpr.Grammar.Statement
import LiveExpr.Grammar.Tree
import LiveExpr.Main
import LiveExpr.Node
import LiveExpr.Node.Evaluation
import LiveExpr.Node.Extent
import LiveExpr.Node.Folding
import LiveExpr.Number.Functions
import LiveExpr.Number.Magnitude
import LiveExpr.Number.Notation
import LiveExpr.Number.Reading
import LiveExpr.Number.Rounding
import LiveExpr.Number.Shortest
import LiveExpr.Operator
import LiveExpr.Problem
import LiveExpr.Store
import LiveExpr.Store.Cells
import LiveExpr.Symbol.Name
import LiveExpr.Symbol.NameMap
import LiveExpr.Symbol.Table
import LiveExpr.Text.Blank
import LiveExpr.Text.Bytes
import LiveExpr.Text.Printable
import LiveExpr.Text.Quoted
import LiveExpr.Text.Separated
import LiveExpr.Text.Slice
import LiveExpr.Text.Wildcard
import LiveExpr.Token
import LiveExpr.Token.Literal
import LiveExpr.Token.Scan
import LiveExpr.Value
import LiveExpr.World
import LiveExpr.Proofs.Compile.Assignment
import LiveExpr.Proofs.Compile.Completion
import LiveExpr.Proofs.Compile.Compound
import LiveExpr.Proofs.Compile.Confinement
import LiveExpr.Proofs.Compile.Copy
import LiveExpr.Proofs.Compile.Correspondence
import LiveExpr.Proofs.Compile.Course
import LiveExpr.Proofs.Compile.Creation
import LiveExpr.Proofs.Compile.Declarations
import LiveExpr.Proofs.Compile.Depth
import LiveExpr.Proofs.Compile.Effects
import LiveExpr.Proofs.Compile.Folding
import LiveExpr.Proofs.Compile.Fundamental
import LiveExpr.Proofs.Compile.Grammar
import LiveExpr.Proofs.Compile.Halting
import LiveExpr.Proofs.Compile.Height
import LiveExpr.Proofs.Compile.Inquiry
import LiveExpr.Proofs.Compile.Lasting
import LiveExpr.Proofs.Compile.Law
import LiveExpr.Proofs.Compile.Limit
import LiveExpr.Proofs.Compile.Naming
import LiveExpr.Proofs.Compile.Operation
import LiveExpr.Proofs.Compile.Parallel
import LiveExpr.Proofs.Compile.Places
import LiveExpr.Proofs.Compile.Plain
import LiveExpr.Proofs.Compile.Questions
import LiveExpr.Proofs.Compile.Recovery
import LiveExpr.Proofs.Compile.Relabeling
import LiveExpr.Proofs.Compile.Repetition
import LiveExpr.Proofs.Compile.Results
import LiveExpr.Proofs.Compile.Soundness
import LiveExpr.Proofs.Compile.Source
import LiveExpr.Proofs.Compile.Success
import LiveExpr.Proofs.Compile.Targets
import LiveExpr.Proofs.Compile.Undefined
import LiveExpr.Proofs.Compile.Variable
import LiveExpr.Proofs.Compile.WellFormed
import LiveExpr.Proofs.Compile.Work
import LiveExpr.Proofs.Expression.Clone
import LiveExpr.Proofs.Expression.Height
import LiveExpr.Proofs.Expression.Straight
import LiveExpr.Proofs.Expression.Subscripts
import LiveExpr.Proofs.Grammar.Completeness
import LiveExpr.Proofs.Grammar.Contracts
import LiveExpr.Proofs.Grammar.Deepening
import LiveExpr.Proofs.Grammar.Derivation
import LiveExpr.Proofs.Grammar.Follow
import LiveExpr.Proofs.Grammar.Height
import LiveExpr.Proofs.Grammar.Levels
import LiveExpr.Proofs.Grammar.Lookahead
import LiveExpr.Proofs.Grammar.Mentions
import LiveExpr.Proofs.Grammar.Nested
import LiveExpr.Proofs.Grammar.Occurrences
import LiveExpr.Proofs.Grammar.Proper
import LiveExpr.Proofs.Grammar.Soundness
import LiveExpr.Proofs.Grammar.Taking
import LiveExpr.Proofs.Grammar.Usage
import LiveExpr.Proofs.Node.Agreement
import LiveExpr.Proofs.Node.Congruence
import LiveExpr.Proofs.Node.Everywhere
import LiveExpr.Proofs.Node.Extent
import LiveExpr.Proofs.Node.Flattening
import LiveExpr.Proofs.Node.Folding
import LiveExpr.Proofs.Node.Height
import LiveExpr.Proofs.Node.Initialization
import LiveExpr.Proofs.Node.Joining
import LiveExpr.Proofs.Node.Learning
import LiveExpr.Proofs.Node.Locality
import LiveExpr.Proofs.Node.Preservation
import LiveExpr.Proofs.Node.Relabeling
import LiveExpr.Proofs.Node.Rounds
import LiveExpr.Proofs.Node.Sequencing
import LiveExpr.Proofs.Node.Trace
import LiveExpr.Proofs.Node.TraceRelation
import LiveExpr.Proofs.Node.WellFormed
import LiveExpr.Proofs.Number.Tolerance
import LiveExpr.Proofs.Number.Unpacked
import LiveExpr.Proofs.Number.Value
import LiveExpr.Proofs.Number.Whole
import LiveExpr.Proofs.Pass.Agreement
import LiveExpr.Proofs.Pass.Following
import LiveExpr.Proofs.Pass.Forms
import LiveExpr.Proofs.Pass.Formulas
import LiveExpr.Proofs.Pass.Keeping
import LiveExpr.Proofs.Pass.Order
import LiveExpr.Proofs.Pass.Parser
import LiveExpr.Proofs.Pass.Program
import LiveExpr.Proofs.Pass.Routine
import LiveExpr.Proofs.Pass.Sharing
import LiveExpr.Proofs.Precedence.Call
import LiveExpr.Proofs.Precedence.Formula
import LiveExpr.Proofs.Precedence.Meaning
import LiveExpr.Proofs.Precedence.Reading
import LiveExpr.Proofs.Precedence.Writing
import LiveExpr.Proofs.Store.Allocation
import LiveExpr.Proofs.Store.Growth
import LiveExpr.Proofs.Symbol.NameMap
import LiveExpr.Proofs.Symbol.Table
import LiveExpr.Proofs.Text.Line
import LiveExpr.Proofs.Text.Slice
import LiveExpr.Proofs.Text.Wildcard
import LiveExpr.Proofs.Token.Columns
import LiveExpr.Proofs.Token.Layout
import LiveExpr.Proofs.Token.Literal
import LiveExpr.Proofs.Token.Naming
import LiveExpr.Proofs.Token.Quoting
import LiveExpr.Proofs.Token.Spacing
import LiveExpr.Proofs.Transport.Compile
import LiveExpr.Proofs.Transport.Grammar
import LiveExpr.Proofs.Transport.Program
import LiveExpr.Proofs.Transport.Reader
import LiveExpr.Proofs.Transport.Tree
import LiveExpr.Proofs.World.Access
import LiveExpr.Proofs.World.Merging
import LiveExpr.Proofs.World.Naming
import LiveExpr.Proofs.World.Operation
import LiveExpr.Proofs.World.Reachability
import LiveExpr.Proofs.World.Regularity
import LiveExpr.Proofs.World.Session
