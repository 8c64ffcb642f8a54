import Kei.Assembly.Checked
import Kei.Assembly.Code
import Kei.Assembly.Emit
import Kei.Assembly.Instr
import Kei.Assembly.Listing
import Kei.Assembly.Shape
import Kei.Assembly.Turns
import Kei.Command.Filter
import Kei.Command.Line
import Kei.Command.Log
import Kei.Command.Pattern
import Kei.Command.Plan
import Kei.Command.Run
import Kei.Compile
import Kei.Diagnostic
import Kei.Host.Basic
import Kei.Host.Path
import Kei.Host.World
import Kei.Machine.Op
import Kei.Machine.Run
import Kei.Main
import Kei.Meaning.Depth
import Kei.Meaning.Eval
import Kei.Meaning.Scoping
import Kei.Meaning.Visits
import Kei.Memory.Arena
import Kei.Memory.Ledger
import Kei.Memory.Node
import Kei.Memory.Tree
import Kei.Proofs.Accounting
import Kei.Proofs.Assembly.Balance
import Kei.Proofs.Assembly.Emission
import Kei.Proofs.Assembly.Grouping
import Kei.Proofs.Assembly.Jumps
import Kei.Proofs.Assembly.Labels
import Kei.Proofs.Assembly.Lines
import Kei.Proofs.Assembly.Numbers
import Kei.Proofs.Assembly.Shape
import Kei.Proofs.Assembly.Turns
import Kei.Proofs.Assembly.Words
import Kei.Proofs.Basic
import Kei.Proofs.Capacity
import Kei.Proofs.Command.Effects
import Kei.Proofs.Command.Outputs
import Kei.Proofs.Command.Steps
import Kei.Proofs.Compilation
import Kei.Proofs.Diagnostics
import Kei.Proofs.Host.Files
import Kei.Proofs.Host.Path
import Kei.Proofs.Lines
import Kei.Proofs.Machine.Loading
import Kei.Proofs.Machine.Simulation
import Kei.Proofs.Machine.Stepping
import Kei.Proofs.Machine.Targets
import Kei.Proofs.Machine.Termination
import Kei.Proofs.Marker
import Kei.Proofs.Meaning.Change
import Kei.Proofs.Meaning.Environment
import Kei.Proofs.Meaning.Relabel
import Kei.Proofs.Meaning.Scoping
import Kei.Proofs.Meaning.Visits
import Kei.Proofs.Memory.Fewer
import Kei.Proofs.Memory.Ledger
import Kei.Proofs.Memory.Limits
import Kei.Proofs.Memory.Requests
import Kei.Proofs.Memory.Room
import Kei.Proofs.Memory.Serving
import Kei.Proofs.Parentheses
import Kei.Proofs.Reader.Completeness
import Kei.Proofs.Reader.Cost
import Kei.Proofs.Reader.Grammar
import Kei.Proofs.Reader.Nesting
import Kei.Proofs.Reader.Rejection
import Kei.Proofs.Reader.Soundness
import Kei.Proofs.Reader.Transition
import Kei.Proofs.Syntax.Data
import Kei.Proofs.Syntax.Lossless
import Kei.Proofs.Syntax.Printing
import Kei.Proofs.Text.Lines
import Kei.Proofs.Text.Numeral
import Kei.Proofs.Token.Scanning
import Kei.Proofs.Token.Spelling
import Kei.Syntax.Brackets
import Kei.Syntax.Change
import Kei.Syntax.Concrete
import Kei.Syntax.Datum
import Kei.Syntax.Grammar
import Kei.Syntax.Parens
import Kei.Syntax.Reader
import Kei.Syntax.Relabel
import Kei.Syntax.ScopeError
import Kei.Syntax.Sexpr
import Kei.Syntax.Tree
import Kei.Text.Hidden
import Kei.Text.Letter
import Kei.Text.Lines
import Kei.Text.Numeral
import Kei.Text.Quoted
import Kei.Text.Ranges
import Kei.Text.Split
import Kei.Text.White
import Kei.Token.Basic
import Kei.Token.Layout
import Kei.Token.Scan
