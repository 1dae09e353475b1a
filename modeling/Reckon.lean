import Reckon.Assembly.Basic
import Reckon.Assembly.Check
import Reckon.Assembly.Emit
import Reckon.Assembly.Eval
import Reckon.Assembly.Host
import Reckon.Assembly.Print
import Reckon.Assembly.Target
import Reckon.CommandLine.Arguments
import Reckon.CommandLine.Directory
import Reckon.CommandLine.Run
import Reckon.Decimal.Double
import Reckon.Decimal.Layout
import Reckon.Decimal.Numeral
import Reckon.Decimal.Shortest
import Reckon.Diagnostic.Basic
import Reckon.Diagnostic.Excerpt
import Reckon.Expr.Basic
import Reckon.Expr.Print
import Reckon.Generate.Basic
import Reckon.Generate.Scope
import Reckon.Grammar.Chain
import Reckon.Grammar.Construct
import Reckon.Grammar.Cursor
import Reckon.Grammar.Progress
import Reckon.Grammar.Reader
import Reckon.Main
import Reckon.Operator.Assignment
import Reckon.Operator.Table
import Reckon.Proofs.Assembly.Built
import Reckon.Proofs.Assembly.Depth
import Reckon.Proofs.Assembly.Draft
import Reckon.Proofs.Assembly.Naming
import Reckon.Proofs.Assembly.Refusal
import Reckon.Proofs.Assembly.Renaming
import Reckon.Proofs.Assembly.Representation
import Reckon.Proofs.Assembly.Running
import Reckon.Proofs.Assembly.Slots
import Reckon.Proofs.Assembly.Soundness
import Reckon.Proofs.Assembly.WellFormed
import Reckon.Proofs.Decimal.Bits
import Reckon.Proofs.Decimal.Leading
import Reckon.Proofs.Decimal.Neighbourhood
import Reckon.Proofs.Decimal.ReadBack
import Reckon.Proofs.Decimal.Rounding
import Reckon.Proofs.Decimal.Sign
import Reckon.Proofs.Diagnostic.Pointer
import Reckon.Proofs.Diagnostic.Severity
import Reckon.Proofs.Expr.Literal
import Reckon.Proofs.Expr.Nesting
import Reckon.Proofs.Expr.RoundTrip
import Reckon.Proofs.Generate.Blame
import Reckon.Proofs.Generate.Checking
import Reckon.Proofs.Generate.Code
import Reckon.Proofs.Generate.Correspondence
import Reckon.Proofs.Generate.Definition
import Reckon.Proofs.Generate.Emission
import Reckon.Proofs.Generate.Numbering
import Reckon.Proofs.Generate.Outcome
import Reckon.Proofs.Generate.Protocol
import Reckon.Proofs.Generate.Reach
import Reckon.Proofs.Generate.Redefinition
import Reckon.Proofs.Generate.Reliance
import Reckon.Proofs.Generate.Relocation
import Reckon.Proofs.Generate.Verdict
import Reckon.Proofs.Generate.Violation
import Reckon.Proofs.Grammar.Acceptance
import Reckon.Proofs.Grammar.Bracketing
import Reckon.Proofs.Grammar.Climbing
import Reckon.Proofs.Grammar.Grouping
import Reckon.Proofs.Grammar.Relocation
import Reckon.Proofs.Grammar.Rooting
import Reckon.Proofs.Grammar.Sentence
import Reckon.Proofs.Grammar.Separation
import Reckon.Proofs.Grammar.Stopping
import Reckon.Proofs.Meaning.Description
import Reckon.Proofs.Meaning.Execution
import Reckon.Proofs.Meaning.Interpreter
import Reckon.Proofs.Meaning.Preservation
import Reckon.Proofs.Operator.Reading
import Reckon.Proofs.Session.Atomicity
import Reckon.Proofs.Session.Batch
import Reckon.Proofs.Session.Effect
import Reckon.Proofs.Session.Influence
import Reckon.Proofs.Session.Naming
import Reckon.Proofs.Session.Pointing
import Reckon.Proofs.Session.Reach
import Reckon.Proofs.Session.Recovery
import Reckon.Proofs.Session.Stability
import Reckon.Proofs.Session.Succession
import Reckon.Proofs.Session.Validity
import Reckon.Proofs.Source.Lines
import Reckon.Proofs.Target.Unreliable
import Reckon.Proofs.Text.Trim
import Reckon.Proofs.Token.Cutting
import Reckon.Proofs.Token.Joining
import Reckon.Proofs.Token.Layout
import Reckon.Proofs.Token.Placing
import Reckon.Proofs.Token.Tiling
import Reckon.Session.Basic
import Reckon.Session.Report
import Reckon.Source.Line
import Reckon.Source.Position
import Reckon.Target.Basic
import Reckon.Target.Faulty
import Reckon.Target.Traced
import Reckon.Text.Attaching
import Reckon.Text.Blank
import Reckon.Text.Printable
import Reckon.Text.Quoted
import Reckon.Token.Basic
import Reckon.Token.Scan
