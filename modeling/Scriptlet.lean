import Scriptlet.Text.Blank
import Scriptlet.Text.Lines
import Scriptlet.Text.Quoted
import Scriptlet.Text.Offset
import Scriptlet.Text.Bytes
import Scriptlet.Number.Shortest
import Scriptlet.Token
import Scriptlet.Expr
import Scriptlet.Level
import Scriptlet.Source.Tokens
import Scriptlet.Report
import Scriptlet.Cursor
import Scriptlet.Grammar.Program
import Scriptlet.Evaluation
import Scriptlet.Session
import Scriptlet.Run
import Scriptlet.Command.World
import Scriptlet.Main
import Scriptlet.Proofs.Grammar.Passing
import Scriptlet.Proofs.Grammar.Trees
import Scriptlet.Proofs.Grammar.Phases
import Scriptlet.Proofs.Grammar.Expressions
import Scriptlet.Proofs.Grammar.ExpressionLanguage
import Scriptlet.Proofs.Grammar.ProgramLanguage
import Scriptlet.Proofs.Grammar.Blame
import Scriptlet.Proofs.Grammar.FirstError
import Scriptlet.Proofs.Grammar.Closed
import Scriptlet.Proofs.Relining
import Scriptlet.Proofs.Grammar.Relining
import Scriptlet.Proofs.Text.Lines
import Scriptlet.Proofs.Text.JoinedLines
import Scriptlet.Proofs.Number.Nearest
import Scriptlet.Proofs.Source.Lexemes
import Scriptlet.Proofs.Source.Boundaries
import Scriptlet.Proofs.Source.Tokens
import Scriptlet.Proofs.Source.Scanning
import Scriptlet.Proofs.Source.Places
import Scriptlet.Proofs.Source.Extents
import Scriptlet.Proofs.Source.LongestMatch
import Scriptlet.Proofs.Source.Handlers
import Scriptlet.Proofs.Source.Offsets
import Scriptlet.Proofs.Source.Modes
import Scriptlet.Proofs.Source.Layout
import Scriptlet.Proofs.Source.Spacing
import Scriptlet.Proofs.Evaluation.Operators
import Scriptlet.Proofs.Evaluation.Relining
import Scriptlet.Proofs.Session.Transcript
import Scriptlet.Proofs.Session.Truncation
import Scriptlet.Proofs.Run.Outcome
import Scriptlet.Proofs.Run.Report
import Scriptlet.Proofs.Run.Culprit
import Scriptlet.Proofs.Run.Concatenation
import Scriptlet.Proofs.Run.Spacing
import Scriptlet.Proofs.Evaluation.Faults
import Scriptlet.Proofs.Evaluation.Types
import Scriptlet.Proofs.Evaluation.FirstFault
import Scriptlet.Proofs.Grammar.Progress
import Scriptlet.Proofs.Grammar.Calls
import Scriptlet.Proofs.Grammar.CursorSafety
import Scriptlet.Proofs.Grammar.HandedTokens
import Scriptlet.Proofs.Command.Hosts
import Scriptlet.Proofs.Command.Stages
import Scriptlet.Proofs.Number.Bits
import Scriptlet.Proofs.Number.ReadBack
import Scriptlet.Proofs.Grammar.PrefixForm
import Scriptlet.Proofs.Run.PrefixForm
import Scriptlet.Proofs.Run.Echo
import Scriptlet.Proofs.Grammar.Brackets
import Scriptlet.Proofs.Number.Sign
import Scriptlet.Proofs.Run.PrintedNumber
import Scriptlet.Proofs.Run.Strings
