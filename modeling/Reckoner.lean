import Reckoner.Expr.Exact
import Reckoner.Expr.Postfix
import Reckoner.Main
import Reckoner.Proofs.Command.Agreement
import Reckoner.Proofs.Command.Tokens
import Reckoner.Proofs.Command.Trees
import Reckoner.Proofs.Decoding.Inverse
import Reckoner.Proofs.Evaluation.Exact
import Reckoner.Proofs.Evaluation.Postfix
import Reckoner.Proofs.Evaluation.Stacks
import Reckoner.Proofs.Lexing.Exhaustion
import Reckoner.Proofs.Lexing.Lookahead
import Reckoner.Proofs.Lexing.Place
import Reckoner.Proofs.Lexing.Position
import Reckoner.Proofs.Lexing.Reading
import Reckoner.Proofs.Lexing.Seams
import Reckoner.Proofs.Parsing.Bounds
import Reckoner.Proofs.Parsing.Error
import Reckoner.Proofs.Parsing.Infix
import Reckoner.Proofs.Parsing.Layout
import Reckoner.Proofs.Parsing.Refinement
import Reckoner.Proofs.Parsing.Returns
import Reckoner.Proofs.Parsing.Substitution
import Reckoner.Proofs.Sentence.Substitution
import Reckoner.Proofs.Session.Accounting
import Reckoner.Proofs.Session.BrokenSource
import Reckoner.Proofs.Session.Framing
import Reckoner.Proofs.Session.FullSink
import Reckoner.Proofs.Session.Malformed
import Reckoner.Proofs.Stream.Queries
import Reckoner.Text.Cut
