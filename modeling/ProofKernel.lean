import ProofKernel.Text.Class
import ProofKernel.Text.CombiningClass
import ProofKernel.Text.Composition
import ProofKernel.Text.Decomposition
import ProofKernel.Text.Letter
import ProofKernel.Text.Quoted
import ProofKernel.Text.Symbol
import ProofKernel.Text.Composed
import ProofKernel.Decimal.Shortest
import ProofKernel.Term
import ProofKernel.Substitution
import ProofKernel.Name.Map
import ProofKernel.Term.Printer
import ProofKernel.Script.Lexer
import ProofKernel.Script.Parser
import ProofKernel.Context
import ProofKernel.SymbolTable.Forest
import ProofKernel.Subtyping
import ProofKernel.Guard
import ProofKernel.Positivity
import ProofKernel.Typing
import ProofKernel.Prelude
import ProofKernel.Script.Layers
import ProofKernel.Session
import ProofKernel.Batch
import ProofKernel.Workbench
import ProofKernel.Path
import ProofKernel.Text.ByteOrder
import ProofKernel.Script.Collection
import ProofKernel.Session.Recorded
import ProofKernel.CommandLine.Fixtures
import ProofKernel.Web.Service
import ProofKernel.Main
import ProofKernel.Proofs.Reduction.Steps
import ProofKernel.Proofs.Substitution
import ProofKernel.Proofs.Typing.Rules
import ProofKernel.Proofs.Typing.Shadowing
import ProofKernel.Proofs.Declaration.Staging
import ProofKernel.Proofs.Session.Reachable
import ProofKernel.Proofs.Session.Consistency
import ProofKernel.Proofs.Nameless.Basic
import ProofKernel.Proofs.Nameless.Interpretation
import ProofKernel.Proofs.Nameless.Shape
import ProofKernel.Proofs.Nameless.Reduction
import ProofKernel.Proofs.Nameless.Agreement
import ProofKernel.Proofs.Nameless.Cases
import ProofKernel.Proofs.Hygiene
import ProofKernel.Proofs.Nameless.Guard
import ProofKernel.Proofs.Typing.Scope
import ProofKernel.Proofs.Typing.Twins
import ProofKernel.Proofs.Typing.Renaming
import ProofKernel.Proofs.Session.Closed
import ProofKernel.Proofs.Session.Renaming
import ProofKernel.Proofs.Support.Leaves
import ProofKernel.Proofs.Support.Typing
import ProofKernel.Proofs.Support.Accepted
import ProofKernel.Proofs.Batch.Refinement
import ProofKernel.Proofs.Support.SelfContained
import ProofKernel.Proofs.Session.Grounded
import ProofKernel.Proofs.Batch.Sequence
import ProofKernel.Proofs.Session.Scoping
import ProofKernel.Proofs.Nameless.Order
import ProofKernel.Proofs.Nameless.Equality
import ProofKernel.Proofs.Nameless.Replacement
import ProofKernel.Proofs.Nameless.Contraction
import ProofKernel.Proofs.Typing.Filling
import ProofKernel.Proofs.Session.Filling
import ProofKernel.Proofs.Session.Effect
import ProofKernel.Proofs.Session.Positivity
import ProofKernel.Proofs.Session.Recording
import ProofKernel.Proofs.Workbench.Staging
import ProofKernel.Proofs.Workbench.Runs
import ProofKernel.Proofs.Script.Tokens
import ProofKernel.Proofs.Workbench.Stability
import ProofKernel.Proofs.Script.Alike
import ProofKernel.Proofs.Script.Parsing
import ProofKernel.Proofs.Script.Settled
import ProofKernel.Proofs.Script.Source
import ProofKernel.Proofs.Script.Rereading
import ProofKernel.Proofs.Script.RoundTrip
import ProofKernel.Proofs.Session.Replay
import ProofKernel.Proofs.Forest.Faithful
import ProofKernel.Proofs.Nameless.Subtyping
import ProofKernel.Proofs.Guard.Condition
import ProofKernel.Proofs.Guard.Reduction
import ProofKernel.Proofs.Conversion.Subtyping
import ProofKernel.Proofs.Arithmetic
import ProofKernel.Proofs.Reduction.Folding
import ProofKernel.Proofs.Session.Registration
import ProofKernel.Proofs.Session.Addition
import ProofKernel.Proofs.Session.Conclusion
import ProofKernel.Proofs.Nameless.CaseType
import ProofKernel.Proofs.Graph.Cycles
import ProofKernel.Proofs.Graph.Countdown
import ProofKernel.Proofs.Batch.Cycles
import ProofKernel.Proofs.Batch.Agreement
import ProofKernel.Proofs.Script.Scoping
import ProofKernel.Proofs.Forest.Commit
import ProofKernel.Proofs.Script.Tiling
import ProofKernel.Proofs.Journal.Kept
import ProofKernel.Proofs.Session.Parameters
import ProofKernel.Proofs.Typing.Hierarchy
