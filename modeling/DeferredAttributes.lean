import DeferredAttributes.Block.Loading
import DeferredAttributes.CommandLine.Program
import DeferredAttributes.CommandLine.Reading
import DeferredAttributes.CommandLine.Request
import DeferredAttributes.CommandLine.Usage
import DeferredAttributes.Decimal.Binary
import DeferredAttributes.Decimal.Layout
import DeferredAttributes.Decimal.Reading
import DeferredAttributes.Decimal.Shortest
import DeferredAttributes.Disk.Basic
import DeferredAttributes.Disk.FileTree
import DeferredAttributes.Document.Configuration
import DeferredAttributes.Document.Loading
import DeferredAttributes.Expression.Evaluate
import DeferredAttributes.Expression.Operator
import DeferredAttributes.Expression.Parse
import DeferredAttributes.Expression.Token
import DeferredAttributes.Hcl.Body
import DeferredAttributes.Hcl.Heredoc
import DeferredAttributes.Hcl.Lexical
import DeferredAttributes.Hcl.Number
import DeferredAttributes.Hcl.Quotes
import DeferredAttributes.Hcl.Reading
import DeferredAttributes.Hcl.Syntax
import DeferredAttributes.Hcl.Writing
import DeferredAttributes.Main
import DeferredAttributes.Proofs.Block.Accounting
import DeferredAttributes.Proofs.Block.Additional
import DeferredAttributes.Proofs.Block.Coverage
import DeferredAttributes.Proofs.Block.Declared
import DeferredAttributes.Proofs.Block.Declaring
import DeferredAttributes.Proofs.Block.Errors
import DeferredAttributes.Proofs.Block.Local
import DeferredAttributes.Proofs.Block.Paths
import DeferredAttributes.Proofs.Block.Placed
import DeferredAttributes.Proofs.Block.Preorder
import DeferredAttributes.Proofs.Block.Refreshed
import DeferredAttributes.Proofs.Block.Rendering
import DeferredAttributes.Proofs.Block.Renewal
import DeferredAttributes.Proofs.Block.Repetitions
import DeferredAttributes.Proofs.Block.Retained
import DeferredAttributes.Proofs.Block.Rewriting
import DeferredAttributes.Proofs.Block.Solution
import DeferredAttributes.Proofs.Block.Validity
import DeferredAttributes.Proofs.Decimal.Nearest
import DeferredAttributes.Proofs.Decimal.Special
import DeferredAttributes.Proofs.Decimal.Whole
import DeferredAttributes.Proofs.Document.Contents
import DeferredAttributes.Proofs.Document.Integers
import DeferredAttributes.Proofs.Document.Splitting
import DeferredAttributes.Proofs.Expression.Accepted
import DeferredAttributes.Proofs.Expression.Asking
import DeferredAttributes.Proofs.Expression.Climbing
import DeferredAttributes.Proofs.Expression.Comparing
import DeferredAttributes.Proofs.Expression.Compound
import DeferredAttributes.Proofs.Expression.Continuing
import DeferredAttributes.Proofs.Expression.Depth
import DeferredAttributes.Proofs.Expression.Descending
import DeferredAttributes.Proofs.Expression.Descent
import DeferredAttributes.Proofs.Expression.Grammar
import DeferredAttributes.Proofs.Expression.Lexemes
import DeferredAttributes.Proofs.Expression.Malformed
import DeferredAttributes.Proofs.Expression.Marker
import DeferredAttributes.Proofs.Expression.Numeral
import DeferredAttributes.Proofs.Expression.Offsets
import DeferredAttributes.Proofs.Expression.Pieces
import DeferredAttributes.Proofs.Expression.Recursion
import DeferredAttributes.Proofs.Expression.Spacing
import DeferredAttributes.Proofs.Expression.Unfinished
import DeferredAttributes.Proofs.Resolution.Answer
import DeferredAttributes.Proofs.Resolution.Apart
import DeferredAttributes.Proofs.Resolution.Calls
import DeferredAttributes.Proofs.Resolution.Circle
import DeferredAttributes.Proofs.Resolution.Course
import DeferredAttributes.Proofs.Resolution.Failures
import DeferredAttributes.Proofs.Resolution.History
import DeferredAttributes.Proofs.Resolution.Ledger
import DeferredAttributes.Proofs.Resolution.Local
import DeferredAttributes.Proofs.Resolution.Order
import DeferredAttributes.Proofs.Resolution.Passes
import DeferredAttributes.Proofs.Resolution.Refreshing
import DeferredAttributes.Proofs.Resolution.Renewal
import DeferredAttributes.Proofs.Resolution.Repeated
import DeferredAttributes.Proofs.Resolution.Reported
import DeferredAttributes.Proofs.Resolution.Retained
import DeferredAttributes.Proofs.Resolution.Retaining
import DeferredAttributes.Proofs.Resolution.Rounds
import DeferredAttributes.Proofs.Resolution.Run
import DeferredAttributes.Proofs.Resolution.Session
import DeferredAttributes.Proofs.Resolution.Solution
import DeferredAttributes.Proofs.Resolution.Sound
import DeferredAttributes.Proofs.Resolution.Stamps
import DeferredAttributes.Proofs.Resolution.Unique
import DeferredAttributes.Proofs.Resolution.Waiting
import DeferredAttributes.Proofs.Resolver.Errors
import DeferredAttributes.Proofs.Resolver.Filling
import DeferredAttributes.Proofs.Resolver.Printed
import DeferredAttributes.Proofs.Resolver.Reads
import DeferredAttributes.Proofs.Resolver.Renewable
import DeferredAttributes.Proofs.Resolver.Stable
import DeferredAttributes.Proofs.Resolver.Unsteady
import DeferredAttributes.Proofs.Schema.Conditions
import DeferredAttributes.Proofs.Schema.Written
import DeferredAttributes.Proofs.Table
import DeferredAttributes.Proofs.Text.Splitting
import DeferredAttributes.Proofs.Tree.Apart
import DeferredAttributes.Proofs.Tree.Arena
import DeferredAttributes.Proofs.Tree.Evolving
import DeferredAttributes.Proofs.Tree.Navigation
import DeferredAttributes.Proofs.Tree.Rendering
import DeferredAttributes.Proofs.Tree.Revised
import DeferredAttributes.Proofs.Tree.Segments
import DeferredAttributes.Proofs.Tree.Shape
import DeferredAttributes.Proofs.Tree.Stored
import DeferredAttributes.Proofs.Tree.Typed
import DeferredAttributes.Proofs.Tree.Versions
import DeferredAttributes.Report
import DeferredAttributes.Resolution.Assignment
import DeferredAttributes.Resolution.Basic
import DeferredAttributes.Resolution.Parked
import DeferredAttributes.Resolution.Refresh
import DeferredAttributes.Resolver.Basic
import DeferredAttributes.Resolver.Scope
import DeferredAttributes.Resolver.Supplied
import DeferredAttributes.Schema.Basic
import DeferredAttributes.Schema.Spec
import DeferredAttributes.Table
import DeferredAttributes.Text.Blank
import DeferredAttributes.Text.Letters
import DeferredAttributes.Text.Quoted
import DeferredAttributes.Tree.Basic
import DeferredAttributes.Tree.Lookup
import DeferredAttributes.Tree.Rendering
import DeferredAttributes.Tree.Store
import DeferredAttributes.Value.Basic
import DeferredAttributes.Value.Json
import DeferredAttributes.Value.Yaml
