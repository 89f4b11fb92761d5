import ComplexityMeter.Command.Console
import ComplexityMeter.Command.Document
import ComplexityMeter.Command.Help
import ComplexityMeter.Command.Invocation
import ComplexityMeter.Command.Options
import ComplexityMeter.Command.Outcome
import ComplexityMeter.Command.Run
import ComplexityMeter.Config.Field
import ComplexityMeter.Config.Record
import ComplexityMeter.Config.Source
import ComplexityMeter.Config.Weighing
import ComplexityMeter.Config.Weights
import ComplexityMeter.Decimal.Dyadic
import ComplexityMeter.Decimal.Ratio
import ComplexityMeter.Decimal.Text
import ComplexityMeter.Event
import ComplexityMeter.Failure
import ComplexityMeter.FailureClass
import ComplexityMeter.Files
import ComplexityMeter.Graph.Imports
import ComplexityMeter.Graph.Order
import ComplexityMeter.Graph.Survey
import ComplexityMeter.Graph.Total
import ComplexityMeter.Json.Reader
import ComplexityMeter.Json.Writer
import ComplexityMeter.Log
import ComplexityMeter.Main
import ComplexityMeter.Metrics.Category
import ComplexityMeter.Metrics.Comparison
import ComplexityMeter.Metrics.Mutation
import ComplexityMeter.Metrics.Report
import ComplexityMeter.Metrics.Snippet
import ComplexityMeter.Moment
import ComplexityMeter.Number
import ComplexityMeter.Path
import ComplexityMeter.Proofs.Command.Batch
import ComplexityMeter.Proofs.Command.Printing
import ComplexityMeter.Proofs.Comments
import ComplexityMeter.Proofs.Config.Acceptance
import ComplexityMeter.Proofs.Config.Layers
import ComplexityMeter.Proofs.Config.Precedence
import ComplexityMeter.Proofs.Config.Range
import ComplexityMeter.Proofs.Config.Sources
import ComplexityMeter.Proofs.Entries
import ComplexityMeter.Proofs.Exact
import ComplexityMeter.Proofs.Graph.Completion
import ComplexityMeter.Proofs.Graph.Coverage
import ComplexityMeter.Proofs.Graph.Extension
import ComplexityMeter.Proofs.Graph.Growth
import ComplexityMeter.Proofs.Graph.Independence
import ComplexityMeter.Proofs.Graph.Ordering
import ComplexityMeter.Proofs.Graph.Reading
import ComplexityMeter.Proofs.Graph.Recurrence
import ComplexityMeter.Proofs.Graph.Refusal
import ComplexityMeter.Proofs.Graph.Search
import ComplexityMeter.Proofs.Graph.View
import ComplexityMeter.Proofs.Log
import ComplexityMeter.Proofs.Metrics.Accounting
import ComplexityMeter.Proofs.Metrics.Ceiling
import ComplexityMeter.Proofs.Metrics.Comparison
import ComplexityMeter.Proofs.Metrics.Continuation
import ComplexityMeter.Proofs.Metrics.Mutability
import ComplexityMeter.Proofs.Metrics.Scope
import ComplexityMeter.Proofs.Metrics.Threshold
import ComplexityMeter.Proofs.Metrics.View
import ComplexityMeter.Proofs.Order
import ComplexityMeter.Proofs.Path.Meaning
import ComplexityMeter.Proofs.Path.Resolution
import ComplexityMeter.Proofs.Place
import ComplexityMeter.Proofs.Runs
import ComplexityMeter.Proofs.Score.Addition
import ComplexityMeter.Proofs.Score.Branching
import ComplexityMeter.Proofs.Score.Ceiling
import ComplexityMeter.Proofs.Score.Composition
import ComplexityMeter.Proofs.Score.Dominance
import ComplexityMeter.Proofs.Score.Expansions
import ComplexityMeter.Proofs.Score.Formula
import ComplexityMeter.Proofs.Score.Growth
import ComplexityMeter.Proofs.Score.Listing
import ComplexityMeter.Proofs.Score.Monotone
import ComplexityMeter.Proofs.Score.Outcome
import ComplexityMeter.Proofs.Score.Ranking
import ComplexityMeter.Proofs.Score.Shape
import ComplexityMeter.Proofs.Score.Statistics
import ComplexityMeter.Proofs.Score.Traversal
import ComplexityMeter.Proofs.Score.View
import ComplexityMeter.Proofs.Syntax.Addition
import ComplexityMeter.Proofs.Syntax.Comments
import ComplexityMeter.Proofs.Syntax.Fault
import ComplexityMeter.Proofs.Syntax.Preorder
import ComplexityMeter.Proofs.Syntax.View
import ComplexityMeter.Proofs.Syntax.Walk
import ComplexityMeter.Proofs.Terminal
import ComplexityMeter.Proofs.Toml.Document
import ComplexityMeter.Proofs.Units
import ComplexityMeter.Scalar
import ComplexityMeter.Score.File
import ComplexityMeter.Score.Form
import ComplexityMeter.Score.Parts
import ComplexityMeter.Score.Ranking
import ComplexityMeter.Score.Recipe
import ComplexityMeter.Score.Result
import ComplexityMeter.Score.Rule
import ComplexityMeter.Score.Runs
import ComplexityMeter.Score.Summary
import ComplexityMeter.Score.Visit
import ComplexityMeter.Settings
import ComplexityMeter.Syntax.Language
import ComplexityMeter.Syntax.Node
import ComplexityMeter.Syntax.Record
import ComplexityMeter.Syntax.Subtree
import ComplexityMeter.Syntax.Tree
import ComplexityMeter.Terminal
import ComplexityMeter.Terminal.Drawing
import ComplexityMeter.Terminal.Emoji
import ComplexityMeter.Terminal.Markup
import ComplexityMeter.Terminal.Width
import ComplexityMeter.Text.Character
import ComplexityMeter.Text.Digit
import ComplexityMeter.Text.Lines
import ComplexityMeter.Text.Numeral
import ComplexityMeter.Text.Printable
import ComplexityMeter.Text.Quoted
import ComplexityMeter.Text.Utf8
import ComplexityMeter.Toml.Document
import ComplexityMeter.Toml.Lexeme
import ComplexityMeter.Toml.Moment
import ComplexityMeter.Toml.Table
import ComplexityMeter.Value
