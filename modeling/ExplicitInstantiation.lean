import ExplicitInstantiation.Arithmetic.Evaluate
import ExplicitInstantiation.Arithmetic.Number
import ExplicitInstantiation.Arithmetic.Token
import ExplicitInstantiation.Block
import ExplicitInstantiation.Command.Arguments
import ExplicitInstantiation.Command.Run
import ExplicitInstantiation.Config.Basic
import ExplicitInstantiation.Config.Load
import ExplicitInstantiation.Config.Toml
import ExplicitInstantiation.Config.Yaml
import ExplicitInstantiation.Constant.Basic
import ExplicitInstantiation.Constant.Indexed
import ExplicitInstantiation.Constant.Line
import ExplicitInstantiation.Decimal.Binary
import ExplicitInstantiation.Decimal.Layout
import ExplicitInstantiation.Decimal.Shortest
import ExplicitInstantiation.Files.Fault
import ExplicitInstantiation.Files.Memory
import ExplicitInstantiation.Files.Procedure
import ExplicitInstantiation.Files.Tree
import ExplicitInstantiation.Instantiation.Basic
import ExplicitInstantiation.Instantiation.Register
import ExplicitInstantiation.Instantiation.Resolve
import ExplicitInstantiation.Main
import ExplicitInstantiation.Marker
import ExplicitInstantiation.Path
import ExplicitInstantiation.Proofs.Arithmetic.Exact
import ExplicitInstantiation.Proofs.Arithmetic.Grammar
import ExplicitInstantiation.Proofs.Arithmetic.Literal
import ExplicitInstantiation.Proofs.Arithmetic.Parentheses
import ExplicitInstantiation.Proofs.Arithmetic.Reading
import ExplicitInstantiation.Proofs.Arithmetic.Writing
import ExplicitInstantiation.Proofs.Block
import ExplicitInstantiation.Proofs.Command.Agreement
import ExplicitInstantiation.Proofs.Config.Targets
import ExplicitInstantiation.Proofs.Config.Usable
import ExplicitInstantiation.Proofs.Constant.Definition
import ExplicitInstantiation.Proofs.Constant.Expansion
import ExplicitInstantiation.Proofs.Constant.FixedPoint
import ExplicitInstantiation.Proofs.Constant.Indexed
import ExplicitInstantiation.Proofs.Constant.Table
import ExplicitInstantiation.Proofs.Decimal.Nearest
import ExplicitInstantiation.Proofs.Decimal.Packing
import ExplicitInstantiation.Proofs.Decimal.Reading
import ExplicitInstantiation.Proofs.Decimal.Rounding
import ExplicitInstantiation.Proofs.Decimal.Shortest
import ExplicitInstantiation.Proofs.Files.Calls
import ExplicitInstantiation.Proofs.Files.Interleaving
import ExplicitInstantiation.Proofs.Files.Store
import ExplicitInstantiation.Proofs.Files.Tree
import ExplicitInstantiation.Proofs.Files.TreeStore
import ExplicitInstantiation.Proofs.Instantiation.Arity
import ExplicitInstantiation.Proofs.Instantiation.Collected
import ExplicitInstantiation.Proofs.Instantiation.ReadBack
import ExplicitInstantiation.Proofs.Instantiation.Refolding
import ExplicitInstantiation.Proofs.Instantiation.Spelling
import ExplicitInstantiation.Proofs.Instantiation.Written
import ExplicitInstantiation.Proofs.Order
import ExplicitInstantiation.Proofs.Path
import ExplicitInstantiation.Proofs.Site.Arguments
import ExplicitInstantiation.Proofs.Site.ClassSearch
import ExplicitInstantiation.Proofs.Site.Line
import ExplicitInstantiation.Proofs.Site.Normalized
import ExplicitInstantiation.Proofs.Site.Passes
import ExplicitInstantiation.Proofs.Site.Survey
import ExplicitInstantiation.Proofs.Site.WordSearch
import ExplicitInstantiation.Proofs.Source.Line
import ExplicitInstantiation.Proofs.Source.Nesting
import ExplicitInstantiation.Proofs.Source.Parts
import ExplicitInstantiation.Proofs.Task.Atomic
import ExplicitInstantiation.Proofs.Task.Concurrent
import ExplicitInstantiation.Proofs.Task.Ending
import ExplicitInstantiation.Proofs.Task.Regeneration
import ExplicitInstantiation.Proofs.TemplateClass
import ExplicitInstantiation.Proofs.TemplateClass.Declaration
import ExplicitInstantiation.Proofs.TemplateClass.Defaults
import ExplicitInstantiation.Proofs.TemplateClass.Header
import ExplicitInstantiation.Proofs.TemplateClass.Names
import ExplicitInstantiation.Proofs.Text.Blank
import ExplicitInstantiation.Proofs.Text.Bytes
import ExplicitInstantiation.Proofs.Text.Lines
import ExplicitInstantiation.Proofs.Text.Replace
import ExplicitInstantiation.Proofs.Text.Runs
import ExplicitInstantiation.Proofs.Text.Words
import ExplicitInstantiation.Proofs.Traversal
import ExplicitInstantiation.Site.Arguments
import ExplicitInstantiation.Site.File
import ExplicitInstantiation.Site.Line
import ExplicitInstantiation.Site.WordSearch
import ExplicitInstantiation.Source.Line
import ExplicitInstantiation.Source.Nesting
import ExplicitInstantiation.Task.Basic
import ExplicitInstantiation.Task.Json
import ExplicitInstantiation.Task.Run
import ExplicitInstantiation.TemplateClass.Basic
import ExplicitInstantiation.TemplateClass.Declared
import ExplicitInstantiation.Text.Alphabetic
import ExplicitInstantiation.Text.Basic
import ExplicitInstantiation.Text.Blank
import ExplicitInstantiation.Text.CharRanges
import ExplicitInstantiation.Text.Identifier
import ExplicitInstantiation.Text.Numeric
import ExplicitInstantiation.Text.Quoted
import ExplicitInstantiation.Text.Reader
import ExplicitInstantiation.Text.Search
import ExplicitInstantiation.Text.Unprintable
import ExplicitInstantiation.Toml.Document
import ExplicitInstantiation.Toml.Quoted
import ExplicitInstantiation.Toml.Scalar
import ExplicitInstantiation.Toml.Table
import ExplicitInstantiation.Yaml.Cursor
import ExplicitInstantiation.Yaml.Layout
import ExplicitInstantiation.Yaml.Node
import ExplicitInstantiation.Yaml.Scalar
import ExplicitInstantiation.Yaml.Token
