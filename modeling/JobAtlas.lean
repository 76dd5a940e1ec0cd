import JobAtlas.Component.Route
import JobAtlas.Connection.Settings
import JobAtlas.Context.Category
import JobAtlas.Context.Variable
import JobAtlas.Corpus.Advice
import JobAtlas.Corpus.Basic
import JobAtlas.Corpus.Check
import JobAtlas.Corpus.Document
import JobAtlas.Corpus.Extraction
import JobAtlas.Corpus.Role
import JobAtlas.Corpus.TableUsage
import JobAtlas.Data.Basic
import JobAtlas.Digest.Sha256
import JobAtlas.Distinct
import JobAtlas.Graph.Dependency
import JobAtlas.Graph.Order
import JobAtlas.Job.Basic
import JobAtlas.Job.Encoding
import JobAtlas.Job.Import
import JobAtlas.Job.Performance
import JobAtlas.Mapping.Expression
import JobAtlas.Mapping.Structure
import JobAtlas.Markup.Attribute
import JobAtlas.Markup.Document
import JobAtlas.Markup.Element
import JobAtlas.Markup.Error
import JobAtlas.Markup.Reference
import JobAtlas.Markup.Token
import JobAtlas.Path
import JobAtlas.Proofs.Connection.Agreement
import JobAtlas.Proofs.Context.Calls
import JobAtlas.Proofs.Corpus.Assembly
import JobAtlas.Proofs.Corpus.Batches
import JobAtlas.Proofs.Corpus.ByJob
import JobAtlas.Proofs.Corpus.Consistency
import JobAtlas.Proofs.Corpus.Deduplication
import JobAtlas.Proofs.Corpus.FirstCopies
import JobAtlas.Proofs.Corpus.Isolation
import JobAtlas.Proofs.Corpus.Merging
import JobAtlas.Proofs.Corpus.Reading
import JobAtlas.Proofs.Corpus.Reordering
import JobAtlas.Proofs.Corpus.RowCounts
import JobAtlas.Proofs.Corpus.Sections
import JobAtlas.Proofs.Corpus.TableFacts
import JobAtlas.Proofs.Corpus.TableUsage
import JobAtlas.Proofs.Data.Lawful
import JobAtlas.Proofs.Data.Lookup
import JobAtlas.Proofs.Data.Records
import JobAtlas.Proofs.Fold
import JobAtlas.Proofs.Graph.Balance
import JobAtlas.Proofs.Graph.Building
import JobAtlas.Proofs.Graph.Dependency
import JobAtlas.Proofs.Graph.Order
import JobAtlas.Proofs.Graph.Walk
import JobAtlas.Proofs.Job.Edit
import JobAtlas.Proofs.Job.Ownership
import JobAtlas.Proofs.Job.Parts
import JobAtlas.Proofs.Job.Pruning
import JobAtlas.Proofs.Mapping.Variables
import JobAtlas.Proofs.Markup.Address
import JobAtlas.Proofs.Markup.Descendants
import JobAtlas.Proofs.Markup.Reading
import JobAtlas.Proofs.Markup.RoundTrip
import JobAtlas.Proofs.Markup.Scanning
import JobAtlas.Proofs.Markup.StartTag
import JobAtlas.Proofs.Markup.Writing
import JobAtlas.Proofs.Quality.Rows
import JobAtlas.Proofs.Report.Rendering
import JobAtlas.Proofs.Report.Script
import JobAtlas.Proofs.Settings.RoundTrip
import JobAtlas.Proofs.Settings.Writing
import JobAtlas.Proofs.Source.History
import JobAtlas.Proofs.Source.Listing
import JobAtlas.Proofs.Source.Naming
import JobAtlas.Proofs.Source.Shelf
import JobAtlas.Proofs.Source.Spelling
import JobAtlas.Proofs.Sql.Cleaning
import JobAtlas.Proofs.Sql.ContextReference
import JobAtlas.Proofs.Sql.Detection
import JobAtlas.Proofs.Sql.Keyword
import JobAtlas.Proofs.Sql.Literals
import JobAtlas.Proofs.Sql.SingleLine
import JobAtlas.Proofs.Sql.TableName
import JobAtlas.Proofs.Sql.TableReference
import JobAtlas.Proofs.Survey.Excluded
import JobAtlas.Proofs.Survey.Integrity
import JobAtlas.Proofs.Survey.Pass
import JobAtlas.Proofs.Survey.Routing
import JobAtlas.Proofs.Text.Alike
import JobAtlas.Proofs.Text.ByteOrder
import JobAtlas.Proofs.Text.Spacing
import JobAtlas.Proofs.Toml.Building
import JobAtlas.Proofs.Toml.Layout
import JobAtlas.Proofs.Toml.Quoting
import JobAtlas.Proofs.Toml.Scalar
import JobAtlas.Proofs.Transaction.Atomicity
import JobAtlas.Proofs.Transaction.Scan
import JobAtlas.Proofs.Transaction.Spans
import JobAtlas.Quality.Alert
import JobAtlas.Quality.Rule
import JobAtlas.Report.Listing
import JobAtlas.Report.Script
import JobAtlas.Report.Summary
import JobAtlas.Settings.Basic
import JobAtlas.Settings.Text
import JobAtlas.Settings.Workspace
import JobAtlas.Sorted.Map
import JobAtlas.Sorted.Order
import JobAtlas.Sorted.Set
import JobAtlas.Source.Basic
import JobAtlas.Source.Directory
import JobAtlas.Source.Loading
import JobAtlas.Source.Memory
import JobAtlas.Source.Statistics
import JobAtlas.Sql.Clean
import JobAtlas.Sql.Operation
import JobAtlas.Sql.Reference
import JobAtlas.Sql.Statement
import JobAtlas.Survey
import JobAtlas.Text.Blank
import JobAtlas.Text.Case
import JobAtlas.Text.CaseTable
import JobAtlas.Text.Integer
import JobAtlas.Text.Search
import JobAtlas.Text.Utf8
import JobAtlas.Text.Word
import JobAtlas.Toml.Document
import JobAtlas.Toml.Line
import JobAtlas.Toml.Moment
import JobAtlas.Toml.Number
import JobAtlas.Toml.Quoted
import JobAtlas.Toml.Table
import JobAtlas.Transaction.Basic
