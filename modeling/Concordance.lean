import Concordance.Analyzer.Basic
import Concordance.Analyzer.Stored
import Concordance.CommandLine.Arguments
import Concordance.CommandLine.Check
import Concordance.CommandLine.Grammar
import Concordance.CommandLine.Item
import Concordance.CommandLine.Output
import Concordance.CommandLine.Program
import Concordance.CommandLine.Run
import Concordance.Config.Basic
import Concordance.Config.Reader
import Concordance.Console
import Concordance.Corpus.Document
import Concordance.Corpus.Listing
import Concordance.Corpus.Markup
import Concordance.Decimal.Binary
import Concordance.Decimal.Fraction
import Concordance.Decimal.Numeral
import Concordance.Decimal.Places
import Concordance.Decimal.Shortest
import Concordance.Delimited.Record
import Concordance.Fault
import Concordance.Files.Path
import Concordance.Files.Refusal
import Concordance.Files.Tree
import Concordance.Growth.Files
import Concordance.Growth.Sheet
import Concordance.Growth.Tracker
import Concordance.Index.Basic
import Concordance.Index.Catalog
import Concordance.Index.Entry
import Concordance.Index.Search
import Concordance.Index.Store
import Concordance.Index.View
import Concordance.Indexing.Feed
import Concordance.Indexing.Sink
import Concordance.Json.Basic
import Concordance.Json.Printer
import Concordance.Json.Reader
import Concordance.Lexicon.Basic
import Concordance.Lexicon.Fixed
import Concordance.Main
import Concordance.Proofs.Analyzer.Runs
import Concordance.Proofs.Analyzer.StopWords
import Concordance.Proofs.CommandLine.Carried
import Concordance.Proofs.CommandLine.Digest
import Concordance.Proofs.CommandLine.History
import Concordance.Proofs.CommandLine.Opening
import Concordance.Proofs.CommandLine.Reports
import Concordance.Proofs.CommandLine.RoundTrip
import Concordance.Proofs.CommandLine.Run
import Concordance.Proofs.CommandLine.Silent
import Concordance.Proofs.CommandLine.Spelling
import Concordance.Proofs.Config.Given
import Concordance.Proofs.Config.Reader
import Concordance.Proofs.Corpus.Layout
import Concordance.Proofs.Corpus.Listing
import Concordance.Proofs.Corpus.Markup
import Concordance.Proofs.Decimal.Numeral
import Concordance.Proofs.Decimal.Places
import Concordance.Proofs.Decimal.Shortest
import Concordance.Proofs.Delimited.Record
import Concordance.Proofs.Files.Changes
import Concordance.Proofs.Files.Folder
import Concordance.Proofs.Files.Path
import Concordance.Proofs.Files.Sound
import Concordance.Proofs.Files.Text
import Concordance.Proofs.Files.Walk
import Concordance.Proofs.Growth.Curve
import Concordance.Proofs.Growth.Failures
import Concordance.Proofs.Growth.Files
import Concordance.Proofs.Growth.Layout
import Concordance.Proofs.Growth.Sheet
import Concordance.Proofs.Growth.Tracker
import Concordance.Proofs.Index.Arranged
import Concordance.Proofs.Index.Catalog
import Concordance.Proofs.Index.Documents
import Concordance.Proofs.Index.Fixed
import Concordance.Proofs.Index.History
import Concordance.Proofs.Index.Making
import Concordance.Proofs.Index.Memory
import Concordance.Proofs.Index.Removal
import Concordance.Proofs.Index.Reopening
import Concordance.Proofs.Index.Search
import Concordance.Proofs.Index.Source
import Concordance.Proofs.Index.Staleness
import Concordance.Proofs.Index.Store
import Concordance.Proofs.Index.View
import Concordance.Proofs.Index.Visits
import Concordance.Proofs.Index.Writing
import Concordance.Proofs.Indexing.Corpus
import Concordance.Proofs.Indexing.Course
import Concordance.Proofs.Indexing.Feed
import Concordance.Proofs.Indexing.InMemory
import Concordance.Proofs.Indexing.Unhindered
import Concordance.Proofs.Json.Floating
import Concordance.Proofs.Json.Grammar
import Concordance.Proofs.Json.RoundTrip
import Concordance.Proofs.Lexicon.Fixed
import Concordance.Proofs.Lexicon.Tally
import Concordance.Proofs.Query.Hits
import Concordance.Proofs.Query.Word
import Concordance.Proofs.Sorting
import Concordance.Proofs.Statistics.Agreement
import Concordance.Proofs.Statistics.Counts
import Concordance.Proofs.Statistics.Delivery
import Concordance.Proofs.Statistics.EntryLine
import Concordance.Proofs.Statistics.Lookups
import Concordance.Proofs.Statistics.Questions
import Concordance.Proofs.Statistics.Ranking
import Concordance.Proofs.Statistics.Reordering
import Concordance.Proofs.Statistics.Report
import Concordance.Proofs.Statistics.Session
import Concordance.Proofs.Statistics.Table
import Concordance.Proofs.Statistics.Tokens
import Concordance.Proofs.Statistics.Walk
import Concordance.Proofs.Text.Blank
import Concordance.Proofs.Text.Bytes
import Concordance.Proofs.Text.Column
import Concordance.Proofs.Text.Lowercase
import Concordance.Proofs.Workspace
import Concordance.Query.Classic
import Concordance.Query.Clause
import Concordance.Query.Explanation
import Concordance.Query.Lenient
import Concordance.Query.Match
import Concordance.Query.Score
import Concordance.Query.Style
import Concordance.Query.Syntax
import Concordance.Statistics.Report
import Concordance.Statistics.Session
import Concordance.Statistics.Table
import Concordance.Text.Alphanumeric
import Concordance.Text.Blank
import Concordance.Text.Boundaries
import Concordance.Text.Column
import Concordance.Text.Lowercase
import Concordance.Text.Printable
import Concordance.Text.Quoted
import Concordance.Workspace
