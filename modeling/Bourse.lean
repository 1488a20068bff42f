import Bourse.Json.Printer
import Bourse.Json.Reader
import Bourse.Screen
import Bourse.Indicator.Report
import Bourse.Calendar.Range
import Bourse.Config.Periods
import Bourse.Calendar.Timestamp
import Bourse.Delimited.Writer
import Bourse.Market.Actions
import Bourse.Market.Batch
import Bourse.Sheet.Basic
import Bourse.Sheet.Market
import Bourse.Sheet.Render
import Bourse.Indicator.Summary
import Bourse.Insertion
import Bourse.Market.Published
import Bourse.Service.History
import Bourse.Service.QuoteCache
import Bourse.Delimited.Reader
import Bourse.Source.Basic
import Bourse.Yaml.Block
import Bourse.Yaml.Plain
import Bourse.Yaml.Quoted
import Bourse.Yaml.Token
import Bourse.Yaml.Node
import Bourse.Yaml.Value
import Bourse.Config.Document
import Bourse.Config.Indicators
import Bourse.Config.Screen
import Bourse.Cli.Grammar
import Bourse.Cli.Reading
import Bourse.Symbols
import Bourse.Cli.Command
import Bourse.Cli.Run
import Bourse.Cli.Program
import Bourse.Main
import Bourse.Proofs.Filter.Grammar
import Bourse.Proofs.Filter.Parsing
import Bourse.Proofs.Filter.Lexemes
import Bourse.Proofs.Filter.Scanning
import Bourse.Proofs.Indicator.Growth
import Bourse.Proofs.Indicator.LookAhead
import Bourse.Proofs.Filter.Meaning
import Bourse.Proofs.Number.Literal
import Bourse.Proofs.Filter.Compiled
import Bourse.Proofs.Entries
import Bourse.Proofs.Indicator.Batch
import Bourse.Proofs.Indicator.Orderly
import Bourse.Proofs.Indicator.Calls
import Bourse.Proofs.Indicator.WarmUp
import Bourse.Proofs.Indicator.Defined
import Bourse.Proofs.Indicator.Bounds
import Bourse.Proofs.Number.Scale
import Bourse.Proofs.Number.Root
import Bourse.Proofs.Indicator.Linear
import Bourse.Proofs.Indicator.Scaling
import Bourse.Proofs.Indicator.Reflection
import Bourse.Proofs.Service.Provenance
import Bourse.Proofs.Number.Digits
import Bourse.Proofs.Service.Transparency
import Bourse.Proofs.Calendar.Pattern
import Bourse.Proofs.Calendar.Range
import Bourse.Proofs.Config.Loading
import Bourse.Proofs.Config.PeriodNumbers
import Bourse.Proofs.Source.Batch
import Bourse.Proofs.Source.Breakdown
import Bourse.Proofs.Source.Download
import Bourse.Proofs.Indicator.Orderly
import Bourse.Proofs.Filter.Printing
import Bourse.Proofs.Calendar.InCalendar
import Bourse.Proofs.Number.Monotone
import Bourse.Proofs.Calendar.Order
import Bourse.Proofs.Source.Kept
import Bourse.Proofs.Source.Window
import Bourse.Proofs.Number.Rank
import Bourse.Proofs.Sorting
import Bourse.Proofs.Source.Adjoining
import Bourse.Proofs.Filter.LetterCase
import Bourse.Proofs.Filter.Spacing
import Bourse.Proofs.Filter.Dual
import Bourse.Proofs.Filter.Absence
import Bourse.Proofs.Filter.Presets
import Bourse.Proofs.Indicator.Weights
import Bourse.Proofs.Indicator.Variance
import Bourse.Proofs.Indicator.Forgetting
import Bourse.Proofs.Indicator.Emptiness
import Bourse.Proofs.Source.Content
import Bourse.Proofs.Source.Foreign
import Bourse.Proofs.Market.Published
import Bourse.Proofs.Number.Sign
import Bourse.Proofs.Service.Batching
import Bourse.Proofs.Service.Expiry
import Bourse.Proofs.Datum
import Bourse.Proofs.Market.Usable
import Bourse.Proofs.Market.SplitLabels
import Bourse.Proofs.Source.Partition
import Bourse.Proofs.Cli.Run
import Bourse.Proofs.Cli.Download
import Bourse.Proofs.Calendar.Resolution
import Bourse.Proofs.Symbols.Collection
import Bourse.Proofs.Text.Split
import Bourse.Proofs.Service.Days
import Bourse.Proofs.Cli.Choice
import Bourse.Proofs.Json.Completeness
import Bourse.Proofs.Json.Printing
import Bourse.Proofs.Json.Refusal
import Bourse.Proofs.Sheet.Columns
import Bourse.Proofs.Sheet.Decoded
import Bourse.Proofs.Sheet.Regular
import Bourse.Proofs.Sheet.Timeline
import Bourse.Proofs.Source.Series
