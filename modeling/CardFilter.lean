import CardFilter.Catalog
import CardFilter.CommandLine.Arguments
import CardFilter.CommandLine.CheckReport
import CardFilter.CommandLine.Command
import CardFilter.CommandLine.Encoding
import CardFilter.CommandLine.KeyTable
import CardFilter.CommandLine.ParseReport
import CardFilter.CommandLine.Reply
import CardFilter.CommandLine.Run
import CardFilter.CommandLine.Style
import CardFilter.CommandLine.SuggestReport
import CardFilter.CommandLine.TokenReport
import CardFilter.Comparison
import CardFilter.Draft.Piece
import CardFilter.Draft.Repair
import CardFilter.Draft.Term
import CardFilter.Fault
import CardFilter.FilePath
import CardFilter.FileTree
import CardFilter.Filter
import CardFilter.Filter.Parse
import CardFilter.Filter.Tree
import CardFilter.JsonValue
import CardFilter.Lookup
import CardFilter.Lookup.Suggest
import CardFilter.Main
import CardFilter.Outcome
import CardFilter.Proofs.Characters
import CardFilter.Quote
import CardFilter.Ranking
import CardFilter.Session
import CardFilter.Settings
import CardFilter.Settings.Discover
import CardFilter.Settings.Merge
import CardFilter.Settings.Start
import CardFilter.Settings.Template
import CardFilter.Settings.Warning
import CardFilter.Settings.Written
import CardFilter.Store
import CardFilter.Suggestion
import CardFilter.Suggestion.Keys
import CardFilter.Suggestion.Merged
import CardFilter.Suggestion.Names
import CardFilter.Suggestion.Saved
import CardFilter.Suggestion.Values
import CardFilter.Text.Alphanumeric
import CardFilter.Text.Blank
import CardFilter.Text.Bytes
import CardFilter.Text.Lines
import CardFilter.Text.LowerCase
import CardFilter.Text.Printable
import CardFilter.Text.Quoted
import CardFilter.Text.Ranges
import CardFilter.Text.Search
import CardFilter.Text.Utf8
import CardFilter.Token
import CardFilter.Toml.Document
import CardFilter.Toml.Format
import CardFilter.Toml.Moment
import CardFilter.Toml.Number
import CardFilter.Toml.Token
import CardFilter.Toml.Value
import CardFilter.Toml.Written
import CardFilter.Vocabulary
import CardFilter.Vocabulary.Standard
import CardFilter.Proofs.Spelling
import CardFilter.Proofs.Keys
import CardFilter.Proofs.Grammar
import CardFilter.Proofs.Written
import CardFilter.Proofs.RoundTrip
import CardFilter.Proofs.DraftReading
import CardFilter.Proofs.Agreement
import CardFilter.Proofs.DraftPieces
import CardFilter.Proofs.Tickets
import CardFilter.Proofs.Invalidation
import CardFilter.Proofs.Elapse
import CardFilter.Proofs.Requests
import CardFilter.Proofs.Deliveries
import CardFilter.Proofs.Snapshots
import CardFilter.Proofs.CanonicalText
import CardFilter.Proofs.Acceptance
import CardFilter.Proofs.Paths
import CardFilter.Proofs.Places
import CardFilter.Proofs.Discovery
import CardFilter.Proofs.DocumentTokens
import CardFilter.Proofs.Merging
import CardFilter.Proofs.Starting
import CardFilter.Proofs.TextStyles
import CardFilter.Proofs.DocumentLines
import CardFilter.Proofs.NamesFile
import CardFilter.Proofs.PrintedSettings
import CardFilter.Proofs.Slices
import CardFilter.Proofs.TokenSlices
import CardFilter.Proofs.Scanner
import CardFilter.Proofs.PieceSlices
import CardFilter.Proofs.DraftSlices
import CardFilter.Proofs.RepairSlices
import CardFilter.Proofs.FaultPlaces
import CardFilter.Proofs.InBounds
import CardFilter.Proofs.TokenLayout
import CardFilter.Proofs.PieceLayout
import CardFilter.Proofs.OpenQuotes
import CardFilter.Proofs.Closing
import CardFilter.Proofs.TermLayout
import CardFilter.Proofs.Removal
import CardFilter.Proofs.Readings
import CardFilter.Proofs.Cursor
import CardFilter.Proofs.Gluing
import CardFilter.Proofs.SecondRepair
import CardFilter.Proofs.Finding
import CardFilter.Proofs.Sources
import CardFilter.Proofs.Matches
import CardFilter.Proofs.Repeats
import CardFilter.Proofs.Recency
import CardFilter.Proofs.Alternatives
import CardFilter.Proofs.FaultCauses
import CardFilter.Proofs.Carets
import CardFilter.Proofs.Hints
import CardFilter.Proofs.Collisions
import CardFilter.Proofs.HomeFile
import CardFilter.Proofs.Windows
import CardFilter.Proofs.Completion
import CardFilter.Proofs.GroupTexts
