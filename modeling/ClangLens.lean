import ClangLens.Text.Shown
import ClangLens.Path.Basic
import ClangLens.Path.FileName
import ClangLens.Codes.Basic
import ClangLens.Codes.Comment
import ClangLens.Codes.Completion
import ClangLens.Codes.Cursor
import ClangLens.Codes.Indexing
import ClangLens.Codes.Severity
import ClangLens.Codes.Status
import ClangLens.Flags.Basic
import ClangLens.Flags.Tables
import ClangLens.Failure
import ClangLens.Request.Check
import ClangLens.Request.Complete
import ClangLens.Source.Span
import ClangLens.Json.Basic
import ClangLens.Json.Numeral
import ClangLens.Json.Reading
import ClangLens.Source.SpanJson
import ClangLens.Project.Arguments
import ClangLens.Foreign.Call
import ClangLens.Foreign.Dialogue
import ClangLens.Foreign.Text
import ClangLens.Inspect.Library
import ClangLens.Inspect.Location
import ClangLens.Inspect.Callback
import ClangLens.Inspect.Comment
import ClangLens.Inspect.Completions
import ClangLens.Inspect.Cursor
import ClangLens.Inspect.Indexing
import ClangLens.Command.Basic
import ClangLens.Command.Complete
import ClangLens.Command.Diagnostics
import ClangLens.Command.Outline
import ClangLens.Command.References
import ClangLens.CommandLine.Basic
import ClangLens.CommandLine.Reader
import ClangLens.Log.Settings
import ClangLens.Program
import ClangLens.Script.Files
import ClangLens.Script.Library
import ClangLens.Main
import ClangLens.Proofs.Custody.Commands
import ClangLens.Proofs.Building
import ClangLens.Proofs.Handover
import ClangLens.Proofs.Delivery
import ClangLens.Proofs.Callback.Indexing
import ClangLens.Proofs.Callback.Visiting
import ClangLens.Proofs.Spelling
import ClangLens.Proofs.Codes
import ClangLens.Proofs.Views
import ClangLens.Proofs.CommandLine.RoundTrip
import ClangLens.Proofs.Project.Rewording
import ClangLens.Proofs.Project.Resolving
import ClangLens.Proofs.Refusing
import ClangLens.Proofs.Project.Sources
import ClangLens.Proofs.Project.PathLists
import ClangLens.Proofs.Listing.References
import ClangLens.Proofs.Listing.Outline
import ClangLens.Proofs.Listing.Completions
import ClangLens.Proofs.Listing.Extents
import ClangLens.Proofs.Listing.Phrases
import ClangLens.Proofs.Bounds.Walks
import ClangLens.Proofs.Reports.Showing
import ClangLens.Proofs.Reports.Spans
import ClangLens.Proofs.Reports.Tallies
import ClangLens.Proofs.Reports.Indents
import ClangLens.Proofs.Reports.SpanTexts
import ClangLens.Proofs.Statuses
import ClangLens.Proofs.Listing.Diagnostics
import ClangLens.Proofs.Listing.Arrays
import ClangLens.Proofs.Guarding
import ClangLens.Proofs.Tagging
