import KeysetBundle.Artifact.Basic
import KeysetBundle.Artifact.Dispatcher
import KeysetBundle.Artifact.RuntimeClass
import KeysetBundle.Artifact.RuntimeSource
import KeysetBundle.Build.Project
import KeysetBundle.Build.Target
import KeysetBundle.Bundle
import KeysetBundle.Collection.Basic
import KeysetBundle.Collection.Compiled
import KeysetBundle.CommandLine.Basic
import KeysetBundle.CommandLine.Parser
import KeysetBundle.CommandLine.Run
import KeysetBundle.Config.Basic
import KeysetBundle.Config.Discovery
import KeysetBundle.Config.Record
import KeysetBundle.Decimal.Binary64
import KeysetBundle.Decimal.Digits
import KeysetBundle.Decimal.Shortest
import KeysetBundle.Dictionary
import KeysetBundle.Files.Disk
import KeysetBundle.Files.Failure
import KeysetBundle.Files.Program
import KeysetBundle.Files.Shelf
import KeysetBundle.Files.Tree
import KeysetBundle.Files.World
import KeysetBundle.Freshness.Fingerprint
import KeysetBundle.Freshness.Ledger
import KeysetBundle.Freshness.Record
import KeysetBundle.Glob.Expansion
import KeysetBundle.Glob.Pattern
import KeysetBundle.Json.Basic
import KeysetBundle.Json.Decode
import KeysetBundle.Json.Parser
import KeysetBundle.Json.Printer
import KeysetBundle.Keyset.ArrayIndex
import KeysetBundle.Keyset.Basic
import KeysetBundle.KeysetSource
import KeysetBundle.Language
import KeysetBundle.Main
import KeysetBundle.Path.Basic
import KeysetBundle.Path.Order
import KeysetBundle.Proofs.Artifact.Dispatch
import KeysetBundle.Proofs.Artifact.Language
import KeysetBundle.Proofs.Artifact.Lines
import KeysetBundle.Proofs.Build.Account
import KeysetBundle.Proofs.Build.Aftermath
import KeysetBundle.Proofs.Build.BaseName
import KeysetBundle.Proofs.Build.Beside
import KeysetBundle.Proofs.Build.Books
import KeysetBundle.Proofs.Build.DuringEdits
import KeysetBundle.Proofs.Build.Edits
import KeysetBundle.Proofs.Build.Failures
import KeysetBundle.Proofs.Build.Freshness
import KeysetBundle.Proofs.Build.Independence
import KeysetBundle.Proofs.Build.Languages
import KeysetBundle.Proofs.Build.Layout
import KeysetBundle.Proofs.Build.Outputs
import KeysetBundle.Proofs.Build.Project
import KeysetBundle.Proofs.Build.Provenance
import KeysetBundle.Proofs.Build.Recording
import KeysetBundle.Proofs.Build.Repetition
import KeysetBundle.Proofs.Build.SameInputs
import KeysetBundle.Proofs.Build.Settings
import KeysetBundle.Proofs.Build.Surroundings
import KeysetBundle.Proofs.Build.Target
import KeysetBundle.Proofs.Build.Turns
import KeysetBundle.Proofs.Bundle.Contents
import KeysetBundle.Proofs.Bundle.Failure
import KeysetBundle.Proofs.Bundle.Passes
import KeysetBundle.Proofs.Collection.Compiled
import KeysetBundle.Proofs.Collection.Grouping
import KeysetBundle.Proofs.Collection.Merge
import KeysetBundle.Proofs.Collection.Source
import KeysetBundle.Proofs.Config.Discovery
import KeysetBundle.Proofs.Decimal.Binary64
import KeysetBundle.Proofs.Decimal.Rounding
import KeysetBundle.Proofs.Decimal.Shortest
import KeysetBundle.Proofs.Decimal.Whole
import KeysetBundle.Proofs.Dictionary
import KeysetBundle.Proofs.Elsewhere
import KeysetBundle.Proofs.Files.Atomic
import KeysetBundle.Proofs.Files.History
import KeysetBundle.Proofs.Files.InterleavedWriting
import KeysetBundle.Proofs.Files.Interleaving
import KeysetBundle.Proofs.Files.Looking
import KeysetBundle.Proofs.Files.Place
import KeysetBundle.Proofs.Files.Program
import KeysetBundle.Proofs.Files.Refusal
import KeysetBundle.Proofs.Files.Reloading
import KeysetBundle.Proofs.Files.Replacing
import KeysetBundle.Proofs.Files.Sound
import KeysetBundle.Proofs.Files.Ways
import KeysetBundle.Proofs.Files.Writing
import KeysetBundle.Proofs.Freshness.Ledger
import KeysetBundle.Proofs.Freshness.Measured
import KeysetBundle.Proofs.Freshness.Record
import KeysetBundle.Proofs.Freshness.Saved
import KeysetBundle.Proofs.Freshness.Stored
import KeysetBundle.Proofs.Json.RoundTrip
import KeysetBundle.Proofs.Keyset.ArrayIndex
import KeysetBundle.Proofs.Keyset.Listing
import KeysetBundle.Proofs.KeysetFiles
import KeysetBundle.Proofs.Levels
import KeysetBundle.Proofs.Script.Blocks
import KeysetBundle.Proofs.Script.Concatenation
import KeysetBundle.Proofs.Script.Exports
import KeysetBundle.Proofs.Script.NumberTokens
import KeysetBundle.Proofs.Script.Numbers
import KeysetBundle.Proofs.Script.NumericName
import KeysetBundle.Proofs.Script.Outlines
import KeysetBundle.Proofs.Script.Productions
import KeysetBundle.Proofs.Script.QuotedText
import KeysetBundle.Proofs.Script.StrictLiteral
import KeysetBundle.Proofs.Script.Tokens
import KeysetBundle.Proofs.Script.Values
import KeysetBundle.Proofs.Template.Acceptance
import KeysetBundle.Proofs.Template.Compaction
import KeysetBundle.Proofs.Template.Composition
import KeysetBundle.Proofs.Template.FaultPlaces
import KeysetBundle.Proofs.Template.Grammar
import KeysetBundle.Proofs.Template.Layers
import KeysetBundle.Proofs.Template.Merged
import KeysetBundle.Proofs.Template.MoreLayers
import KeysetBundle.Proofs.Template.NumericArguments
import KeysetBundle.Proofs.Template.Operands
import KeysetBundle.Proofs.Template.RoundTrip
import KeysetBundle.Proofs.Template.WellFormed
import KeysetBundle.Proofs.Text.ByteOrder
import KeysetBundle.Proofs.Text.Surrogates
import KeysetBundle.Report.Basic
import KeysetBundle.Report.Style
import KeysetBundle.Scan
import KeysetBundle.Script.EarlyErrors
import KeysetBundle.Script.Exports
import KeysetBundle.Script.Expression
import KeysetBundle.Script.Grammar
import KeysetBundle.Script.Lexer
import KeysetBundle.Script.Literal
import KeysetBundle.Script.Module
import KeysetBundle.Script.Node
import KeysetBundle.Script.NumericName
import KeysetBundle.Script.Operator
import KeysetBundle.Script.Parser
import KeysetBundle.Script.Scope
import KeysetBundle.Script.Source
import KeysetBundle.Script.Statement
import KeysetBundle.Script.Token
import KeysetBundle.Selection
import KeysetBundle.TargetName
import KeysetBundle.Template.Basic
import KeysetBundle.Template.Compactor
import KeysetBundle.Template.Layer
import KeysetBundle.Template.Parser
import KeysetBundle.Text.Alphabetic
import KeysetBundle.Text.Blank
import KeysetBundle.Text.Combining
import KeysetBundle.Text.Diagnostic
import KeysetBundle.Text.Hex
import KeysetBundle.Text.Identifier
import KeysetBundle.Text.Quoted
import KeysetBundle.Text.Ranges
import KeysetBundle.Text.Surrogates
import KeysetBundle.Text.Width
