import CampaignMarkup.Assoc
import CampaignMarkup.CommandLine.Grammar
import CampaignMarkup.CommandLine.Help
import CampaignMarkup.CommandLine.Invocation
import CampaignMarkup.CommandLine.Reader
import CampaignMarkup.CommandLine.Run
import CampaignMarkup.Comment.Spacing
import CampaignMarkup.Decimal.Double
import CampaignMarkup.Decimal.Shortest
import CampaignMarkup.Directive.Basic
import CampaignMarkup.Directive.Conditional
import CampaignMarkup.Directive.Version
import CampaignMarkup.Document.Capture
import CampaignMarkup.Document.Node
import CampaignMarkup.Document.Reader
import CampaignMarkup.Editor.Query
import CampaignMarkup.Editor.Server
import CampaignMarkup.Editor.Utf16
import CampaignMarkup.Editor.Word
import CampaignMarkup.Editor.Workspace
import CampaignMarkup.FileTree
import CampaignMarkup.Macros.Call
import CampaignMarkup.Macros.Definition
import CampaignMarkup.Macros.Table
import CampaignMarkup.Main
import CampaignMarkup.Path.Basic
import CampaignMarkup.Path.Normal
import CampaignMarkup.Path.Resolver
import CampaignMarkup.Preprocess.Evaluation
import CampaignMarkup.Preprocess.Failure
import CampaignMarkup.Preprocess.Options
import CampaignMarkup.Preprocess.Output
import CampaignMarkup.Preprocess.Run
import CampaignMarkup.Preprocess.Session
import CampaignMarkup.Proofs.Assoc
import CampaignMarkup.Proofs.Comment.Lexemes
import CampaignMarkup.Proofs.Comment.Tokens
import CampaignMarkup.Proofs.Comment.Unmoved
import CampaignMarkup.Proofs.Conditional.Blocks
import CampaignMarkup.Proofs.Conditional.Structured
import CampaignMarkup.Proofs.Document.Contents
import CampaignMarkup.Proofs.Document.Definitions
import CampaignMarkup.Proofs.Document.Enclosure
import CampaignMarkup.Proofs.Document.Gathering
import CampaignMarkup.Proofs.Document.Groups
import CampaignMarkup.Proofs.Document.Joined
import CampaignMarkup.Proofs.Document.Places
import CampaignMarkup.Proofs.Document.Printed
import CampaignMarkup.Proofs.Document.Stretches
import CampaignMarkup.Proofs.Editor.DefinitionLines
import CampaignMarkup.Proofs.Editor.Diagnostics
import CampaignMarkup.Proofs.Macros.OrderedRows
import CampaignMarkup.Proofs.Macros.Reprinting
import CampaignMarkup.Proofs.Preprocess.Assets
import CampaignMarkup.Proofs.Preprocess.BinaryPaths
import CampaignMarkup.Proofs.Preprocess.Concatenation
import CampaignMarkup.Proofs.Preprocess.Deeds
import CampaignMarkup.Proofs.Preprocess.Directory
import CampaignMarkup.Proofs.Preprocess.Emission
import CampaignMarkup.Proofs.Preprocess.Inclusion
import CampaignMarkup.Proofs.Preprocess.Nesting
import CampaignMarkup.Proofs.Preprocess.OpenTexts
import CampaignMarkup.Proofs.Preprocess.Passage
import CampaignMarkup.Proofs.Preprocess.Relaxation
import CampaignMarkup.Proofs.Preprocess.Restoration
import CampaignMarkup.Proofs.Preprocess.Sites
import CampaignMarkup.Proofs.Preprocess.Stacks
import CampaignMarkup.Proofs.Preprocess.Stepwise
import CampaignMarkup.Proofs.Preprocess.Substitution
import CampaignMarkup.Proofs.Preprocess.Underneath
import CampaignMarkup.Proofs.Record.Blocks
import CampaignMarkup.Proofs.Record.Display
import CampaignMarkup.Proofs.Record.QuotedValue
import CampaignMarkup.Proofs.Record.Seams
import CampaignMarkup.Proofs.Record.Statements
import CampaignMarkup.Proofs.Record.Strings
import CampaignMarkup.Proofs.Text.Delimiters
import CampaignMarkup.Proofs.Text.Lines
import CampaignMarkup.Proofs.Text.Words
import CampaignMarkup.Proofs.Token.Chains
import CampaignMarkup.Proofs.Token.Cuts
import CampaignMarkup.Proofs.Token.Joins
import CampaignMarkup.Proofs.Token.Layout
import CampaignMarkup.Proofs.Token.Lossless
import CampaignMarkup.Proofs.Token.Patterns
import CampaignMarkup.Proofs.Token.Pieces
import CampaignMarkup.Proofs.Token.Rendering
import CampaignMarkup.Proofs.Token.Strings
import CampaignMarkup.Proofs.Token.Written
import CampaignMarkup.Record.Basic
import CampaignMarkup.Record.Extraction
import CampaignMarkup.Record.Table
import CampaignMarkup.Record.Value
import CampaignMarkup.Settings.Basic
import CampaignMarkup.Settings.Files
import CampaignMarkup.Settings.Key
import CampaignMarkup.Settings.Layer
import CampaignMarkup.Settings.Value
import CampaignMarkup.Source.Position
import CampaignMarkup.Source.Site
import CampaignMarkup.Text.Alphanumeric
import CampaignMarkup.Text.Blank
import CampaignMarkup.Text.Bytes
import CampaignMarkup.Text.CodePoints
import CampaignMarkup.Text.CombiningClass
import CampaignMarkup.Text.Composed
import CampaignMarkup.Text.Decomposition
import CampaignMarkup.Text.Delimiter
import CampaignMarkup.Text.Escaped
import CampaignMarkup.Text.Json
import CampaignMarkup.Text.Mark
import CampaignMarkup.Text.Number
import CampaignMarkup.Text.Printable
import CampaignMarkup.Text.Ranges
import CampaignMarkup.Text.Split
import CampaignMarkup.Token.Basic
import CampaignMarkup.Token.Concatenation
import CampaignMarkup.Token.Lexeme
import CampaignMarkup.Token.Lexer
import CampaignMarkup.Toml.Document
import CampaignMarkup.Toml.Moment
import CampaignMarkup.Toml.Quoted
import CampaignMarkup.Toml.Reader
import CampaignMarkup.Toml.Scan
import CampaignMarkup.Toml.Setting
import CampaignMarkup.Toml.Value
import CampaignMarkup.Toml.Word
import CampaignMarkup.Uri.Address
import CampaignMarkup.Uri.Basic
import CampaignMarkup.Uri.File
import CampaignMarkup.Uri.Host
import CampaignMarkup.Uri.Name.Character
import CampaignMarkup.Uri.Name.Direction
import CampaignMarkup.Uri.Name.Folding
import CampaignMarkup.Uri.Name.Joining
import CampaignMarkup.Uri.Name.Label
import CampaignMarkup.Uri.Percent
import CampaignMarkup.Uri.Punycode
import CampaignMarkup.Uri.Reader
import CampaignMarkup.Uri.Segments
import CampaignMarkup.Proofs.Macros.Holes
import CampaignMarkup.Proofs.Token.Concatenations
import CampaignMarkup.Proofs.Macros.CallReading
import CampaignMarkup.Proofs.Macros.QuotedArguments
import CampaignMarkup.Proofs.Path.Containment
import CampaignMarkup.Proofs.Preprocess.OutputPieces
import CampaignMarkup.Proofs.Preprocess.Presence
import CampaignMarkup.Proofs.Macros.Keywords
import CampaignMarkup.Proofs.Path.NormalForm
import CampaignMarkup.Proofs.Record.Export
import CampaignMarkup.Proofs.Editor.WordSpans
import CampaignMarkup.Proofs.Editor.HoverRanges
import CampaignMarkup.Proofs.Source.LinePositions
import CampaignMarkup.Proofs.Conditional.VersionBranches
import CampaignMarkup.Proofs.Directive.VersionOrder
import CampaignMarkup.Proofs.Macros.CallPieces
import CampaignMarkup.Proofs.Editor.WordRuns
