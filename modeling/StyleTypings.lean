import StyleTypings.Classes.Exported
import StyleTypings.Classes.NameFormat
import StyleTypings.Classes.Named
import StyleTypings.Classes.Position
import StyleTypings.Classes.Selector
import StyleTypings.Compile.Aliases
import StyleTypings.Compile.Bundle
import StyleTypings.Compile.Error
import StyleTypings.Compile.ImportSpecifier
import StyleTypings.Compile.Lessc
import StyleTypings.Compile.Linked
import StyleTypings.Compile.SourceUnit
import StyleTypings.Config.Arguments
import StyleTypings.Config.Comments
import StyleTypings.Config.File
import StyleTypings.Config.Options
import StyleTypings.Config.Settings
import StyleTypings.Decimal.Shortest
import StyleTypings.Declaration.Map
import StyleTypings.Declaration.Rejection
import StyleTypings.Declaration.Render
import StyleTypings.Files.Action
import StyleTypings.Files.FileSystem
import StyleTypings.Files.Path
import StyleTypings.Files.Pattern
import StyleTypings.Glob.Basic
import StyleTypings.Glob.Parser
import StyleTypings.Json.Basic
import StyleTypings.Json.Decode
import StyleTypings.Json.Fault
import StyleTypings.Json.Reader
import StyleTypings.Json.Token
import StyleTypings.Json.Writer
import StyleTypings.Main
import StyleTypings.Session.Artifacts
import StyleTypings.Session.Batch
import StyleTypings.Session.Check
import StyleTypings.Session.Program
import StyleTypings.Session.Run
import StyleTypings.Session.Watch
import StyleTypings.Session.Write
import StyleTypings.SourceMap.Basic
import StyleTypings.SourceMap.Document
import StyleTypings.SourceMap.Error
import StyleTypings.SourceMap.Position
import StyleTypings.SourceMap.RangeMarkers
import StyleTypings.SourceMap.Segments
import StyleTypings.SourceMap.Vlq
import StyleTypings.Stylesheet.Fault
import StyleTypings.Stylesheet.Lexer
import StyleTypings.Stylesheet.Parser
import StyleTypings.Stylesheet.Token
import StyleTypings.Stylesheet.Tree
import StyleTypings.Stylesheet.Walk
import StyleTypings.Text.Basic
import StyleTypings.Text.Blank
import StyleTypings.Text.Bounded
import StyleTypings.Text.Case
import StyleTypings.Text.CaseTable
import StyleTypings.Text.LineIndex
import StyleTypings.Text.Number
import StyleTypings.Text.Span
import StyleTypings.Proofs.Text.Cutting
import StyleTypings.Proofs.Text.Lines
import StyleTypings.Proofs.SourceMap.Lookup
import StyleTypings.Proofs.SourceMap.Segments
import StyleTypings.Proofs.Json.Reading
import StyleTypings.Proofs.Compile.Linking
import StyleTypings.Proofs.SourceMap.Document
import StyleTypings.Proofs.Compile.Units
import StyleTypings.Proofs.Compile.Once
import StyleTypings.Proofs.Stylesheet.Lexing
import StyleTypings.Proofs.Stylesheet.Parsing
import StyleTypings.Proofs.Compile.Copying
import StyleTypings.Proofs.Compile.Cleaning
import StyleTypings.Proofs.SourceMap.Building
import StyleTypings.Proofs.Compile.Mapping
import StyleTypings.Proofs.Compile.Tracing
import StyleTypings.Proofs.Classes.Counting
import StyleTypings.Proofs.Classes.Locating
import StyleTypings.Proofs.Declaration.Mapping
import StyleTypings.Proofs.Files.Naming
import StyleTypings.Proofs.Session.Generating
import StyleTypings.Proofs.Stylesheet.Reading
import StyleTypings.Proofs.Stylesheet.Faultless
import StyleTypings.Proofs.Stylesheet.Grammar
import StyleTypings.Proofs.Stylesheet.Braces
import StyleTypings.Proofs.Stylesheet.Recovery
import StyleTypings.Proofs.Compile.Assembling
import StyleTypings.Proofs.Stylesheet.Dividing
import StyleTypings.Proofs.Stylesheet.Joining
import StyleTypings.Proofs.Stylesheet.Outlines
import StyleTypings.Proofs.Stylesheet.Appending
import StyleTypings.Proofs.Compile.Remaining
import StyleTypings.Proofs.Compile.Splicing
import StyleTypings.Proofs.Stylesheet.Tiling
import StyleTypings.Proofs.Declaration.Rows
import StyleTypings.Proofs.Classes.Surviving
import StyleTypings.Proofs.Classes.Commenting
import StyleTypings.Proofs.Classes.Pieces
import StyleTypings.Proofs.Classes.Scoping
import StyleTypings.Proofs.Declaration.Keys
import StyleTypings.Proofs.Declaration.Interface
import StyleTypings.Proofs.Text.IdentifierTable
import StyleTypings.Proofs.Text.Identifier
import StyleTypings.Proofs.Classes.Words
import StyleTypings.Proofs.Declaration.Identifiers
import StyleTypings.Proofs.Files.Ordering
import StyleTypings.Proofs.Stylesheet.Extents
import StyleTypings.Proofs.Files.Observing
import StyleTypings.Proofs.Files.Requests
import StyleTypings.Proofs.Files.Steady
import StyleTypings.Proofs.Files.Territory
import StyleTypings.Proofs.Files.Beside
import StyleTypings.Proofs.Session.Scheduling
import StyleTypings.Proofs.Session.Checking
import StyleTypings.Proofs.Session.Footprint
import StyleTypings.Proofs.Session.Writing
import StyleTypings.Proofs.Session.Batching
import StyleTypings.Proofs.Files.Stripping
import StyleTypings.Proofs.Files.Starting
import StyleTypings.Proofs.Files.Selecting
import StyleTypings.Proofs.Stylesheet.Reporting
import StyleTypings.Proofs.Compile.Visiting
import StyleTypings.Proofs.Classes.Owning
import StyleTypings.Proofs.Session.Concluding
import StyleTypings.Proofs.SourceMap.Nearest
import StyleTypings.Proofs.Declaration.Places
import StyleTypings.Proofs.Classes.Listing
import StyleTypings.Proofs.Compile.Fusing
import StyleTypings.Proofs.Compile.Blanked
import StyleTypings.Proofs.Text.Bytes
import StyleTypings.Proofs.Text.Offsets
import StyleTypings.Proofs.Text.Positions
import StyleTypings.Proofs.Files.Following
import StyleTypings.Proofs.Files.Anchoring
import StyleTypings.Proofs.Compile.Sources
import StyleTypings.Proofs.Glob.Matching
import StyleTypings.Proofs.Glob.Escaping
import StyleTypings.Proofs.Files.Spelling
import StyleTypings.Proofs.Files.Denoting
import StyleTypings.Proofs.Files.Single
import StyleTypings.Proofs.Files.Below
import StyleTypings.Proofs.Text.Trimming
import StyleTypings.Proofs.Compile.Specifying
import StyleTypings.Proofs.Config.Uncommenting
import StyleTypings.Proofs.Config.Merging
import StyleTypings.Proofs.Glob.Beginning
import StyleTypings.Proofs.Files.Literal
import StyleTypings.Proofs.Files.Pruning
import StyleTypings.Proofs.Text.Separators
import StyleTypings.Proofs.Compile.Diagnosing
import StyleTypings.Proofs.Declaration.Rejecting
import StyleTypings.Proofs.Classes.Hyphenating
import StyleTypings.Proofs.Classes.Dividing
import StyleTypings.Proofs.Stylesheet.Walking
import StyleTypings.Proofs.Classes.Extracting
