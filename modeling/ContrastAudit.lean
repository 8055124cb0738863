import ContrastAudit.Analysis.Auditor
import ContrastAudit.Analysis.Outcome
import ContrastAudit.Color.Basic
import ContrastAudit.Color.Mix
import ContrastAudit.Color.Named
import ContrastAudit.Color.Notation
import ContrastAudit.Color.Space
import ContrastAudit.CommandLine.Check
import ContrastAudit.CommandLine.Console
import ContrastAudit.CommandLine.Program
import ContrastAudit.CommandLine.Syntax
import ContrastAudit.CommandLine.Usage
import ContrastAudit.CommandLine.Value
import ContrastAudit.Config.Basic
import ContrastAudit.Config.Load
import ContrastAudit.Contrast.Font
import ContrastAudit.Contrast.Ratio
import ContrastAudit.Contrast.Side
import ContrastAudit.Contrast.Verdict
import ContrastAudit.Document.Element
import ContrastAudit.Document.Growth
import ContrastAudit.Document.Outline
import ContrastAudit.File.Discovery
import ContrastAudit.File.Path
import ContrastAudit.File.System
import ContrastAudit.Ignore.Filter
import ContrastAudit.Json.Basic
import ContrastAudit.Json.Display
import ContrastAudit.Json.Reader
import ContrastAudit.Json.Writer
import ContrastAudit.Main
import ContrastAudit.Markup.Builder
import ContrastAudit.Markup.CharacterReference
import ContrastAudit.Markup.Event
import ContrastAudit.Markup.Frontmatter
import ContrastAudit.Markup.NamedCharacter
import ContrastAudit.Markup.Page
import ContrastAudit.Markup.Scan
import ContrastAudit.Markup.StartTag
import ContrastAudit.Markup.StyleAttribute
import ContrastAudit.Number.Arithmetic
import ContrastAudit.Number.Decimal
import ContrastAudit.Number.Dyadic
import ContrastAudit.Number.Fault
import ContrastAudit.Number.Whole
import ContrastAudit.Pairing.Audit
import ContrastAudit.Pairing.Pair
import ContrastAudit.Pairing.Styling
import ContrastAudit.Pairing.Surface
import ContrastAudit.Proofs.Analysis.Balance
import ContrastAudit.Proofs.Color.Byte
import ContrastAudit.Proofs.Color.Channels
import ContrastAudit.Proofs.Color.Fault
import ContrastAudit.Proofs.Color.Mixture
import ContrastAudit.Proofs.Color.Notation
import ContrastAudit.Proofs.Color.Screen
import ContrastAudit.Proofs.Color.Written
import ContrastAudit.Proofs.CommandLine.ColorPair
import ContrastAudit.Proofs.CommandLine.ExitCode
import ContrastAudit.Proofs.Config.Load
import ContrastAudit.Proofs.Document.Body
import ContrastAudit.Proofs.Document.Lineage
import ContrastAudit.Proofs.Document.Outline
import ContrastAudit.Proofs.File.Discovery
import ContrastAudit.Proofs.File.Place
import ContrastAudit.Proofs.Graph.FirstVisit
import ContrastAudit.Proofs.Ignore.Pattern
import ContrastAudit.Proofs.Ignore.Union
import ContrastAudit.Proofs.Markup.Builder
import ContrastAudit.Proofs.Markup.Forest
import ContrastAudit.Proofs.Markup.Frontmatter
import ContrastAudit.Proofs.Markup.OpenTags
import ContrastAudit.Proofs.Markup.Reading
import ContrastAudit.Proofs.Number.Dyadic
import ContrastAudit.Proofs.Number.Nearest
import ContrastAudit.Proofs.Number.Order
import ContrastAudit.Proofs.Number.Parts
import ContrastAudit.Proofs.Number.Places
import ContrastAudit.Proofs.Number.Rounding
import ContrastAudit.Proofs.Pairing.Appearance
import ContrastAudit.Proofs.Pairing.Faults
import ContrastAudit.Proofs.Pairing.KeptSurfaces
import ContrastAudit.Proofs.Pairing.Locality
import ContrastAudit.Proofs.Pairing.Opacity
import ContrastAudit.Proofs.Pairing.PageBackground
import ContrastAudit.Proofs.Pairing.StyleAttribute
import ContrastAudit.Proofs.Property.Apart
import ContrastAudit.Proofs.Property.Derivation
import ContrastAudit.Proofs.Property.Final
import ContrastAudit.Proofs.Property.Map
import ContrastAudit.Proofs.Property.Reference
import ContrastAudit.Proofs.Report.Escaping
import ContrastAudit.Proofs.Report.Lines
import ContrastAudit.Proofs.Report.Ratio
import ContrastAudit.Proofs.Report.Rows
import ContrastAudit.Proofs.Selector.Condition
import ContrastAudit.Proofs.Selector.Cut
import ContrastAudit.Proofs.Selector.Insertion
import ContrastAudit.Proofs.Selector.Joining
import ContrastAudit.Proofs.Selector.Matching
import ContrastAudit.Proofs.Selector.Reading
import ContrastAudit.Proofs.Selector.Spacing
import ContrastAudit.Proofs.Selector.Spelling
import ContrastAudit.Proofs.Style.Winner
import ContrastAudit.Proofs.Stylesheet.Concatenation
import ContrastAudit.Proofs.Stylesheet.Depth
import ContrastAudit.Proofs.Stylesheet.Entry
import ContrastAudit.Proofs.Stylesheet.Flattening
import ContrastAudit.Proofs.Stylesheet.Linked
import ContrastAudit.Proofs.Stylesheet.Parenthesized
import ContrastAudit.Proofs.Stylesheet.Reading
import ContrastAudit.Proofs.Stylesheet.Scan
import ContrastAudit.Proofs.Stylesheet.SelectorList
import ContrastAudit.Proofs.Stylesheet.Statements
import ContrastAudit.Proofs.Stylesheet.Written
import ContrastAudit.Proofs.Text.Case
import ContrastAudit.Proofs.Text.Newline
import ContrastAudit.Proofs.Text.Pieces
import ContrastAudit.Proofs.Text.Wildcard
import ContrastAudit.Proofs.Token.Color
import ContrastAudit.Proofs.Token.Inheritance
import ContrastAudit.Proofs.Token.Reference
import ContrastAudit.Proofs.Utility.FontSize
import ContrastAudit.Proofs.Value.Adjacency
import ContrastAudit.Proofs.Value.Boundary
import ContrastAudit.Proofs.Value.Commas
import ContrastAudit.Proofs.Value.Flattening
import ContrastAudit.Proofs.Value.Lowering
import ContrastAudit.Proofs.Value.Piece
import ContrastAudit.Proofs.Value.Reading
import ContrastAudit.Proofs.Value.Recovery
import ContrastAudit.Proofs.Value.Rules
import ContrastAudit.Proofs.Value.Separators
import ContrastAudit.Proofs.Value.Token
import ContrastAudit.Proofs.Watch.Coverage
import ContrastAudit.Proofs.Watch.Interleaving
import ContrastAudit.Property.Map
import ContrastAudit.Property.Substitution
import ContrastAudit.Report.Annotated
import ContrastAudit.Report.Html
import ContrastAudit.Report.Json
import ContrastAudit.Report.Page
import ContrastAudit.Report.Plain
import ContrastAudit.Report.Ratio
import ContrastAudit.Report.Style
import ContrastAudit.Report.Summary
import ContrastAudit.Selector.Basic
import ContrastAudit.Selector.Normal
import ContrastAudit.Selector.Parse
import ContrastAudit.Style.Cascade
import ContrastAudit.Style.Rule
import ContrastAudit.Stylesheet.Declaration
import ContrastAudit.Stylesheet.Linked
import ContrastAudit.Stylesheet.Node
import ContrastAudit.Stylesheet.Parse
import ContrastAudit.Stylesheet.Scan
import ContrastAudit.Stylesheet.Sheet
import ContrastAudit.Text.Blank
import ContrastAudit.Text.Case
import ContrastAudit.Text.Cut
import ContrastAudit.Text.Digit
import ContrastAudit.Text.Fold
import ContrastAudit.Text.Glob
import ContrastAudit.Text.Hexadecimal
import ContrastAudit.Text.Newline
import ContrastAudit.Text.Position
import ContrastAudit.Text.Printable
import ContrastAudit.Text.Quoted
import ContrastAudit.Text.Range
import ContrastAudit.Text.Utf8
import ContrastAudit.Token.Color
import ContrastAudit.Token.Flatten
import ContrastAudit.Token.Read
import ContrastAudit.Utility.Palette
import ContrastAudit.Utility.Resolve
import ContrastAudit.Value.Arguments
import ContrastAudit.Value.Component
import ContrastAudit.Value.Parse
import ContrastAudit.Value.Token
import ContrastAudit.Watch.Event
import ContrastAudit.Watch.Loop
import ContrastAudit.Yaml.Reader
import ContrastAudit.Yaml.Scalar
import ContrastAudit.Yaml.Source
import ContrastAudit.Yaml.Text
