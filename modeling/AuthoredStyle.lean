import AuthoredStyle.Cascade.Computed
import AuthoredStyle.Cascade.Declared
import AuthoredStyle.Cascade.Match
import AuthoredStyle.Cascade.Selector
import AuthoredStyle.CommandLine.Arguments
import AuthoredStyle.CommandLine.Files
import AuthoredStyle.CommandLine.Run
import AuthoredStyle.Css.Background
import AuthoredStyle.Css.Colour
import AuthoredStyle.Css.Component
import AuthoredStyle.Css.Grammar
import AuthoredStyle.Css.Motion
import AuthoredStyle.Css.Plain
import AuthoredStyle.Css.Reader
import AuthoredStyle.Css.Selector
import AuthoredStyle.Css.Sheet
import AuthoredStyle.Css.Shorthand
import AuthoredStyle.Css.Token
import AuthoredStyle.Css.Verbatim
import AuthoredStyle.Css.Written
import AuthoredStyle.Decimal.Binary
import AuthoredStyle.Decimal.Numeral
import AuthoredStyle.Decimal.Written
import AuthoredStyle.Dict
import AuthoredStyle.Dom.Element
import AuthoredStyle.Dom.Table
import AuthoredStyle.Dom.Tree
import AuthoredStyle.Error
import AuthoredStyle.Extraction
import AuthoredStyle.Html.Builder
import AuthoredStyle.Html.Doctype
import AuthoredStyle.Html.Document
import AuthoredStyle.Html.Foreign
import AuthoredStyle.Html.Formatting
import AuthoredStyle.Html.Names
import AuthoredStyle.Html.Reference
import AuthoredStyle.Html.ReferenceTable
import AuthoredStyle.Html.Rules.Basic
import AuthoredStyle.Html.Rules.Body
import AuthoredStyle.Html.Rules.Foreign
import AuthoredStyle.Html.Rules.Outside
import AuthoredStyle.Html.Rules.Table
import AuthoredStyle.Html.Token
import AuthoredStyle.Json.Printing
import AuthoredStyle.Json.Reading
import AuthoredStyle.Json.Schema
import AuthoredStyle.Json.Token
import AuthoredStyle.Json.Value
import AuthoredStyle.Libraries.Basic
import AuthoredStyle.Libraries.BuiltIn
import AuthoredStyle.Main
import AuthoredStyle.NameSet
import AuthoredStyle.Page.Basic
import AuthoredStyle.Page.Path
import AuthoredStyle.Page.Reading
import AuthoredStyle.Page.Snapshot
import AuthoredStyle.Page.Static
import AuthoredStyle.Property.Breakpoint
import AuthoredStyle.Property.Table
import AuthoredStyle.Selector.Match
import AuthoredStyle.Selector.Part
import AuthoredStyle.Session.Basic
import AuthoredStyle.Session.Command
import AuthoredStyle.Session.Response
import AuthoredStyle.Sheet.Comment
import AuthoredStyle.Sheet.Declaration
import AuthoredStyle.Sheet.Piece
import AuthoredStyle.Sheet.Pseudo
import AuthoredStyle.Sheet.Reading
import AuthoredStyle.Sheet.RuleSet
import AuthoredStyle.SourceMap.Annotation
import AuthoredStyle.SourceMap.Authored
import AuthoredStyle.SourceMap.DataUrl
import AuthoredStyle.SourceMap.Fetch
import AuthoredStyle.SourceMap.Index
import AuthoredStyle.SourceMap.Reach
import AuthoredStyle.SourceMap.Resolution
import AuthoredStyle.StyleTree.Build
import AuthoredStyle.StyleTree.Node
import AuthoredStyle.StyleTree.Options
import AuthoredStyle.StyleTree.Scss
import AuthoredStyle.Text.Blank
import AuthoredStyle.Text.Letter
import AuthoredStyle.Text.Search
import AuthoredStyle.Url.Basic
import AuthoredStyle.Url.Host
import AuthoredStyle.Url.Percent
import AuthoredStyle.Url.Reading
import AuthoredStyle.Value.Colour
import AuthoredStyle.Value.ColourName
import AuthoredStyle.Value.Normal
import AuthoredStyle.Value.Rgba
import AuthoredStyle.Proofs.Walk
import AuthoredStyle.Proofs.Page.Ancestry
import AuthoredStyle.Proofs.Selector.Climb
import AuthoredStyle.Proofs.Dom.Kinship
import AuthoredStyle.Proofs.Cascade.Choice
import AuthoredStyle.Proofs.Cascade.Commitment
import AuthoredStyle.Proofs.Page.Arena
import AuthoredStyle.Proofs.Page.Generations
import AuthoredStyle.Proofs.Page.Path
import AuthoredStyle.Proofs.StyleTree.Shape
import AuthoredStyle.Proofs.Text.Trim
import AuthoredStyle.Proofs.Sheet.Passing
import AuthoredStyle.Proofs.Sheet.Rereading
import AuthoredStyle.Proofs.Sheet.Reads
import AuthoredStyle.Proofs.Sheet.Path
import AuthoredStyle.Proofs.Sheet.Uncommented
import AuthoredStyle.Proofs.Scss.Declaration
import AuthoredStyle.Proofs.Scss.Lines
import AuthoredStyle.Proofs.Scss.Writable
import AuthoredStyle.Proofs.Scss.Comment
import AuthoredStyle.Proofs.Scss.RoundTrip
import AuthoredStyle.Proofs.Decimal.Whole
import AuthoredStyle.Proofs.Page.Descent
import AuthoredStyle.Proofs.Page.Canonical
import AuthoredStyle.Proofs.SourceMap.Merge
import AuthoredStyle.Proofs.Cascade.Precedence
import AuthoredStyle.Proofs.Cascade.Heaviest
import AuthoredStyle.Proofs.Session.History
import AuthoredStyle.Proofs.Sheet.CutOut
import AuthoredStyle.Proofs.Sheet.Concatenation
import AuthoredStyle.Proofs.Text.Words
import AuthoredStyle.Proofs.Text.Collapse
import AuthoredStyle.Proofs.Sheet.SelectorList
import AuthoredStyle.Proofs.Sheet.Unnesting
import AuthoredStyle.Proofs.Sheet.Stripping
import AuthoredStyle.Proofs.Sheet.WellFormed
import AuthoredStyle.Proofs.Session.WellFormed
import AuthoredStyle.Proofs.Page.Unmarked
import AuthoredStyle.Proofs.Session.Markers
import AuthoredStyle.Proofs.StyleTree.Redundancy
import AuthoredStyle.Proofs.Selector.Names
import AuthoredStyle.Proofs.Selector.Own
import AuthoredStyle.Proofs.Selector.Escaped
import AuthoredStyle.Proofs.Sheet.Escaped
import AuthoredStyle.Proofs.Sheet.EscapedClass
import AuthoredStyle.Proofs.Page.Readback
import AuthoredStyle.Proofs.SourceMap.Provenance
import AuthoredStyle.Proofs.StyleTree.Overrides
import AuthoredStyle.Proofs.StyleTree.Namesakes
import AuthoredStyle.Proofs.Page.Styled
import AuthoredStyle.Proofs.Selector.Readers
import AuthoredStyle.Proofs.Selector.Agreement
import AuthoredStyle.Proofs.StyleTree.Truncation
import AuthoredStyle.Proofs.Value.Colour
import AuthoredStyle.Proofs.Value.Silence
import AuthoredStyle.Proofs.StyleTree.Silence
import AuthoredStyle.Proofs.Dom.Table
import AuthoredStyle.Proofs.Scss.Authored
import AuthoredStyle.Proofs.Dom.Links
import AuthoredStyle.Proofs.Dom.Construction
import AuthoredStyle.Proofs.SourceMap.FileName
import AuthoredStyle.Proofs.SourceMap.MainSources
import AuthoredStyle.Proofs.SourceMap.Reach
import AuthoredStyle.Proofs.CommandLine.Rounds
import AuthoredStyle.Proofs.Session.Status
import AuthoredStyle.Proofs.Dom.Family
import AuthoredStyle.Proofs.Page.Mirror
import AuthoredStyle.Proofs.SourceMap.Annotation
import AuthoredStyle.Proofs.StyleTree.Buckets
import AuthoredStyle.Proofs.Text.Escape
import AuthoredStyle.Proofs.Selector.Satisfied
import AuthoredStyle.Proofs.Selector.TagAlone
import AuthoredStyle.Proofs.Sheet.Bracketed
import AuthoredStyle.Proofs.Sheet.Attribute
import AuthoredStyle.Proofs.Sheet.Enclosed
import AuthoredStyle.Proofs.Sheet.Emptied
import AuthoredStyle.Proofs.Sheet.Animation
import AuthoredStyle.Proofs.Sheet.Quoted
import AuthoredStyle.Proofs.Cascade.Written
import AuthoredStyle.Proofs.Cascade.Specificity
import AuthoredStyle.Proofs.Cascade.Printed
import AuthoredStyle.Proofs.Cascade.Comparison
import AuthoredStyle.Proofs.Selector.Brackets
import AuthoredStyle.Proofs.Cascade.Computed
import AuthoredStyle.Proofs.Cascade.LineHeight
import AuthoredStyle.Proofs.Decimal.Numeral
import AuthoredStyle.Proofs.Cascade.Verbatim
import AuthoredStyle.Proofs.Value.Joined
import AuthoredStyle.Proofs.Value.Normalized
import AuthoredStyle.Proofs.Cascade.Parts
import AuthoredStyle.Proofs.Cascade.Sides
import AuthoredStyle.Proofs.Cascade.Components
import AuthoredStyle.Proofs.Dom.Acyclic
import AuthoredStyle.Proofs.Dom.TextContent
import AuthoredStyle.Proofs.Dom.TextNode
import AuthoredStyle.Proofs.Dom.Coalescing
import AuthoredStyle.Proofs.Dom.Detachment
import AuthoredStyle.Proofs.Selector.Spelling
import AuthoredStyle.Proofs.Scss.Layout
import AuthoredStyle.Proofs.Scss.Composition
import AuthoredStyle.Proofs.Text.Bytes
import AuthoredStyle.Proofs.Sheet.Offsets
import AuthoredStyle.Proofs.Sheet.OffsetItems
import AuthoredStyle.Proofs.Sheet.Ranges
import AuthoredStyle.Proofs.Sheet.CheckedCuts
