import MailTemplate.Attribute.Bag
import MailTemplate.Attribute.Keys
import MailTemplate.Attribute.Numbers
import MailTemplate.Attribute.Value
import MailTemplate.Binary64.Basic
import MailTemplate.Binary64.Decimal
import MailTemplate.Binary64.Reader
import MailTemplate.Cascade.Layers
import MailTemplate.Cascade.Resolve
import MailTemplate.CommandLine.Grammar
import MailTemplate.CommandLine.Options
import MailTemplate.CommandLine.Run
import MailTemplate.Document.Basic
import MailTemplate.Document.Codec
import MailTemplate.Document.IdSource
import MailTemplate.Document.Kind
import MailTemplate.Document.Width
import MailTemplate.Edit.Apply
import MailTemplate.Edit.Basic
import MailTemplate.Edit.Codec
import MailTemplate.Grid
import MailTemplate.Json.Basic
import MailTemplate.Json.Decode
import MailTemplate.Json.Error
import MailTemplate.Json.Number
import MailTemplate.Json.Reader
import MailTemplate.Json.Writer
import MailTemplate.Keyed
import MailTemplate.Main
import MailTemplate.Markup.Assembly
import MailTemplate.Markup.Construction
import MailTemplate.Markup.Escape
import MailTemplate.Markup.Forest
import MailTemplate.Markup.NamedCharacters
import MailTemplate.Markup.Node
import MailTemplate.Markup.Reference
import MailTemplate.Markup.Token
import MailTemplate.Markup.Vocabulary
import MailTemplate.Page.Blocks
import MailTemplate.Page.Document
import MailTemplate.Page.Outline
import MailTemplate.Page.Style
import MailTemplate.Proofs.Affixes
import MailTemplate.Proofs.Bags
import MailTemplate.Proofs.Binary64.Order
import MailTemplate.Proofs.Binary64.Rank
import MailTemplate.Proofs.Binary64.Separation
import MailTemplate.Proofs.Binary64.Text
import MailTemplate.Proofs.Blanks
import MailTemplate.Proofs.BuiltDocuments
import MailTemplate.Proofs.Cascade.Alike
import MailTemplate.Proofs.Cascade.Baked
import MailTemplate.Proofs.Cascade.Layers
import MailTemplate.Proofs.Cascade.Locality
import MailTemplate.Proofs.Cascade.NodeByNode
import MailTemplate.Proofs.Cascade.OtherRoles
import MailTemplate.Proofs.Cascade.Precedence
import MailTemplate.Proofs.Cascade.SameDocuments
import MailTemplate.Proofs.Cascade.Spread
import MailTemplate.Proofs.DeclaredWidths
import MailTemplate.Proofs.Edit.Commuting
import MailTemplate.Proofs.Edit.Copies
import MailTemplate.Proofs.Edit.DividerPairs
import MailTemplate.Proofs.Edit.Dividers
import MailTemplate.Proofs.Edit.Frames
import MailTemplate.Proofs.Edit.GridConservation
import MailTemplate.Proofs.Edit.IdConservation
import MailTemplate.Proofs.Edit.Independence
import MailTemplate.Proofs.Edit.InsertedRows
import MailTemplate.Proofs.Edit.Kept
import MailTemplate.Proofs.Edit.Moves
import MailTemplate.Proofs.Edit.NodeTrace
import MailTemplate.Proofs.Edit.Refusals
import MailTemplate.Proofs.Edit.RowUnits
import MailTemplate.Proofs.Edit.Run
import MailTemplate.Proofs.Edit.Step
import MailTemplate.Proofs.Edit.Touches
import MailTemplate.Proofs.Escaping
import MailTemplate.Proofs.FairWidths
import MailTemplate.Proofs.FreshIds
import MailTemplate.Proofs.GridBytes
import MailTemplate.Proofs.GridEdits
import MailTemplate.Proofs.GridWidths
import MailTemplate.Proofs.IdCalls
import MailTemplate.Proofs.Json.Numbers
import MailTemplate.Proofs.Json.Parsed
import MailTemplate.Proofs.Json.Reread
import MailTemplate.Proofs.Json.RoundTrip
import MailTemplate.Proofs.Keyed
import MailTemplate.Proofs.Lists
import MailTemplate.Proofs.Nodes
import MailTemplate.Proofs.Page.ColumnAlignment
import MailTemplate.Proofs.Page.Nesting
import MailTemplate.Proofs.Page.Tags
import MailTemplate.Proofs.Page.WellNested
import MailTemplate.Proofs.Places
import MailTemplate.Proofs.PlainText
import MailTemplate.Proofs.Script.Accepted
import MailTemplate.Proofs.Script.CompileStep
import MailTemplate.Proofs.Script.Compiled
import MailTemplate.Proofs.Script.CompiledBags
import MailTemplate.Proofs.Script.CompiledIds
import MailTemplate.Proofs.Script.CompiledRoundTrip
import MailTemplate.Proofs.Script.Converted
import MailTemplate.Proofs.Script.ErasedLexemes
import MailTemplate.Proofs.Script.ErasedPlaces
import MailTemplate.Proofs.Script.ErrorFragments
import MailTemplate.Proofs.Script.FaultSpans
import MailTemplate.Proofs.Script.Fields
import MailTemplate.Proofs.Script.Fronts
import MailTemplate.Proofs.Script.Gaps
import MailTemplate.Proofs.Script.Grammar
import MailTemplate.Proofs.Script.InlineMarkup
import MailTemplate.Proofs.Script.InsertedLayout
import MailTemplate.Proofs.Script.Lexed
import MailTemplate.Proofs.Script.LexicalGrammar
import MailTemplate.Proofs.Script.Lexing
import MailTemplate.Proofs.Script.MarkupElements
import MailTemplate.Proofs.Script.MarkupOffsets
import MailTemplate.Proofs.Script.NodeTokens
import MailTemplate.Proofs.Script.Outline
import MailTemplate.Proofs.Script.Pieces
import MailTemplate.Proofs.Script.Reader
import MailTemplate.Proofs.Script.Recompile
import MailTemplate.Proofs.Script.Recompiled
import MailTemplate.Proofs.Script.RecompiledStyles
import MailTemplate.Proofs.Script.RoundTrip
import MailTemplate.Proofs.Script.ScannedValues
import MailTemplate.Proofs.Script.Spans
import MailTemplate.Proofs.Script.Structure
import MailTemplate.Proofs.Script.TagContent
import MailTemplate.Proofs.Script.TagRoundTrip
import MailTemplate.Proofs.Script.Writable
import MailTemplate.Proofs.Script.WrittenAttributes
import MailTemplate.Proofs.Script.WrittenTree
import MailTemplate.Proofs.Script.WrittenValues
import MailTemplate.Proofs.Stored.Documents
import MailTemplate.Proofs.Stored.Edits
import MailTemplate.Proofs.Success
import MailTemplate.Proofs.Theme.Seeds
import MailTemplate.Render
import MailTemplate.RichText
import MailTemplate.Script.Compile
import MailTemplate.Script.Convert
import MailTemplate.Script.Error
import MailTemplate.Script.Lexeme
import MailTemplate.Script.Report
import MailTemplate.Script.Token
import MailTemplate.Script.Tree
import MailTemplate.Script.Value
import MailTemplate.Script.Writer
import MailTemplate.Settings
import MailTemplate.Starter.Draft
import MailTemplate.Starter.Templates
import MailTemplate.Text.Affix
import MailTemplate.Text.Base64
import MailTemplate.Text.Blank
import MailTemplate.Text.CellWidth
import MailTemplate.Text.Measure
import MailTemplate.Theme.Color
import MailTemplate.Theme.Palette
import MailTemplate.Toml.Basic
import MailTemplate.Toml.Reader
import MailTemplate.Toml.Scalar
import MailTemplate.View
