import ComponentTsx.Main
import ComponentTsx.Proofs.Text.Lines
import ComponentTsx.Proofs.Text.LineEndings
import ComponentTsx.Proofs.LineIndex.Position
import ComponentTsx.Proofs.Json.Reading
import ComponentTsx.Proofs.Assembly.Lookup
import ComponentTsx.Proofs.SourceMap.Segments
import ComponentTsx.Proofs.SourceMap.Lookup
import ComponentTsx.Proofs.SourceMap.Decoding
import ComponentTsx.Proofs.Assembly.Building
import ComponentTsx.Proofs.Component.Lossless
import ComponentTsx.Proofs.Component.Closing
import ComponentTsx.Proofs.Component.Places
import ComponentTsx.Proofs.Component.Joining
import ComponentTsx.Proofs.Tsx.Code
import ComponentTsx.Proofs.Tsx.Positions
import ComponentTsx.Proofs.Token.Enclosure
import ComponentTsx.Proofs.Token.Bounds
import ComponentTsx.Proofs.Token.Ending
import ComponentTsx.Proofs.Token.Extension
import ComponentTsx.Proofs.Token.Tiling
import ComponentTsx.Proofs.Token.Blanking
import ComponentTsx.Proofs.Literal.LineEndings
import ComponentTsx.Proofs.Token.LineEndings
import ComponentTsx.Proofs.Statement.Relocation
import ComponentTsx.Proofs.Statement.Append
import ComponentTsx.Proofs.GenericClause.Closing
import ComponentTsx.Proofs.Declaration.Relocation
import ComponentTsx.Proofs.Declaration.Append
import ComponentTsx.Proofs.Declaration.ClauseExtent
import ComponentTsx.Proofs.Declaration.Blanking
import ComponentTsx.Proofs.Declaration.Outline
import ComponentTsx.Proofs.Declaration.LineEndings
import ComponentTsx.Proofs.Declaration.Partition
import ComponentTsx.Proofs.Token.Replacement
import ComponentTsx.Proofs.Token.Words
import ComponentTsx.Proofs.ComponentName.Word
import ComponentTsx.Proofs.GenericClause.Rereading
import ComponentTsx.Proofs.Path.Location
import ComponentTsx.Proofs.Path.Order
import ComponentTsx.Proofs.FileSystem.View
import ComponentTsx.Proofs.FileSystem.Way
import ComponentTsx.Proofs.FileSystem.Making
import ComponentTsx.Proofs.Discovery.Found
import ComponentTsx.Proofs.Run.Targets
import ComponentTsx.Proofs.FileSystem.Effect
import ComponentTsx.Proofs.Run.Effect
import ComponentTsx.Proofs.Run.Order
import ComponentTsx.Proofs.Run.Permutation
import ComponentTsx.Proofs.Base64.Decoding
import ComponentTsx.Proofs.Conversion.Deliveries
import ComponentTsx.Proofs.Run.Frame
import ComponentTsx.Proofs.FileSystem.Growth
import ComponentTsx.Proofs.FileSystem.Repetition
import ComponentTsx.Proofs.Discovery.Stability
import ComponentTsx.Proofs.Run.Growth
import ComponentTsx.Proofs.Run.Failure
import ComponentTsx.Proofs.Run.Repetition
import ComponentTsx.Proofs.SourceMap.Unmapped
import ComponentTsx.Proofs.Tsx.Unmapped
import ComponentTsx.Proofs.Component.LineEndings
import ComponentTsx.Proofs.GenericClause.Nesting
import ComponentTsx.Proofs.GenericClause.Parameters
import ComponentTsx.Proofs.Declaration.Grammar
import ComponentTsx.Proofs.Statement.Uncut
import ComponentTsx.Proofs.Statement.Level
import ComponentTsx.Proofs.Statement.Braces
import ComponentTsx.Proofs.Declaration.Braces
import ComponentTsx.Proofs.Token.Spelling
import ComponentTsx.Proofs.Statement.Spelling
import ComponentTsx.Proofs.Import.Reading
import ComponentTsx.Proofs.Declaration.Imports
import ComponentTsx.Proofs.GenericClause.TypeList
import ComponentTsx.Proofs.Statement.Header
import ComponentTsx.Proofs.Declaration.Layout
import ComponentTsx.Proofs.SourceMap.Return
import ComponentTsx.Proofs.Markup.Selection
import ComponentTsx.Proofs.Tsx.Lowered
import ComponentTsx.Proofs.Component.FenceLine
import ComponentTsx.Proofs.Literal.LineFeeds
import ComponentTsx.Proofs.Token.LineFeeds
import ComponentTsx.Proofs.LineIndex.Offset
import ComponentTsx.Proofs.LineIndex.Units
import ComponentTsx.Proofs.Token.Template
import ComponentTsx.Proofs.Token.Kinds
import ComponentTsx.Proofs.ComponentName.Identifier
import ComponentTsx.Proofs.Literal.Agreement
import ComponentTsx.Proofs.Config.Comments
import ComponentTsx.Proofs.Path.Components
import ComponentTsx.Proofs.Discovery.Exact
import ComponentTsx.Proofs.SourceMap.Offsets
import ComponentTsx.Transform
import ComponentTsx.Proofs.SourceMap.Building
import ComponentTsx.Proofs.Tsx.Emission
import ComponentTsx.Proofs.Run.Delivery
import ComponentTsx.Proofs.Run.Diagnostics
import ComponentTsx.Component.Offsets
import ComponentTsx.Token.Bytes
import ComponentTsx.Proofs.Literal.Bytes
