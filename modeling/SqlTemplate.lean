import SqlTemplate.Argument
import SqlTemplate.Calendar.Date
import SqlTemplate.Calendar.Moment
import SqlTemplate.CompileError
import SqlTemplate.Engine.Basic
import SqlTemplate.Engine.Default
import SqlTemplate.Engine.Literal
import SqlTemplate.Engine.Writer
import SqlTemplate.Hints
import SqlTemplate.Identifier
import SqlTemplate.KeyMap
import SqlTemplate.Literal.Quoted
import SqlTemplate.Literal.Timestamp
import SqlTemplate.Number.Binary64
import SqlTemplate.Number.Plain
import SqlTemplate.Number.Shortest
import SqlTemplate.Placeholder
import SqlTemplate.Proofs.Agreement
import SqlTemplate.Proofs.Arguments
import SqlTemplate.Proofs.ByPosition
import SqlTemplate.Proofs.ByteStrings
import SqlTemplate.Proofs.CivilTimes
import SqlTemplate.Proofs.ClosedArguments
import SqlTemplate.Proofs.Collecting
import SqlTemplate.Proofs.Comments
import SqlTemplate.Proofs.Contexts
import SqlTemplate.Proofs.Cuts
import SqlTemplate.Proofs.DayNumbers
import SqlTemplate.Proofs.DefaultHistory
import SqlTemplate.Proofs.DirectNumbering
import SqlTemplate.Proofs.Draft
import SqlTemplate.Proofs.DraftRendering
import SqlTemplate.Proofs.EqualArguments
import SqlTemplate.Proofs.EqualityLaws
import SqlTemplate.Proofs.EscapeStrings
import SqlTemplate.Proofs.EscapedSigns
import SqlTemplate.Proofs.ExtraArguments
import SqlTemplate.Proofs.FirstFault
import SqlTemplate.Proofs.FlatArguments
import SqlTemplate.Proofs.ForeignStatements
import SqlTemplate.Proofs.Gaps
import SqlTemplate.Proofs.Grammar
import SqlTemplate.Proofs.Harmless
import SqlTemplate.Proofs.HintHistory
import SqlTemplate.Proofs.IdentifierPaths
import SqlTemplate.Proofs.IdentifierText
import SqlTemplate.Proofs.Inert
import SqlTemplate.Proofs.InlineStatements
import SqlTemplate.Proofs.Interchange
import SqlTemplate.Proofs.LastWrites
import SqlTemplate.Proofs.LiteralText
import SqlTemplate.Proofs.Lookahead
import SqlTemplate.Proofs.Lossless
import SqlTemplate.Proofs.ModeAgreement
import SqlTemplate.Proofs.NameOrder
import SqlTemplate.Proofs.NegativeNumbers
import SqlTemplate.Proofs.NoArguments
import SqlTemplate.Proofs.Octets
import SqlTemplate.Proofs.Pieces
import SqlTemplate.Proofs.Placeholders
import SqlTemplate.Proofs.PrefixedStringDecoding
import SqlTemplate.Proofs.PrefixedStrings
import SqlTemplate.Proofs.QuestionMarks
import SqlTemplate.Proofs.Quoting
import SqlTemplate.Proofs.Reading
import SqlTemplate.Proofs.Replacements
import SqlTemplate.Proofs.Rereading
import SqlTemplate.Proofs.Restarts
import SqlTemplate.Proofs.RuleAgreement
import SqlTemplate.Proofs.SharedStatements
import SqlTemplate.Proofs.Skeleton
import SqlTemplate.Proofs.Splices
import SqlTemplate.Proofs.StringContents
import SqlTemplate.Proofs.StringDecoding
import SqlTemplate.Proofs.StringPlaces
import SqlTemplate.Proofs.Unquoted
import SqlTemplate.Proofs.Variants
import SqlTemplate.Proofs.Words
import SqlTemplate.Proofs.WrittenLists
import SqlTemplate.Proofs.ZoneNames
import SqlTemplate.Proofs.ZonedMoments
import SqlTemplate.Rendered
import SqlTemplate.Scalar
import SqlTemplate.Statement.Basic
import SqlTemplate.Statement.Piece
import SqlTemplate.Template.Basic
import SqlTemplate.Template.Render
import SqlTemplate.Text.Basic
import SqlTemplate.Text.Blank
import SqlTemplate.Text.Numeral
import SqlTemplate.Text.Order
import SqlTemplate.Text.Quoting
import SqlTemplate.Token.Basic
import SqlTemplate.Token.Lexer
import SqlTemplate.Writer
