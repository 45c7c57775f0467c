import PathQuery.Text.Ranges
import PathQuery.Text.Blank
import PathQuery.Text.Alphabetic
import PathQuery.Text.Numeric
import PathQuery.Text.Hex
import PathQuery.Decimal
import PathQuery.Decimal.Binary
import PathQuery.Decimal.Shortest
import PathQuery.Decimal.Nearest
import PathQuery.Decimal.Numeral
import PathQuery.Document.Members
import PathQuery.Document.Node
import PathQuery.Document.Quoted
import PathQuery.Document.Render
import PathQuery.Document.Exchange
import PathQuery.Document.Lexeme
import PathQuery.Document.Reader
import PathQuery.Document.Library
import PathQuery.Token
import PathQuery.Token.Quoted
import PathQuery.Token.Lexer
import PathQuery.Token.Stream
import PathQuery.Expr
import PathQuery.Expr.Normal
import PathQuery.Expr.Parser
import PathQuery.Value
import PathQuery.Value.Broadcast
import PathQuery.Eval.Error
import PathQuery.Eval.Coercion
import PathQuery.Eval
import PathQuery.Query
import PathQuery.Command
import PathQuery.Command.Settings
import PathQuery.Command.Arguments
import PathQuery.Command.Run
import PathQuery.Main
import PathQuery.Proofs.Placement
import PathQuery.Proofs.Grammar
import PathQuery.Proofs.Reading
import PathQuery.Proofs.Acceptance
import PathQuery.Proofs.Nesting
import PathQuery.Proofs.Characters
import PathQuery.Proofs.Scanning
import PathQuery.Proofs.Spelling
import PathQuery.Proofs.FloatText
import PathQuery.Proofs.Phrases
import PathQuery.Proofs.RoundTrip
import PathQuery.Proofs.Chains
import PathQuery.Proofs.Shape
import PathQuery.Proofs.Relocation
import PathQuery.Proofs.Parts
import PathQuery.Proofs.Provenance
import PathQuery.Proofs.OrderedKeys
import PathQuery.Proofs.NormalNesting
import PathQuery.Proofs.Extent
import PathQuery.Proofs.Coverage
import PathQuery.Proofs.Origin
import PathQuery.Proofs.Rebasing
import PathQuery.Proofs.Prompt
import PathQuery.Proofs.Refusal
import PathQuery.Proofs.IntegerKeys
import PathQuery.Proofs.QuotedTexts
import PathQuery.Proofs.Joining
import PathQuery.Proofs.Resuming
import PathQuery.Proofs.Broadcasting
import PathQuery.Proofs.RowByRow
import PathQuery.Proofs.Descent
import PathQuery.Proofs.DottedIndices
import PathQuery.Proofs.ShortCircuit
import PathQuery.Proofs.Associativity
import PathQuery.Proofs.Predicates
import PathQuery.Proofs.Conversions
import PathQuery.Proofs.Layouts
import PathQuery.Proofs.Numbers
import PathQuery.Proofs.Moving
import PathQuery.Proofs.Spacing
import PathQuery.Proofs.Narrowing
import PathQuery.Proofs.Entries
import PathQuery.Proofs.Exchange
import PathQuery.Proofs.ShortestDigits
import PathQuery.Proofs.FiniteNearest
import PathQuery.Proofs.FloatDigits
import PathQuery.Proofs.JsonText
import PathQuery.Proofs.Lexemes
import PathQuery.Proofs.JsonReader
import PathQuery.Proofs.Rendering
import PathQuery.Proofs.FloatKinds
import PathQuery.Proofs.WrittenTexts
