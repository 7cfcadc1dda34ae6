import InfluxQL.Grammar.Query
import InfluxQL.Syntax.Transform
import InfluxQL.Syntax.Traversal
import InfluxQL.Proofs.Grammar.Reading
import InfluxQL.Proofs.Numeric.Decimal
import InfluxQL.Proofs.Grammar.ExpressionReading
import InfluxQL.Proofs.Grammar.Parameters
import InfluxQL.Proofs.Grammar.Precedence
import InfluxQL.Proofs.Grammar.QueryReading
import InfluxQL.Proofs.Grammar.Alike
import InfluxQL.Proofs.Grammar.Concatenation
import InfluxQL.Proofs.Grammar.WellFormed
import InfluxQL.Proofs.Token.Lossless
import InfluxQL.Proofs.Grammar.ErrorPlaces
import InfluxQL.Proofs.Grammar.Consumption
import InfluxQL.Proofs.Grammar.Truncation
import InfluxQL.Proofs.Grammar.Binding
import InfluxQL.Proofs.Grammar.MatchOperand
import InfluxQL.Proofs.Grammar.NumberLiteral
import InfluxQL.Proofs.Grammar.References
import InfluxQL.Proofs.Grammar.Sources
import InfluxQL.Proofs.Grammar.NameReading
import InfluxQL.Proofs.Aggregate
import InfluxQL.Proofs.Token.Quoting
import InfluxQL.Proofs.Grammar.TextBehind
import InfluxQL.Proofs.Grammar.MeasurementReading
import InfluxQL.Proofs.Grammar.Signs
import InfluxQL.Proofs.Syntax.Transform
import InfluxQL.Proofs.Grammar.FieldCheck
import InfluxQL.Proofs.Grammar.IntegerLiteral
import InfluxQL.Proofs.Token.QuotedBody
import InfluxQL.Proofs.Token.SlashedBody
import InfluxQL.Proofs.Token.Pushback
import InfluxQL.Proofs.Json.Decoding
import InfluxQL.Proofs.Json.Text
import InfluxQL.Proofs.Grammar.LetterCase
import InfluxQL.Proofs.Grammar.Respacing
