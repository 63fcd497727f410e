import Synopsis.Arity
import Synopsis.Calendar.Date
import Synopsis.Calendar.Field
import Synopsis.Calendar.Time
import Synopsis.Caret
import Synopsis.CommandLine
import Synopsis.Declaration
import Synopsis.Extract
import Synopsis.Flags
import Synopsis.Interface
import Synopsis.Main
import Synopsis.Match
import Synopsis.Match.Chunk
import Synopsis.Match.Error
import Synopsis.Match.Positional
import Synopsis.Match.Resolution
import Synopsis.Matches
import Synopsis.NameMap
import Synopsis.Numeric.Binary
import Synopsis.Numeric.Decimal
import Synopsis.Numeric.Integer
import Synopsis.Numeric.Power
import Synopsis.Numeric.Shortest
import Synopsis.OptionSpec
import Synopsis.Program
import Synopsis.Record.Code
import Synopsis.Record.Item
import Synopsis.Record.Layout
import Synopsis.Record.Plan
import Synopsis.Record.Render
import Synopsis.Record.Snippet
import Synopsis.Record.Snippet.Expression
import Synopsis.Record.Snippet.Lexeme
import Synopsis.Record.Snippet.Path
import Synopsis.Sample.Programs
import Synopsis.Sample.Records
import Synopsis.Scalar
import Synopsis.Text.Blank
import Synopsis.Text.Lines
import Synopsis.Text.Printable
import Synopsis.Text.Quoted
import Synopsis.Text.Search
import Synopsis.Usage
import Synopsis.Usage.Error
import Synopsis.UsageLine.Element
import Synopsis.UsageLine.Token
import Synopsis.Value
import Synopsis.Proofs.Outcomes
import Synopsis.Proofs.LatestDeclaration
import Synopsis.Proofs.PositionalBinding
import Synopsis.Proofs.Occurrences
import Synopsis.Proofs.Safety
import Synopsis.Proofs.Grammar
import Synopsis.Proofs.Meaning
import Synopsis.Proofs.Shorthand
import Synopsis.Proofs.Priority
import Synopsis.Proofs.Provenance
import Synopsis.Proofs.Scanning
import Synopsis.Proofs.UsageLine
import Synopsis.Proofs.Declarations
import Synopsis.Proofs.OptionLine
import Synopsis.Proofs.HelpText
import Synopsis.Proofs.SharedNames
import Synopsis.Proofs.Defaults
import Synopsis.Proofs.ItemOrder
import Synopsis.Proofs.Prose
import Synopsis.Proofs.LineOrder
import Synopsis.Proofs.Recorders
import Synopsis.Proofs.ConsoleRun
import Synopsis.Proofs.FieldSettings
import Synopsis.Proofs.RecordPlans
import Synopsis.Proofs.RecordReading
import Synopsis.Proofs.PositionalSlots
import Synopsis.Proofs.ValueCount
import Synopsis.Proofs.DeclaredFlags
import Synopsis.Proofs.FlagForms
import Synopsis.Proofs.FilledNames
import Synopsis.Proofs.CalendarText
import Synopsis.Proofs.ShownValues
import Synopsis.Proofs.TypedDefaults
import Synopsis.Proofs.TypedNumbers
import Synopsis.Proofs.CaretPlace
import Synopsis.Proofs.UsageTokens
import Synopsis.Proofs.DeclarationShape
import Synopsis.Proofs.Conservation
import Synopsis.Proofs.FormOrder
