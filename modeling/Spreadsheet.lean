import Spreadsheet.Calendar.Date
import Spreadsheet.Calendar.Moment
import Spreadsheet.Calendar.Reading
import Spreadsheet.CommandLine.Directory
import Spreadsheet.CommandLine.Invocation
import Spreadsheet.CommandLine.Report
import Spreadsheet.CommandLine.Run
import Spreadsheet.CommandLine.Switch
import Spreadsheet.Csv.Dialect
import Spreadsheet.Csv.Error
import Spreadsheet.Csv.Record
import Spreadsheet.Csv.Sheet
import Spreadsheet.Csv.Writing
import Spreadsheet.Evaluation.Evaluator
import Spreadsheet.Evaluation.Expression
import Spreadsheet.Evaluation.Reference
import Spreadsheet.Evaluation.Session
import Spreadsheet.Formula.Error
import Spreadsheet.Formula.Expr
import Spreadsheet.Formula.Operation
import Spreadsheet.Formula.Operator
import Spreadsheet.Formula.Options
import Spreadsheet.Formula.Reading
import Spreadsheet.Formula.Token
import Spreadsheet.Function.Aggregate
import Spreadsheet.Function.Basic
import Spreadsheet.Function.Catalogue
import Spreadsheet.Function.Dates
import Spreadsheet.Function.Logic
import Spreadsheet.Function.Numeric
import Spreadsheet.Function.Wording
import Spreadsheet.Grid.Column
import Spreadsheet.Grid.Coord
import Spreadsheet.Grid.Error
import Spreadsheet.Grid.Range
import Spreadsheet.Grid.Walk
import Spreadsheet.Main
import Spreadsheet.Number.Binary64
import Spreadsheet.Number.Decimal
import Spreadsheet.Number.Display
import Spreadsheet.Number.Fixed
import Spreadsheet.Number.Numeral
import Spreadsheet.Number.Shortest
import Spreadsheet.Number.Word
import Spreadsheet.Proofs.Evaluation.Naive
import Spreadsheet.Proofs.Evaluation.Reads
import Spreadsheet.Proofs.Formula.Descent
import Spreadsheet.Proofs.Formula.Nesting
import Spreadsheet.Sheet.Basic
import Spreadsheet.Sheet.Calculation
import Spreadsheet.Sheet.Formulas
import Spreadsheet.Text.Blank
import Spreadsheet.Text.Case
import Spreadsheet.Text.CaseTable
import Spreadsheet.Text.Digits
import Spreadsheet.Text.Search
import Spreadsheet.Text.Utf8
import Spreadsheet.Value
import Spreadsheet.Proofs.Evaluation.Waiting
import Spreadsheet.Proofs.Evaluation.Agreement
import Spreadsheet.Proofs.Evaluation.Circle
import Spreadsheet.Proofs.Evaluation.Lockstep
import Spreadsheet.Proofs.Sheet.Formulas
import Spreadsheet.Proofs.Grid.Range
import Spreadsheet.Proofs.Sheet.Used
import Spreadsheet.Proofs.Sheet.Consistency
import Spreadsheet.Proofs.Formula.Printing
import Spreadsheet.Proofs.Formula.Reader
import Spreadsheet.Proofs.Formula.RoundTrip
import Spreadsheet.Proofs.Formula.Chains
import Spreadsheet.Proofs.Formula.Trees
import Spreadsheet.Proofs.Formula.Binding
import Spreadsheet.Proofs.Sheet.Recalculation
import Spreadsheet.Proofs.Sheet.Edits
import Spreadsheet.Proofs.Formula.Regrouping
import Spreadsheet.Proofs.Text.Digits
import Spreadsheet.Proofs.Text.Utf8
import Spreadsheet.Proofs.Csv.Table
import Spreadsheet.Proofs.Number.Binary64
import Spreadsheet.Proofs.Number.Display
import Spreadsheet.Proofs.Number.Finite
import Spreadsheet.Proofs.Calendar.Small
import Spreadsheet.Proofs.Function.Displayable
import Spreadsheet.Proofs.Csv.Layout
import Spreadsheet.Proofs.Csv.RoundTrip
import Spreadsheet.Proofs.Evaluation.Failures
import Spreadsheet.Proofs.Formula.Lexemes
import Spreadsheet.Proofs.Formula.Words
import Spreadsheet.Proofs.Evaluation.Sums
import Spreadsheet.Proofs.Evaluation.Constructs
import Spreadsheet.Proofs.Evaluation.Draws
import Spreadsheet.Proofs.Evaluation.Running
import Spreadsheet.Proofs.Evaluation.Frames
import Spreadsheet.Proofs.Evaluation.Rounds
import Spreadsheet.Proofs.Evaluation.Entries
import Spreadsheet.Proofs.Evaluation.Traversal
import Spreadsheet.Proofs.Evaluation.Lookups
import Spreadsheet.Proofs.Sheet.Commit
import Spreadsheet.Proofs.Csv.Texts
import Spreadsheet.Proofs.Evaluation.Levels
import Spreadsheet.Proofs.Evaluation.Budgets
import Spreadsheet.Proofs.Formula.Reach
import Spreadsheet.Proofs.Evaluation.Metered
import Spreadsheet.Proofs.Evaluation.Demands
import Spreadsheet.Proofs.Formula.Inherited
import Spreadsheet.Proofs.Evaluation.Displayable
import Spreadsheet.Proofs.Sheet.Displayable
import Spreadsheet.Proofs.Number.Order
import Spreadsheet.Proofs.Formula.Comparison
import Spreadsheet.Proofs.Formula.Signs
import Spreadsheet.Proofs.Evaluation.Negation
import Spreadsheet.Proofs.Number.Numeral
import Spreadsheet.Proofs.Evaluation.Literals
import Spreadsheet.Proofs.Formula.LeftToRight
import Spreadsheet.Proofs.Evaluation.LeftToRight
import Spreadsheet.Proofs.Formula.Openings
import Spreadsheet.Proofs.Formula.Joining
import Spreadsheet.Proofs.Grid.Walk
import Spreadsheet.Proofs.Grid.Columns
import Spreadsheet.Proofs.Grid.Canonical
import Spreadsheet.Proofs.Formula.References
import Spreadsheet.Proofs.Formula.WrittenOut
import Spreadsheet.Proofs.Formula.ListedArguments
import Spreadsheet.Proofs.Evaluation.RangeArguments
import Spreadsheet.Proofs.Number.Rounding
import Spreadsheet.Proofs.Number.Shortest
import Spreadsheet.Proofs.Number.ReadBack
import Spreadsheet.Proofs.Calendar.Days
import Spreadsheet.Proofs.Calendar.Moments
import Spreadsheet.Proofs.Calendar.Patterns
import Spreadsheet.Proofs.Calendar.Internet
import Spreadsheet.Proofs.Function.Dates
import Spreadsheet.Proofs.Number.Nearest
import Spreadsheet.Proofs.Number.Unpacked
import Spreadsheet.Proofs.Number.Hardware
import Spreadsheet.Proofs.Number.Arithmetic
import Spreadsheet.Proofs.Number.Fixed
import Spreadsheet.Proofs.Function.Grouping
import Spreadsheet.Proofs.Function.Formatted
import Spreadsheet.Proofs.Number.Grid
import Spreadsheet.Proofs.Number.Decimal
import Spreadsheet.Proofs.Number.Conversion
import Spreadsheet.Proofs.Function.Median
import Spreadsheet.Proofs.Function.Rounding
