import Worksheet.Aggregate
import Worksheet.Binary64
import Worksheet.Binary64.Arithmetic
import Worksheet.Binary64.Decimal
import Worksheet.Binary64.Literal
import Worksheet.Binary64.Rounding
import Worksheet.Binary64.Text
import Worksheet.CellError
import Worksheet.ColumnLabel
import Worksheet.Content
import Worksheet.Coord
import Worksheet.Coord.Ordered
import Worksheet.Coord.Reference
import Worksheet.Direction
import Worksheet.Entry
import Worksheet.Evaluation
import Worksheet.Formula
import Worksheet.Formula.Reader
import Worksheet.Grid
import Worksheet.Grid.Description
import Worksheet.Json
import Worksheet.Json.Reader
import Worksheet.Proofs.Binary64.Arithmetic
import Worksheet.Proofs.Binary64.Decimal
import Worksheet.Proofs.Binary64.Extended
import Worksheet.Proofs.Binary64.Literal
import Worksheet.Proofs.Binary64.Nearest
import Worksheet.Proofs.Binary64.Shortest
import Worksheet.Proofs.Binary64.Text
import Worksheet.Proofs.ColumnLabel
import Worksheet.Proofs.ColumnLabel.Bijection
import Worksheet.Proofs.ColumnLabel.Order
import Worksheet.Proofs.Coord.Reference
import Worksheet.Proofs.Entry
import Worksheet.Proofs.Entry.Meaning
import Worksheet.Proofs.Evaluation
import Worksheet.Proofs.Evaluation.Extreme
import Worksheet.Proofs.Evaluation.Outcome
import Worksheet.Proofs.Formula.Call
import Worksheet.Proofs.Formula.Reader
import Worksheet.Proofs.Region.Order
import Worksheet.Proofs.Region.Reference
import Worksheet.Proofs.Region.Shift
import Worksheet.Proofs.Region.Visit
import Worksheet.Proofs.Region.Walk
import Worksheet.Proofs.Session.Extent
import Worksheet.Proofs.Session.Key
import Worksheet.Proofs.Session.Selection
import Worksheet.Proofs.Sheet.Clear
import Worksheet.Proofs.Sheet.LookUp
import Worksheet.Proofs.Sheet.Paste
import Worksheet.Proofs.Sheet.Scan
import Worksheet.Proofs.Sheet.Series
import Worksheet.Proofs.Text.Blank
import Worksheet.Proofs.Text.Reader
import Worksheet.Proofs.Workbook.Chart
import Worksheet.Proofs.Workbook.Clipboard
import Worksheet.Proofs.Workbook.Content
import Worksheet.Proofs.Workbook.Editing
import Worksheet.Proofs.Workbook.OnGrid
import Worksheet.Proofs.Workbook.Paste
import Worksheet.Proofs.Workbook.Redraw
import Worksheet.Proofs.Workbook.Refusal
import Worksheet.Proofs.Workbook.Reopen
import Worksheet.Proofs.Workbook.Run
import Worksheet.Proofs.Workbook.View
import Worksheet.Region
import Worksheet.Region.Cells
import Worksheet.Region.Reference
import Worksheet.Session
import Worksheet.Session.Key
import Worksheet.Session.Selection
import Worksheet.Sheet
import Worksheet.Sheet.Paste
import Worksheet.Sheet.Series
import Worksheet.Text.Blank
import Worksheet.Text.Reader
import Worksheet.Value
import Worksheet.Workbook
import Worksheet.Workbook.Command
import Worksheet.Workbook.View
