import Worksheet.Binary64.Text
import Worksheet.Formula
import Worksheet.Region.Reference

/-!
# Cell content

What a cell can hold. A cell that holds nothing is not on the sheet at all, so there is no content
for it; a cell with the empty text holds something.

## Main definitions

* `Content` — a number, a text, a formula or a chart
* `Content.number?` — the number, if it is one
* `Content.editText` — the text that an editor shows for it
-/

namespace Worksheet

/-- The content of a cell. -/
inductive Content where
  | number (value : Binary64)
  | text (value : String)
  | formula (value : Formula)
  /-- A line chart of the numbers in a region. -/
  | chart (region : Region)
deriving DecidableEq

namespace Content

/-- The content's number. A formula is no number, whatever it may evaluate to. -/
def number? : Content → Option Binary64
  | number x => some x
  | text _ | formula _ | chart _ => none

/-- The content's formula. -/
def formula? : Content → Option Formula
  | formula f => some f
  | number _ | text _ | chart _ => none

/-- The region of a chart. -/
def chart? : Content → Option Region
  | chart r => some r
  | number _ | text _ | formula _ => none

/-- The text that an editor shows when the content is opened in it. -/
def editText : Content → String
  | number x => x.text
  | text s => s
  | formula f => f.source
  | chart r => r.reference

end Content

end Worksheet
