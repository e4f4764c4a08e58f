/-!
# JSON values

The data format in which a page describes its grid. Of a number only those written as plain digits
have a use here, so no other number keeps its value. An object keeps its members in the order in
which they are written, also when a key is repeated.

A string may hold half of a surrogate pair, written as an escape, and is then the text of no
sequence of characters. Such a string is still a value, but it has no text.

## Main definitions

* `Json` — the values
-/

namespace Worksheet

/-- A JSON value. -/
inductive Json where
  | null
  | bool (value : Bool)
  /-- A number, with its value if it is written as digits only. -/
  | number (natural? : Option Nat)
  /-- A string, with its text unless half a surrogate pair stands alone in it. -/
  | string (text? : Option String)
  | array (items : List Json)
  /-- The members with their keys; a key is a string and may be without text, too. -/
  | object (members : List (Option String × Json))

namespace Json

/-- The number of a value that is written as digits only. -/
def natural? : Json → Option Nat
  | number n => n
  | _ => none

end Json

end Worksheet
