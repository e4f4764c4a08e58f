/-!
# Readers

A reader takes something from the beginning of a text and leaves the rest, or it fails. Larger
readers are put together from smaller ones that read one after another.

Readers are greedy. A run takes all the characters that it can, and gives none of them back when a
later reader fails. There are two choices: `Reader.optional` takes nothing where its reader fails,
and `Reader.either` lets a second reader begin where the first one began. What a reader had taken
before it failed is given back in both.

## Main definitions

* `Reader` — what is read, and the rest of the text
* `Reader.char`, `Reader.oneOf` — a character
* `Reader.run`, `Reader.run1` — the longest run of characters of a class
* `Reader.pair`, `Reader.preceded`, `Reader.between` — one reader after another
* `Reader.optional`, `Reader.either` — a reader that may fail
* `Reader.taken` — the characters that a reader takes
* `Reader.whole?` — read a text to its end
-/

namespace Worksheet

/-- What is read at the beginning of a text, and the rest of the text. -/
abbrev Reader (α : Type) := List Char → Option (α × List Char)

namespace Reader

variable {α β γ : Type}

/-- The character `c`. -/
def char (c : Char) : Reader Char
  | [] => none
  | d :: rest => if d = c then some (d, rest) else none

/-- One of the given characters. -/
def oneOf (chars : List Char) : Reader Char
  | [] => none
  | d :: rest => if d ∈ chars then some (d, rest) else none

/-- The longest run of characters of a class, which may be empty. -/
def run (p : Char → Bool) : Reader (List Char) := fun text =>
  some (text.takeWhile p, text.dropWhile p)

/-- The longest run of characters of a class, which must not be empty. -/
def run1 (p : Char → Bool) : Reader (List Char) := fun text =>
  if text.takeWhile p = [] then none else run p text

/-- What is read, changed by a function. -/
def map (f : α → β) (reader : Reader α) : Reader β := fun text =>
  (reader text).map fun (a, rest) => (f a, rest)

/-- What two readers read one after the other. -/
def pair (first : Reader α) (second : Reader β) : Reader (α × β) := fun text => do
  let (a, afterFirst) ← first text
  let (b, rest) ← second afterFirst
  return ((a, b), rest)

/-- What a reader reads behind something else. -/
def preceded (before : Reader α) (reader : Reader β) : Reader β := (before.pair reader).map Prod.snd

/-- What a reader reads between two things. -/
def between (before : Reader α) (reader : Reader β) (after : Reader γ) : Reader β :=
  (before.preceded (reader.pair after)).map Prod.fst

/-- What a reader reads; where it fails, nothing, and the text is left as it is. -/
def optional (reader : Reader α) : Reader (Option α) := fun text =>
  match reader text with
  | some (a, rest) => some (some a, rest)
  | none => some (none, text)

/-- What a reader reads; where it fails, what another one reads. -/
def either (first second : Reader α) : Reader α := fun text =>
  match first text with
  | some read => some read
  | none => second text

/-- The characters that a reader takes. -/
def taken (reader : Reader α) : Reader (List Char) := fun text =>
  (reader text).map fun (_, rest) => (text.take (text.length - rest.length), rest)

/-- What a reader reads that reads the text to its end. -/
def whole? (reader : Reader α) (text : List Char) : Option α :=
  match reader text with
  | some (a, []) => some a
  | some (_, _ :: _) | none => none

end Reader

end Worksheet
