import PathQuery.Document.Lexeme
/-!
# Values from text

Reads a value from JSON text, strictly: nothing but blanks may surround it. The lexemes of the text
are taken one by one, on a stack of the containers that are still open, of which there may be at
most `nestingLimit`. The value is kept as it is written: its numbers are numerals, and its members
stand in the order of the text, also those with one key.
-/
namespace PathQuery.Reader

/-- A container that is still open. -/
inductive Frame where
  /-- An array with the elements before the open one, the last of them first. -/
  | array (elements : List (JsonValue Numeral))
  /-- An object with the members before the open one, the last of them first, and the key of that
  one. -/
  | object (members : List (String × JsonValue Numeral)) (key : String)

/-- What was read last, and so what may come next. -/
inductive Expecting where
  /-- A value has to come. -/
  | value
  /-- An array was opened: a value or the end of the array has to come. -/
  | firstElement
  /-- An object was opened: a key or the end of the object has to come. -/
  | firstKey
  /-- A member was followed by a comma: a key has to come. -/
  | key (members : List (String × JsonValue Numeral))
  /-- A key was read: a colon has to come. -/
  | colon (members : List (String × JsonValue Numeral)) (key : String)
  /-- A value is complete: a comma or the end of its container has to come, or nothing. -/
  | finished (value : JsonValue Numeral)

/-- A value read in part: the open containers, the innermost first, and what may come next. -/
structure Progress where
  /-- What may come next. -/
  expecting : Expecting
  /-- The open containers around it. -/
  frames : List Frame

/-- How many containers may be open at once. -/
def nestingLimit : Nat := 127

/-- Starts a value with a lexeme, if it can start one. -/
def startValue (frames : List Frame) : Lexeme → Option Progress
  | .text content => some ⟨.finished (.string content), frames⟩
  | .scalar value => some ⟨.finished value, frames⟩
  | .openArray =>
    if frames.length < nestingLimit then some ⟨.firstElement, .array [] :: frames⟩ else none
  | .openObject => if frames.length < nestingLimit then some ⟨.firstKey, frames⟩ else none
  | _ => none

/-- Goes on behind a complete value: to the next part of its container, or out of it. -/
def endValue (value : JsonValue Numeral) : List Frame → Lexeme → Option Progress
  | .array elements :: frames, .comma => some ⟨.value, .array (value :: elements) :: frames⟩
  | .array elements :: frames, .closeArray =>
    some ⟨.finished (.array (value :: elements).reverse), frames⟩
  | .object members key :: frames, .comma => some ⟨.key ((key, value) :: members), frames⟩
  | .object members key :: frames, .closeObject =>
    some ⟨.finished (.object ((key, value) :: members).reverse), frames⟩
  | _, _ => none

/-- Takes one lexeme more, if it may come. -/
def Progress.step (progress : Progress) (lexeme : Lexeme) : Option Progress :=
  match progress.expecting, lexeme, progress.frames with
  | .value, lexeme, frames => startValue frames lexeme
  | .firstElement, .closeArray, .array _ :: frames => some ⟨.finished (.array []), frames⟩
  | .firstElement, lexeme, frames => startValue frames lexeme
  | .firstKey, .closeObject, frames => some ⟨.finished (.object []), frames⟩
  | .firstKey, .text key, frames => some ⟨.colon [] key, frames⟩
  | .key members, .text key, frames => some ⟨.colon members key, frames⟩
  | .colon members key, .colon, frames => some ⟨.value, .object members key :: frames⟩
  | .finished value, lexeme, frames => endValue value frames lexeme
  | _, _, _ => none

/-- The value that was read, if it is complete. -/
def Progress.value? : Progress → Option (JsonValue Numeral)
  | ⟨.finished value, []⟩ => some value
  | _ => none

/-- The value that a text holds, as it is written there, if the text is well-formed. -/
def value? (text : String) : Option (JsonValue Numeral) := do
  let found ← lexemes text.toList
  let progress ← found.foldlM Progress.step ⟨.value, []⟩
  progress.value?

end PathQuery.Reader
