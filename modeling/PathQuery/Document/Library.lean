import PathQuery.Document.Reader
import PathQuery.Decimal.Binary
import PathQuery.Decimal.Nearest
/-!
# Documents from text

A document is read from JSON text by way of a JSON value, which is in the hands of a library: it
knows the numbers of numerals and reads values from texts. What else is to be known of a library is
left to its promises: libraries need not agree on which floating-point number a decimal is. The
commands run with one that reads every decimal as the nearest floating-point number.
-/
namespace PathQuery

/-- The integer of 64 bits that a numeral in a document is written as, if it is written as one: it
has neither fraction nor exponent, and is not minus zero. -/
def Numeral.integer? (n : Numeral) : Option Int64 :=
  if n.fraction = [] ∧ n.exponent = none ∧ ¬(n.negative ∧ n.wholeValue = 0) then
    int64? n.wholeValue
  else none

namespace JsonValue

variable {M N : Type} (number? : M → Option N)

mutual

/-- The value with other numbers in place of its own, if there is one for each. Of members with one
key the last one counts. -/
def resolve? : JsonValue M → Option (JsonValue N)
  | .null => some .null
  | .boolean b => some (.boolean b)
  | .number value => (number? value).map .number
  | .string text => some (.string text)
  | .array elements => (resolveElements? elements).map .array
  | .object members => (resolveMembers? members).map fun found => .object (Members.ofEntries found)

/-- The elements with other numbers. -/
def resolveElements? : List (JsonValue M) → Option (List (JsonValue N))
  | [] => some []
  | element :: rest =>
    (resolve? element).bind fun value => (resolveElements? rest).map (value :: ·)

/-- The members with other numbers, as they stand. -/
def resolveMembers? : List (String × JsonValue M) → Option (List (String × JsonValue N))
  | [] => some []
  | (key, value) :: rest =>
    (resolve? value).bind fun value => (resolveMembers? rest).map ((key, value) :: ·)

end

end JsonValue

/-- A library for JSON values with numbers of some type. -/
structure JsonLibrary (N : Type) where
  /-- The conversions of its numbers. -/
  numbers : JsonNumbers N
  /-- The number of a numeral, unless that is out of range. -/
  number? : Numeral → Option N
  /-- The value that a text holds, if the text is well-formed. -/
  read : String → Option (JsonValue N)

/-- The document that a text holds, by way of a value of the library. -/
def JsonLibrary.document? {N : Type} (library : JsonLibrary N) (text : String) : Option Node :=
  (library.read text).map (JsonValue.toNode library.numbers)

/-- Numbers that keep integers of 64 bits and finite floating-point numbers apart. -/
def JsonNumbers.apart : JsonNumbers (Int64 ⊕ Float) where
  ofInteger := .inl
  ofFloat? x := if (Binary.ofFloat x).isFinite then some (.inr x) else none
  integer? := Sum.getLeft?
  float?
    | .inl n => some n.toFloat
    | .inr x => some x

namespace JsonLibrary

/-- The integer that a numeral is written as, or else the floating-point number nearest to it,
unless that is infinite. -/
def nearestNumber? (n : Numeral) : Option (Int64 ⊕ Float) :=
  match n.integer? with
  | some value => some (.inl value)
  | none =>
    let x := n.decimal.nearest
    if (Binary.ofFloat x).isFinite then some (.inr x) else none

/-- A library that reads every decimal as the nearest floating-point number. -/
def nearest : JsonLibrary (Int64 ⊕ Float) where
  numbers := .apart
  number? := nearestNumber?
  read text := (Reader.value? text).bind (JsonValue.resolve? nearestNumber?)

end JsonLibrary

/-- The document that a text holds, as the commands read it. -/
def Node.ofText? (text : String) : Option Node := JsonLibrary.nearest.document? text

end PathQuery
