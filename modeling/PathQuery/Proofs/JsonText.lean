import PathQuery.Document.Library
import PathQuery.Proofs.QuotedTexts
/-!
# The grammar of JSON text

The standard grammar of JSON text, with the values that texts say as they are written: numbers are
numerals, and members stand in the order of the text. It is stated by levels, so that a text comes
with a bound on how deep its containers are nested. A library for JSON values is of the standard
kind if it reads every text of the grammar up to a depth of 127, gives the last one of members with
one key, and tells integers from other numbers. Of texts beside the grammar nothing is asked.
-/
namespace PathQuery

namespace JsonText

/-! ## Parts of a text -/

/-- The characters that may stand around values: space, tab, line feed and carriage return. -/
def Blank (text : List Char) : Prop := ∀ c ∈ text, c = ' ' ∨ c = '\t' ∨ c = '\n' ∨ c = '\r'

/-- There need be none. -/
theorem blank_nil : Blank [] := List.forall_mem_nil _

/-- The letters of escapes, and what they stand for. -/
def escapes : List (Char × Char) :=
  [('"', '"'), ('\\', '\\'), ('/', '/'), ('b', '\x08'), ('f', '\x0c'), ('n', '\n'), ('r', '\r'),
    ('t', '\t')]

/-- An item between quotes, and the character that it stands for. -/
inductive Item : List Char → Char → Prop where
  /-- A character that is neither quote nor backslash nor one of the first thirty-two. -/
  | plain {c : Char} (noQuote : c ≠ '"') (noBackslash : c ≠ '\\') (printable : 0x20 ≤ c.toNat) :
    Item [c] c
  /-- An escape of one letter. -/
  | short {e c : Char} (escape : (e, c) ∈ escapes) : Item ['\\', e] c
  /-- A code unit that is no surrogate. -/
  | unit {a b c d : Char} {n : Nat} (digits : Text.hexValue? [a, b, c, d] = some n)
    (noSurrogate : n < 0xd800 ∨ 0xdfff < n) : Item ['\\', 'u', a, b, c, d] (Char.ofNat n)
  /-- A pair of surrogates, which share the bits of a code point. -/
  | pair {a b c d a' b' c' d' : Char} {high low : Nat}
    (first : Text.hexValue? [a, b, c, d] = some (0xd800 + high)) (highBits : high < 0x400)
    (second : Text.hexValue? [a', b', c', d'] = some (0xdc00 + low)) (lowBits : low < 0x400) :
    Item ['\\', 'u', a, b, c, d, '\\', 'u', a', b', c', d']
      (Char.ofNat (0x10000 + high * 0x400 + low))

/-- A text between quotes, and what it stands for. -/
inductive Quoted : List Char → String → Prop where
  /-- A row of items between quotes. -/
  | row {body content : List Char} (items : Token.Row Item body content) :
    Quoted ('"' :: (body ++ ['"'])) (String.ofList content)

/-- Decimal digits, of which there is one at least. -/
structure Digits (digits : List Char) : Prop where
  /-- There is a digit. -/
  nonempty : digits ≠ []
  /-- There is nothing else. -/
  inside : ∀ c ∈ digits, c.isDigit = true

/-- The fraction of a number, and its digits. -/
inductive Fraction : List Char → List Char → Prop where
  /-- There is no fraction. -/
  | none : Fraction [] []
  /-- A point and digits. -/
  | some {digits : List Char} (run : Digits digits) : Fraction ('.' :: digits) digits

/-- The sign of an exponent, and whether it is a minus sign. -/
inductive Sign : List Char → Bool → Prop where
  /-- There is no sign. -/
  | none : Sign [] false
  /-- A plus sign. -/
  | plus : Sign ['+'] false
  /-- A minus sign. -/
  | minus : Sign ['-'] true

/-- The exponent of a number, and its value if there is one. -/
inductive Exponent : List Char → Option Int → Prop where
  /-- There is no exponent. -/
  | none : Exponent [] none
  /-- An exponent mark, perhaps a sign, and digits. -/
  | some {mark : Char} {sign digits : List Char} {negative : Bool}
    (isMark : mark = 'e' ∨ mark = 'E') (signed : Sign sign negative) (run : Digits digits) :
    Exponent (mark :: (sign ++ digits))
      (some (if negative then -(Decimal.digitsValue digits : Int) else Decimal.digitsValue digits))

/-- A number, and the numeral that it is. -/
inductive Number : List Char → Numeral → Prop where
  /-- Perhaps a minus sign, whole digits without zeros in front, and perhaps a fraction and an
  exponent. -/
  | parts {negative : Bool} {whole fraction behind power : List Char} {exponent : Option Int}
    (run : Digits whole) (leading : whole = ['0'] ∨ whole.head? ≠ some '0')
    (fractional : Fraction behind fraction) (exponential : Exponent power exponent) :
    Number ((if negative then ['-'] else []) ++ (whole ++ (behind ++ power)))
      ⟨negative, whole, fraction, exponent⟩

/-! ## Values -/

/-- A value without parts. -/
inductive Scalar : List Char → JsonValue Numeral → Prop where
  /-- The null value. -/
  | null : Scalar ['n', 'u', 'l', 'l'] .null
  /-- Truth. -/
  | true : Scalar ['t', 'r', 'u', 'e'] (.boolean true)
  /-- Falsehood. -/
  | false : Scalar ['f', 'a', 'l', 's', 'e'] (.boolean false)
  /-- A number. -/
  | number {text : List Char} {n : Numeral} (number : Number text n) : Scalar text (.number n)
  /-- A text between quotes. -/
  | string {text : List Char} {content : String} (quoted : Quoted text content) :
    Scalar text (.string content)

section

variable {α : Type}

/-- A part with blanks around it. -/
inductive Spaced (Part : List Char → α → Prop) : List Char → α → Prop where
  /-- Blanks, the part, and blanks. -/
  | around {before text after : List Char} {a : α} (front : Blank before) (part : Part text a)
    (back : Blank after) : Spaced Part (before ++ (text ++ after)) a

/-- Parts with a comma between each two. -/
inductive Separated (Part : List Char → α → Prop) : List Char → List α → Prop where
  /-- One part. -/
  | single {text : List Char} {a : α} (only : Part text a) : Separated Part text [a]
  /-- A part in front of others. -/
  | more {text rest : List Char} {a : α} {others : List α} (first : Part text a)
    (later : Separated Part rest others) : Separated Part (text ++ ',' :: rest) (a :: others)

end

/-- A member of an object: a key, a colon and a value. -/
inductive Member (Value : List Char → JsonValue Numeral → Prop) :
    List Char → String × JsonValue Numeral → Prop where
  /-- A key and a value, each with blanks around it. -/
  | keyed {key text : List Char} {name : String} {value : JsonValue Numeral}
    (named : Spaced Quoted key name) (valued : Spaced Value text value) :
    Member Value (key ++ ':' :: text) (name, value)

/-- A value whose parts are the given values. -/
inductive Container (Value : List Char → JsonValue Numeral → Prop) :
    List Char → JsonValue Numeral → Prop where
  /-- A value without parts. -/
  | scalar {text : List Char} {value : JsonValue Numeral} (scalar : Scalar text value) :
    Container Value text value
  /-- An array without elements. -/
  | emptyArray {blanks : List Char} (blank : Blank blanks) :
    Container Value ('[' :: (blanks ++ [']'])) (.array [])
  /-- An array. -/
  | array {text : List Char} {elements : List (JsonValue Numeral)}
    (parts : Separated (Spaced Value) text elements) :
    Container Value ('[' :: (text ++ [']'])) (.array elements)
  /-- An object without members. -/
  | emptyObject {blanks : List Char} (blank : Blank blanks) :
    Container Value ('\x7b' :: (blanks ++ ['\x7d'])) (.object [])
  /-- An object. -/
  | object {text : List Char} {members : List (String × JsonValue Numeral)}
    (parts : Separated (Member Value) text members) :
    Container Value ('\x7b' :: (text ++ ['\x7d'])) (.object members)

/-- The values in which containers are nested up to a depth. -/
def Value : Nat → List Char → JsonValue Numeral → Prop
  | 0 => Scalar
  | depth + 1 => Container (Value depth)

/-- A text that says a value, in which containers are nested up to a depth. -/
def Says (depth : Nat) (text : String) (value : JsonValue Numeral) : Prop :=
  Spaced (Value depth) text.toList value

/-- A value without parts has any depth. -/
theorem value_of_scalar {text : List Char} {value : JsonValue Numeral} (scalar : Scalar text value)
    (depth : Nat) : Value depth text value := by
  cases depth with
  | zero => exact scalar
  | succ depth => exact .scalar scalar

/-- A value is a text of its own. -/
theorem says_of_value {depth : Nat} {text : List Char} {value : JsonValue Numeral}
    (said : Value depth text value) : Says depth (String.ofList text) value := by
  have alone := Spaced.around blank_nil said blank_nil
  rw [List.nil_append, List.append_nil] at alone
  rwa [Says, String.toList_ofList]

end JsonText

/-! ## What a library promises -/

/-- The promises of a library that reads standard JSON text. -/
structure JsonLibrary.Standard {N : Type} (library : JsonLibrary N) : Prop where
  /-- A text with up to 127 containers nested is read as the value that it says, with the last one
  of members with one key, if each of its numerals has a number. -/
  read {text : String} {value : JsonValue Numeral} (said : JsonText.Says 127 text value) :
    library.read text = value.resolve? library.number?
  /-- A numeral that is written as an integer of 64 bits has a number. -/
  integer {n : Numeral} {value : Int64} (written : n.integer? = some value) :
    ∃ number, library.number? n = some number
  /-- A numeral with a fraction has a number, if what stands before its point is less than ten to
  the sixteenth. -/
  fraction {n : Numeral} (pointed : JsonText.Digits n.fraction) (noExponent : n.exponent = none)
    (small : Decimal.digitsValue n.whole < 10000000000000000) :
    ∃ number, library.number? n = some number
  /-- The numbers of numerals that are written as integers of 64 bits are these integers, and those
  of all others are none. -/
  kind {n : Numeral} {number : N} (found : library.number? n = some number) :
    library.numbers.integer? number = n.integer?

end PathQuery
