import PathQuery.Text.Hex
/-!
# Quoted texts

A text is written between double quotes. Quotes and backslashes are escaped, line feeds, carriage
returns and tabs have short escapes, and every other control character is written by its code
point, so that a quoted text stays on one line and holds printable characters only.
-/
namespace PathQuery.Quoted

/-- Whether a character is a control character: one of the thirty-two below space, delete, or one
of the thirty-two behind delete. -/
def isControl (c : Char) : Bool := c.toNat < 0x20 || (0x7f ≤ c.toNat && c.toNat ≤ 0x9f)

/-- A character as it stands between quotes. -/
def writeChar (c : Char) : List Char :=
  if c = '"' then ['\\', '"']
  else if c = '\\' then ['\\', '\\']
  else if c = '\n' then ['\\', 'n']
  else if c = '\r' then ['\\', 'r']
  else if c = '\t' then ['\\', 't']
  else if isControl c then '\\' :: 'u' :: Text.hexWord c.toNat
  else [c]

/-- A text between quotes. -/
def write (text : List Char) : List Char := '"' :: (text.flatMap writeChar ++ ['"'])

/-! ## How a character is written -/

/-- The letter of a short escape, and the character that it is written for. -/
inductive Letter : Char → Char → Prop where
  /-- A quote. -/
  | quote : Letter '"' '"'
  /-- A backslash. -/
  | backslash : Letter '\\' '\\'
  /-- A line feed. -/
  | lineFeed : Letter 'n' '\n'
  /-- A carriage return. -/
  | carriageReturn : Letter 'r' '\r'
  /-- A tab. -/
  | tab : Letter 't' '\t'

/-- The ways in which a character is written. -/
inductive Written (c : Char) : List Char → Prop where
  /-- It has a short escape. -/
  | short {e : Char} (letter : Letter e c) : Written c ['\\', e]
  /-- It is another control character. -/
  | code (control : isControl c = true) : Written c ('\\' :: 'u' :: Text.hexWord c.toNat)
  /-- It stands for itself. -/
  | plain (noQuote : c ≠ '"') (noBackslash : c ≠ '\\') (printable : isControl c = false) :
    Written c [c]

/-- Every character is written in one of these ways. -/
theorem written_writeChar (c : Char) : Written c (writeChar c) := by
  unfold writeChar
  split
  · next same => exact .short (same ▸ .quote)
  · next noQuote =>
    split
    · next same => exact .short (same ▸ .backslash)
    · next noBackslash =>
      split
      · next same => exact .short (same ▸ .lineFeed)
      · split
        · next same => exact .short (same ▸ .carriageReturn)
        · split
          · next same => exact .short (same ▸ .tab)
          · split
            · next control => exact .code control
            · next printable => exact .plain noQuote noBackslash (Bool.eq_false_iff.2 printable)

/-- Control characters stand before the surrogates. -/
theorem toNat_lt_of_isControl {c : Char} (control : isControl c = true) : c.toNat < 0xd800 := by
  simp only [isControl, Bool.or_eq_true, Bool.and_eq_true, decide_eq_true_eq] at control
  omega

end PathQuery.Quoted
