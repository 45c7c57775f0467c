import PathQuery.Text.Hex
/-!
# Quoted texts in a path

A quoted text runs to the next quote of its own kind. A backslash starts an escape: a letter for a
line feed, tab or carriage return, a quote of either kind, a backslash, or `u` with a code point in
four characters. Those are four hexadecimal digits, or a plus sign and three; surrogates are
refused, in pairs too.
-/
namespace PathQuery.Token

/-- What stands behind an opening quote. Widths count the characters from there on. -/
inductive QuotedScan where
  /-- A text that is closed, and the width up to its closing quote, that included. -/
  | closed (content : List Char) (width : Nat)
  /-- An escape of a character that has none, and the width before that character. -/
  | invalidEscape (c : Char) (width : Nat)
  /-- A code point that is not one of a character, and the width before its letter. -/
  | invalidCodePoint (width : Nat)
  /-- A text that is never closed, and its width. -/
  | unclosed (width : Nat)
deriving DecidableEq, Repr

/-- The scan of a text with one character more in front, which was written with `n` characters. -/
def QuotedScan.after (c : Char) (n : Nat) : QuotedScan → QuotedScan
  | .closed content width => .closed (c :: content) (width + n)
  | .invalidEscape e width => .invalidEscape e (width + n)
  | .invalidCodePoint width => .invalidCodePoint (width + n)
  | .unclosed width => .unclosed (width + n)

/-- The character of an escape of one letter. -/
def shortEscape? (c : Char) : Option Char :=
  if c = 'n' then some '\n'
  else if c = 't' then some '\t'
  else if c = 'r' then some '\r'
  else if c = '"' ∨ c = '\'' ∨ c = '\\' then some c
  else none

/-- The character that the digits of an escaped code point name. A plus sign may stand in front of
the digits. -/
def codePoint? : List Char → Option Char
  | '+' :: digits => (Text.hexValue? digits).bind Text.scalar?
  | digits => (Text.hexValue? digits).bind Text.scalar?

/-- Scans what stands behind an opening quote. -/
def scanQuoted (quote : Char) : List Char → QuotedScan
  | [] => .unclosed 0
  | c :: rest =>
    if c = quote then .closed [] 1
    else if c = '\\' then
      match rest with
      | [] => .unclosed 1
      | e :: rest =>
        if e = 'u' then
          match rest with
          | a :: b :: c :: d :: rest =>
            match codePoint? [a, b, c, d] with
            | some character => (scanQuoted quote rest).after character 6
            | none => .invalidCodePoint 1
          | _ => .invalidCodePoint 1
        else
          match shortEscape? e with
          | some character => (scanQuoted quote rest).after character 2
          | none => .invalidEscape e 1
    else (scanQuoted quote rest).after c 1

end PathQuery.Token
