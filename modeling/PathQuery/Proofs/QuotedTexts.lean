import PathQuery.Proofs.Spelling
import PathQuery.Proofs.Extent
/-!
# The grammar of quoted texts

Behind its opening quote a text is a row of items up to the next quote of its kind: a character
that stands for itself, an escape of one letter, or an escaped code point in four hexadecimal
digits. A lexer knows one item more, an escaped code point in a plus sign and three hexadecimal
digits. So it reads the grammar exactly where no text is closed with the help of such an item.
-/
namespace PathQuery

namespace Text

/-- A hexadecimal digit is less than sixteen. -/
theorem hexDigit?_lt {c : Char} {n : Nat} (digit : hexDigit? c = some n) : n < 16 := by
  unfold hexDigit? at digit
  split at digit
  · next decimal =>
    obtain rfl := Option.some.inj digit
    have high : c.toNat ≤ 57 := decimal.2
    omega
  · split at digit
    · next small =>
      obtain rfl := Option.some.inj digit
      have high : c.toNat ≤ 102 := small.2
      omega
    · split at digit
      · next capital =>
        obtain rfl := Option.some.inj digit
        have high : c.toNat ≤ 70 := capital.2
        omega
      · cases digit

/-- Hexadecimal digits say less than a one with as many zeros. -/
theorem hexValue?_lt {digits : List Char} {n : Nat} (value : hexValue? digits = some n) :
    n < Nat.pow 16 digits.length := by
  have general : ∀ start, digits.foldlM (fun value c => (hexDigit? c).map (16 * value + ·)) start =
      some n → n < (start + 1) * Nat.pow 16 digits.length := by
    clear value
    induction digits with
    | nil =>
      intro start value
      obtain rfl := Option.some.inj value
      exact Nat.lt_of_lt_of_eq (Nat.lt_succ_self start) (Nat.mul_one _).symm
    | cons c later ih =>
      intro start value
      rw [List.foldlM_cons, Option.bind_eq_bind, Option.bind_eq_some_iff] at value
      obtain ⟨next, said, value⟩ := value
      obtain ⟨d, digit, rfl⟩ := Option.map_eq_some_iff.1 said
      have small := hexDigit?_lt digit
      calc n < (16 * start + d + 1) * Nat.pow 16 later.length := ih _ value
        _ ≤ ((start + 1) * 16) * Nat.pow 16 later.length := Nat.mul_le_mul_right _ (by omega)
        _ = (start + 1) * (Nat.pow 16 later.length * 16) := by
          rw [Nat.mul_assoc, Nat.mul_comm 16]
  exact Nat.lt_of_lt_of_eq (general 0 value) (Nat.one_mul _)

end Text

namespace Token

/-! ## Items -/

/-- The letters of escapes, and what they stand for. -/
def escapes : List (Char × Char) :=
  [('n', '\n'), ('t', '\t'), ('r', '\r'), ('"', '"'), ('\'', '\''), ('\\', '\\')]

/-- An item of a text in the given quotes, and the character that it stands for. -/
inductive Item (quote : Char) : List Char → Char → Prop where
  /-- A character that is neither quote nor backslash. -/
  | plain {c : Char} (noQuote : c ≠ quote) (noBackslash : c ≠ '\\') : Item quote [c] c
  /-- An escape of one letter. -/
  | short {e c : Char} (escape : (e, c) ∈ escapes) : Item quote ['\\', e] c
  /-- A code point in four hexadecimal digits that is no surrogate. -/
  | code {a b c d : Char} {n : Nat} (digits : Text.hexValue? [a, b, c, d] = some n)
    (noSurrogate : n < 0xD800 ∨ 0xDFFF < n) :
    Item quote ['\\', 'u', a, b, c, d] (Char.ofNat n)

/-- A code point in a plus sign and three hexadecimal digits. -/
inductive Signed : List Char → Char → Prop where
  /-- A plus sign and three digits. -/
  | code {b c d : Char} {n : Nat} (digits : Text.hexValue? [b, c, d] = some n) :
    Signed ['\\', 'u', '+', b, c, d] (Char.ofNat n)

/-- An item, or a code point with a plus sign. -/
def ItemOrSigned (quote : Char) (written : List Char) (c : Char) : Prop :=
  Item quote written c ∨ Signed written c

/-- Items in a row, and the characters that they stand for. -/
inductive Row (Item : List Char → Char → Prop) : List Char → List Char → Prop where
  /-- No item. -/
  | nil : Row Item [] []
  /-- An item in front of others. -/
  | cons {written body text : List Char} {c : Char} (first : Item written c)
    (later : Row Item body text) : Row Item (written ++ body) (c :: text)

/-- A row of some items is one of more of them. -/
theorem Row.mono {Few Many : List Char → Char → Prop} (more : ∀ w c, Few w c → Many w c)
    {body text : List Char} (row : Row Few body text) : Row Many body text := by
  induction row with
  | nil => exact .nil
  | cons first _ later => exact .cons (more _ _ first) later

/-- The short escapes are those of the table. -/
theorem shortEscape?_iff {e c : Char} : shortEscape? e = some c ↔ (e, c) ∈ escapes := by
  unfold shortEscape? escapes
  constructor
  · intro found
    repeat' split at found
    all_goals simp_all [eq_comm]
  · intro member
    simp only [List.mem_cons, Prod.mk.injEq, List.not_mem_nil, or_false] at member
    rcases member with same | same | same | same | same | same <;>
      (obtain ⟨rfl, rfl⟩ := same; rfl)

/-- A number of at most four hexadecimal digits is the code point of a character, unless it is a
surrogate. -/
theorem scalar?_iff {n : Nat} (small : n < 65536) {c : Char} :
    Text.scalar? n = some c ↔ (n < 0xD800 ∨ 0xDFFF < n) ∧ Char.ofNat n = c := by
  have valid : n.isValidChar ↔ n < 0xD800 ∨ 0xDFFF < n := by
    unfold Nat.isValidChar
    omega
  simp only [Text.scalar?, Option.ite_none_right_eq_some, valid, Option.some.injEq]

/-- Four hexadecimal digits say a number of 16 bits. -/
theorem value_four_lt {a b c d : Char} {n : Nat} (value : Text.hexValue? [a, b, c, d] = some n) :
    n < 65536 := by
  have small : n < Nat.pow 16 4 := Text.hexValue?_lt value
  have bound : Nat.pow 16 4 = 65536 := by decide
  exact bound ▸ small

/-- Three hexadecimal digits say a number of 12 bits. -/
theorem value_three_lt {a b c : Char} {n : Nat} (value : Text.hexValue? [a, b, c] = some n) :
    n < 4096 := by
  have small : n < Nat.pow 16 3 := Text.hexValue?_lt value
  have bound : Nat.pow 16 3 = 4096 := by decide
  exact bound ▸ small

/-- Four characters name a code point when they are the digits of an item or of a signed one. -/
theorem codePoint?_iff {quote a b c d e : Char} : codePoint? [a, b, c, d] = some e ↔
    ItemOrSigned quote ['\\', 'u', a, b, c, d] e := by
  constructor
  · intro named
    unfold codePoint? at named
    split at named
    · next digits same =>
      obtain ⟨rfl, rfl⟩ := List.cons.inj same
      obtain ⟨n, value, named⟩ := Option.bind_eq_some_iff.1 named
      have small := value_three_lt value
      obtain ⟨-, rfl⟩ := (scalar?_iff (by omega)).1 named
      exact .inr (.code value)
    · obtain ⟨n, value, named⟩ := Option.bind_eq_some_iff.1 named
      obtain ⟨noSurrogate, rfl⟩ := (scalar?_iff (value_four_lt value)).1 named
      exact .inl (.code value noSurrogate)
  · rintro (item | signed)
    · cases item with
      | @code a b c d n digits noSurrogate =>
        have noPlus : a ≠ '+' := by
          rintro rfl
          cases digits
        have named := (scalar?_iff (value_four_lt digits)).2 ⟨noSurrogate, rfl⟩
        unfold codePoint?
        split
        · next same => exact absurd (List.cons.inj same).1 noPlus
        · rw [digits, Option.bind_some, named]
    · cases signed with
      | @code b c d n digits =>
        have small := value_three_lt digits
        have named := (scalar?_iff (n := n) (by omega)).2 ⟨.inl (by omega), rfl⟩
        rw [codePoint?, digits, Option.bind_some, named]

/-! ## Rows of items -/

/-- The text behind an opening quote is closed: a row of items, and then a quote. -/
structure ClosedText (Item : List Char → Char → Prop) (quote : Char)
    (rest body text tail : List Char) : Prop where
  /-- The first quote behind the items closes the text. -/
  split : rest = body ++ quote :: tail
  /-- The items stand for the text. -/
  row : Row Item body text

variable {quote c : Char} {written rest body text tail : List Char} {width : Nat}

/-- An item in front stands for its character. -/
theorem scanQuoted_item (noBackslash : '\\' ≠ quote) (item : ItemOrSigned quote written c) :
    scanQuoted quote (written ++ rest) = (scanQuoted quote rest).after c written.length := by
  have unicode {a b d e : Char} (item : ItemOrSigned quote ['\\', 'u', a, b, d, e] c) :
      scanQuoted quote ('\\' :: 'u' :: a :: b :: d :: e :: rest) =
        (scanQuoted quote rest).after c 6 :=
    scanQuoted_unicode noBackslash (codePoint?_iff.2 item)
  rcases item with item | signed
  · cases item with
    | plain noQuote noBackslash => exact scanQuoted_plain noQuote noBackslash
    | @short e _ escape =>
      have noUnicode : e ≠ 'u' := by
        rintro rfl
        simp [escapes] at escape
      exact scanQuoted_short noBackslash noUnicode (shortEscape?_iff.2 escape)
    | code digits noSurrogate => exact unicode (.inl (.code digits noSurrogate))
  · cases signed with
    | code digits => exact unicode (.inr (.code digits))

/-- A closed text is scanned up to its closing quote. -/
theorem scanQuoted_of_closedText (noBackslash : '\\' ≠ quote)
    (closed : ClosedText (ItemOrSigned quote) quote rest body text tail) :
    scanQuoted quote rest = .closed text (body.length + 1) := by
  obtain ⟨rfl, row⟩ := closed
  induction row with
  | nil => exact scanQuoted_quote
  | @cons written body text c first _ ih =>
    rw [List.append_assoc, scanQuoted_item noBackslash first, ih, List.length_append]
    simp only [QuotedScan.after, QuotedScan.closed.injEq, true_and]
    omega

/-- Behind an item a closed text is closed as well. -/
theorem ClosedText.cons {Item : List Char → Char → Prop} (first : Item written c)
    (closed : ClosedText Item quote rest body text tail) :
    ClosedText Item quote (written ++ rest) (written ++ body) (c :: text) tail :=
  ⟨by rw [closed.split, List.append_assoc], .cons first closed.row⟩

/-- A scan that finds a text closed went over its items. -/
theorem closedText_of_scanQuoted (closed : scanQuoted quote rest = .closed text width) :
    ∃ body tail, ClosedText (ItemOrSigned quote) quote rest body text tail ∧
      width = body.length + 1 := by
  induction rest using scanQuoted.induct quote generalizing text width with
  | case1 => cases closed
  | case2 rest =>
    rw [scanQuoted_quote] at closed
    obtain ⟨rfl, rfl⟩ := QuotedScan.closed.inj closed
    exact ⟨[], rest, ⟨rfl, .nil⟩, rfl⟩
  | case3 noQuote =>
    rw [scanQuoted.eq_def] at closed
    simp [noQuote] at closed
  | case4 a b c d rest character code noQuote ih =>
    rw [scanQuoted_unicode noQuote code] at closed
    obtain ⟨later, w, inner, rfl, rfl⟩ := QuotedScan.closed_of_after closed
    obtain ⟨body, tail, found, rfl⟩ := ih inner
    exact ⟨_, tail, found.cons (codePoint?_iff.1 code), by simp⟩
  | case5 a b c d rest noCode noQuote =>
    rw [scanQuoted.eq_def] at closed
    simp [noQuote, noCode] at closed
  | case6 rest few noQuote =>
    rw [scanQuoted.eq_def] at closed
    simp [noQuote] at closed
  | case7 e rest noUnicode character short noQuote ih =>
    rw [scanQuoted_short noQuote noUnicode short] at closed
    obtain ⟨later, w, inner, rfl, rfl⟩ := QuotedScan.closed_of_after closed
    obtain ⟨body, tail, found, rfl⟩ := ih inner
    have item : ItemOrSigned quote ['\\', e] character := .inl (.short (shortEscape?_iff.1 short))
    exact ⟨_, tail, found.cons item, by simp⟩
  | case8 e rest noUnicode noEscape noQuote =>
    rw [scanQuoted.eq_def] at closed
    simp [noQuote, noUnicode, noEscape] at closed
  | case9 c rest noQuote noBackslash ih =>
    rw [scanQuoted_plain noQuote noBackslash] at closed
    obtain ⟨later, w, inner, rfl, rfl⟩ := QuotedScan.closed_of_after closed
    obtain ⟨body, tail, found, rfl⟩ := ih inner
    have item : ItemOrSigned quote [c] c := .inl (.plain noQuote noBackslash)
    exact ⟨_, tail, found.cons item, by simp⟩

/-- A text is closed at one place, and stands for one text. -/
theorem ClosedText.unique {body' text' tail' : List Char} (noBackslash : '\\' ≠ quote)
    (first : ClosedText (ItemOrSigned quote) quote rest body text tail)
    (second : ClosedText (ItemOrSigned quote) quote rest body' text' tail') :
    body' = body ∧ text' = text ∧ tail' = tail := by
  have scanned := scanQuoted_of_closedText noBackslash first
  rw [scanQuoted_of_closedText noBackslash second] at scanned
  obtain ⟨rfl, width⟩ := QuotedScan.closed.inj scanned
  obtain ⟨rfl, behind⟩ := List.append_inj (second.split.symm.trans first.split) (by omega)
  exact ⟨rfl, rfl, (List.cons.inj behind).2⟩

end Token

namespace Lexer

open Token

variable {l : Lexer} {quote : Char} {rest : List Char}

/-- The lexer reads the text behind an opening quote by a grammar of items: closed, it is a token,
and the lexer stands behind its closing quote then; otherwise it is a fault. -/
structure ReadsQuoted (l : Lexer) (Item : List Char → Char → Prop) (quote : Char)
    (rest : List Char) : Prop where
  /-- A closed text is a token of the text that its items stand for. -/
  closed : ∀ body text tail, ClosedText Item quote rest body text tail →
    l.next = (.ok ⟨.string (String.ofList text), l.position⟩,
      ⟨tail, l.position + 1 + body.length + 1, false⟩)
  /-- Any other text is a fault. -/
  fault : (∀ body text tail, ¬ ClosedText Item quote rest body text tail) →
    ∃ e after, l.next = (.error e, after)

/-- What a lexer makes of a quote is what is scanned behind it. -/
theorem next_of_quote (front : l.rest = quote :: rest) (isQuote : quote = '"' ∨ quote = '\'') :
    l.next = match scanString quote rest with
      | .token token width => (.ok ⟨token, l.position⟩,
        { l.advance width with afterDot := token == .dot })
      | .fault fault offset width => (.error ⟨fault, l.position + offset⟩, l.advance width) := by
  have starts : Text.isBlank quote = false := by rcases isQuote with rfl | rfl <;> rfl
  have atStart : l.skipBlank = l := skipBlank_of_ends (front ▸ ends_cons.2 starts)
  have scanned : scan (!l.afterDot) l.rest = scanString quote rest := by
    rw [front]
    rcases isQuote with rfl | rfl <;> rfl
  cases found : scanString quote rest with
  | token | fault =>
    rw [found] at scanned
    simp only [next, atStart, scanned]

/-- A lexer reads quoted texts by the grammar of items and signed code points. -/
theorem readsQuoted (front : l.rest = quote :: rest) (isQuote : quote = '"' ∨ quote = '\'') :
    l.ReadsQuoted (ItemOrSigned quote) quote rest where
  closed body text tail closed := by
    have noBackslash : '\\' ≠ quote := by rcases isQuote with rfl | rfl <;> decide
    have scanned := scanQuoted_of_closedText noBackslash closed
    rw [next_of_quote front isQuote, scanString, scanned]
    have behind : l.rest.drop (body.length + 1 + 1) = tail := by
      rw [front, closed.split]
      simp
    have width : l.position + (body.length + 1 + 1) = l.position + 1 + body.length + 1 := by omega
    simp only [advance, behind, width]
    rfl
  fault none := by
    rw [next_of_quote front isQuote, scanString]
    cases scanned : scanQuoted quote rest with
    | closed text width =>
      obtain ⟨body, tail, closed, -⟩ := closedText_of_scanQuoted scanned
      exact absurd closed (none body text tail)
    | invalidEscape | invalidCodePoint | unclosed => exact ⟨_, _, rfl⟩

/-- A text that is closed by items is closed by items and signed code points. -/
theorem closedText_orSigned {body text tail : List Char}
    (closed : ClosedText (Item quote) quote rest body text tail) :
    ClosedText (ItemOrSigned quote) quote rest body text tail :=
  ⟨closed.split, closed.row.mono fun _ _ => .inl⟩

/-- A lexer reads quoted texts by the grammar of items and signed code points. So it reads one by
the grammar of items exactly if it is not closed by a row that needs a signed code point. -/
theorem readsQuoted_iff (front : l.rest = quote :: rest) (isQuote : quote = '"' ∨ quote = '\'') :
    l.ReadsQuoted (ItemOrSigned quote) quote rest ∧
      (l.ReadsQuoted (Item quote) quote rest ↔
        ∀ body text tail, ClosedText (ItemOrSigned quote) quote rest body text tail →
          Row (Item quote) body text) := by
  have reads := readsQuoted front isQuote
  have noBackslash : '\\' ≠ quote := by rcases isQuote with rfl | rfl <;> decide
  refine ⟨reads, fun byItems body text tail closed => ?_, fun every => ⟨?_, ?_⟩⟩
  · by_cases some : ∃ body text tail, ClosedText (Item quote) quote rest body text tail
    · obtain ⟨body', text', tail', other⟩ := some
      obtain ⟨rfl, rfl, -⟩ := closed.unique noBackslash (closedText_orSigned other)
      exact other.row
    · obtain ⟨e, after, failed⟩ := byItems.fault fun body text tail found =>
        some ⟨body, text, tail, found⟩
      cases failed.symm.trans (reads.closed body text tail closed)
  · exact fun body text tail closed => reads.closed body text tail (closedText_orSigned closed)
  · intro none
    refine reads.fault fun body text tail closed => none body text tail ?_
    exact ⟨closed.split, every body text tail closed⟩

/-- An escaped code point and an escaped quote are read by the grammar of items, up to the closing
quote. -/
theorem readsQuoted_iff_escapes :
    let l : Lexer := ⟨['"', '\\', 'u', '0', '0', 'e', '9', '\\', '"', '"', ']'], 2, true⟩
    l.next = (.ok ⟨.string "é\"", 2⟩, ⟨[']'], 12, false⟩) ∧
      l.ReadsQuoted (Item '"') '"' l.rest.tail := by
  intro l
  let body : List Char := ['\\', 'u', '0', '0', 'e', '9', '\\', '"']
  have code : Item '"' ['\\', 'u', '0', '0', 'e', '9'] 'é' :=
    .code (n := 233) rfl (.inl (by decide))
  have letter : Item '"' ['\\', '"'] '"' := .short (by decide)
  have row : Row (Item '"') body ['é', '"'] := .cons code (.cons letter .nil)
  obtain ⟨reads, exactly⟩ := readsQuoted_iff (l := l) rfl (.inl rfl)
  have closed : ClosedText (ItemOrSigned '"') '"' l.rest.tail body ['é', '"'] [']'] :=
    closedText_orSigned ⟨rfl, row⟩
  refine ⟨reads.closed _ _ _ closed, exactly.2 fun body' text' tail' other => ?_⟩
  obtain ⟨rfl, rfl, -⟩ := closed.unique (by decide) other
  exact row

/-- A plus sign among the digits of a code point is read, though it is no hexadecimal digit. -/
theorem readsQuoted_signed :
    let l := ofText "\"\\u+041\""
    l.next = (.ok ⟨.string "A", 0⟩, ⟨[], 8, false⟩) ∧
      ¬ l.ReadsQuoted (Item '"') '"' l.rest.tail := by
  intro l
  let body : List Char := ['\\', 'u', '+', '0', '4', '1']
  have signed : ItemOrSigned '"' body 'A' := .inr (.code (n := 65) rfl)
  have closed : ClosedText (ItemOrSigned '"') '"' l.rest.tail body ['A'] [] :=
    ⟨rfl, .cons signed .nil⟩
  have next := (readsQuoted (l := l) rfl (.inl rfl)).closed _ _ _ closed
  have noRow : ∀ written text, written = body → ¬ Row (Item '"') written text := by
    intro written text same row
    cases row with
    | nil => exact absurd same.symm (List.cons_ne_nil _ _)
    | cons first later =>
      cases first with
      | plain noQuote noBackslash => exact noBackslash (List.cons.inj same).1
      | short escape =>
        obtain ⟨rfl, -⟩ := List.cons.inj (List.cons.inj same).2
        simp [escapes] at escape
      | code digits noSurrogate =>
        simp only [List.cons_append, body, List.cons.injEq] at same
        obtain ⟨-, -, rfl, -⟩ := same
        cases digits
  have none : ∀ body' text tail, ¬ ClosedText (Item '"') '"' l.rest.tail body' text tail := by
    intro body' text tail other
    obtain ⟨same, -, -⟩ := closed.unique (by decide) (closedText_orSigned other)
    exact noRow body' text same other.row
  refine ⟨next, fun byItems => ?_⟩
  obtain ⟨e, after, failed⟩ := byItems.fault none
  cases failed.symm.trans next

end Lexer

end PathQuery
