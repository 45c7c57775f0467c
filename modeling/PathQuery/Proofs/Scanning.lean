import PathQuery.Token.Stream
import PathQuery.Document.Quoted
import PathQuery.Proofs.Characters
/-!
# Scanning written tokens

What is written for a name, a number or a quoted text is scanned as that token again, to its last
character, wherever it stands: the characters behind it only have to be none that go on with it.
-/
namespace PathQuery.Token

/-- The next character, if there is one, is none of those that go on. -/
def Ends (goesOn : Char → Bool) (rest : List Char) : Prop :=
  ∀ c ∈ rest.head?, goesOn c = false

/-- Where nothing follows, nothing goes on. -/
theorem ends_nil {goesOn : Char → Bool} : Ends goesOn [] := by
  simp [Ends]

/-- The first of some characters decides whether they go on. -/
theorem ends_cons {goesOn : Char → Bool} {c : Char} {rest : List Char} :
    Ends goesOn (c :: rest) ↔ goesOn c = false := by
  simp [Ends]

/-- Where fewer characters go on, what ended before still ends. -/
theorem Ends.mono {few many : Char → Bool} {rest : List Char} (ends : Ends many rest)
    (fewer : ∀ c, many c = false → few c = false) : Ends few rest :=
  fun c first => fewer c (ends c first)

section

variable {p : Char → Bool} {body rest : List Char}

/-- A run of characters of a class is taken up to its end. -/
theorem takeWhile_of_ends (inside : ∀ c ∈ body, p c = true) (ends : Ends p rest) :
    (body ++ rest).takeWhile p = body := by
  rw [List.takeWhile_append_of_pos inside]
  cases rest with
  | nil => simp
  | cons c later => simp [ends_cons.1 ends]

/-- What stands behind a run of characters of a class is left. -/
theorem dropWhile_of_ends (inside : ∀ c ∈ body, p c = true) (ends : Ends p rest) :
    (body ++ rest).dropWhile p = rest := by
  rw [List.dropWhile_append_of_pos inside]
  cases rest with
  | nil => simp
  | cons c later => simp [ends_cons.1 ends]

/-- Behind a run of characters of a class there is none. -/
theorem ends_dropWhile (p : Char → Bool) (cs : List Char) : Ends p (cs.dropWhile p) := by
  intro c first
  have stop := List.head?_dropWhile_not p cs
  rwa [first] at stop

/-- A run of characters of a class is the same in front of a text that starts with none. -/
theorem takeWhile_extend (cs : List Char) (ends : Ends p rest) :
    (cs ++ rest).takeWhile p = cs.takeWhile p := by
  induction cs with
  | nil => exact takeWhile_of_ends nofun ends
  | cons c later ih => cases inside : p c <;> simp [inside, ih]

end

/-! ## Words -/

/-- A digit starts no name. -/
theorem not_startsName_of_isDigit {c : Char} (digit : c.isDigit = true) : startsName c = false := by
  have other : c ≠ '_' := by
    rintro rfl
    cases digit
  rw [startsName, Text.not_isAlphabetic_of_isDigit digit, Bool.false_or, decide_eq_false other]

/-- Whether the token is a sign of one character. -/
def isSign : Token → Bool
  | .dollar | .star | .leftBracket | .rightBracket | .leftParen | .rightParen => true
  | _ => false

/-- The token of a single character is a sign. -/
theorem isSign_of_single? {c : Char} {token : Token} (sign : single? c = some token) :
    isSign token = true := by
  unfold single? at sign
  repeat' split at sign
  all_goals cases sign
  all_goals rfl

/-- Whether the token is a name, an operator in words, a truth value or null. -/
def isWord : Token → Bool
  | .identifier _ | .andAnd | .orOr | .boolean _ | .null => true
  | _ => false

/-- The token of a word is one of these. -/
theorem isWord_ofWord (word : String) : isWord (ofWord word) = true := by
  unfold ofWord keyword?
  repeat' split
  all_goals rfl

/-- The characters that stand for themselves or open a quoted text. -/
def signs : List Char := ['$', '*', '[', ']', '(', ')', '.', '&', '|', '"', '\'']

/-- A character that is no sign starts a number or a word. -/
theorem scan_of_not_sign {pointed : Bool} {c : Char} {rest : List Char} (plain : c ∉ signs) :
    scan pointed (c :: rest) =
      if startsNumber (c :: rest) then scanNumber pointed (c :: rest)
      else if startsName c then scanWord (c :: rest)
      else .fault (.unexpectedCharacter c) 0 0 := by
  simp only [signs, List.mem_cons, List.not_mem_nil, or_false, not_or] at plain
  simp only [scan, single?, plain, if_false, or_self]

/-- A character of a class without signs is no sign. -/
theorem not_mem_signs {p : Char → Bool} {c : Char} (none : signs.any p = false)
    (inside : p c = true) : c ∉ signs := by
  intro sign
  have some : signs.any p = true := List.any_eq_true.2 ⟨c, sign, inside⟩
  rw [none] at some
  cases some

/-- What starts a name starts no number. -/
theorem not_startsNumber {c : Char} {rest : List Char} (starts : startsName c = true) :
    startsNumber (c :: rest) = false := by
  have noDigit : c.isDigit = false := Bool.eq_false_iff.2 fun digit =>
    Bool.false_ne_true ((not_startsName_of_isDigit digit).symm.trans starts)
  unfold startsNumber
  split
  · next same => exact absurd starts ((List.cons.inj same).1 ▸ by decide)
  · next same => exact (List.cons.inj same).1 ▸ noDigit
  · rfl

/-- A word is scanned up to the first character that does not continue it. -/
theorem scan_word {pointed : Bool} {c : Char} {word rest : List Char}
    (starts : startsName c = true) (inside : ∀ d ∈ word, continuesName d = true)
    (ends : Ends continuesName rest) :
    scan pointed (c :: word ++ rest) =
      .token (ofWord (String.ofList (c :: word))) (c :: word).length := by
  have noNumber : startsNumber (c :: (word ++ rest)) = false := not_startsNumber starts
  have whole : ∀ d ∈ c :: word, continuesName d = true :=
    List.forall_mem_cons.2 ⟨continuesName_of_startsName starts, inside⟩
  rw [List.cons_append, scan_of_not_sign (not_mem_signs rfl starts), noNumber, starts]
  simp only [Bool.false_eq_true, if_false, if_true, scanWord, ← List.cons_append,
    takeWhile_of_ends whole ends]

/-! ## Numbers -/

/-- The number is as it is read from a path: there are whole digits, all digits are digits, and
there is no exponent. -/
structure Plain (n : Numeral) : Prop where
  /-- There are whole digits. -/
  nonempty : n.whole ≠ []
  /-- The whole digits are digits. -/
  whole : ∀ c ∈ n.whole, c.isDigit = true
  /-- The digits of the fraction are digits. -/
  fraction : ∀ c ∈ n.fraction, c.isDigit = true
  /-- There is no exponent. -/
  exponent : n.exponent = none

/-- Whether a character goes on with a number: a digit, or a point where a fraction may follow. -/
def continuesNumber (pointed : Bool) (c : Char) : Bool := c.isDigit || (pointed && c == '.')

/-- What does not continue a name, and is no point that may follow, does not go on with a number. -/
theorem continuesNumber_eq_false {pointed : Bool} {c : Char} (noName : continuesName c = false)
    (noPoint : pointed = true → c ≠ '.') : continuesNumber pointed c = false := by
  have noDigit : c.isDigit = false := by
    refine Bool.eq_false_iff.2 fun digit => Bool.false_ne_true (noName.symm.trans ?_)
    simp [continuesName, Text.isAlphanumeric, Text.isNumeric_of_isDigit digit]
  cases pointed with
  | false => simp [continuesNumber, noDigit]
  | true => simp [continuesNumber, noDigit, noPoint rfl]

/-- In front of digits there is no minus sign. -/
theorem readMinus_of_isDigit {c : Char} {rest : List Char} (digit : c.isDigit = true) :
    Numeral.readMinus (c :: rest) = (false, c :: rest) := by
  unfold Numeral.readMinus
  split
  · next same =>
    obtain ⟨rfl, -⟩ := List.cons.inj same
    cases digit
  · rfl

/-- Without a point there is no fraction. -/
theorem readFraction_of_ends {rest : List Char} (ends : Ends (· == '.') rest) :
    readFraction rest = [] := by
  unfold readFraction
  split
  · exact absurd (ends_cons.1 ends) (by decide)
  · rfl

/-- What stands behind a number does not go on with it: it starts with no digit, nor with a fraction
where the number may have one and has none. -/
structure Closes (pointed : Bool) (n : Numeral) (rest : List Char) : Prop where
  /-- No digit comes next. -/
  noDigit : Ends Char.isDigit rest
  /-- No fraction comes next. -/
  noFraction : pointed = true → n.fraction = [] → readFraction rest = []

/-- What starts with no character that goes on with numbers closes every number. -/
theorem closes_of_ends {pointed : Bool} {n : Numeral} {rest : List Char}
    (ends : Ends (continuesNumber pointed) rest) : Closes pointed n rest where
  noDigit := ends.mono fun _ stops => (Bool.or_eq_false_iff.1 stops).1
  noFraction allowed _ := by
    subst allowed
    exact readFraction_of_ends (ends.mono fun _ stops => (Bool.or_eq_false_iff.1 stops).2)

/-- A written number is read back in front of what closes it. -/
theorem readNumeral_numeralText {pointed : Bool} {n : Numeral} {rest : List Char} (plain : Plain n)
    (allowed : n.fraction ≠ [] → pointed = true) (closes : Closes pointed n rest) :
    readNumeral pointed (numeralText n ++ rest) = n := by
  obtain ⟨negative, whole, fraction, exponent⟩ := n
  obtain ⟨nonempty, wholeDigits, fractionDigits, noExponent⟩ := plain
  obtain ⟨noDigit, noFraction⟩ := closes
  let tail := if fraction = [] then [] else '.' :: fraction
  have minus : Numeral.readMinus ((if negative then ['-'] else []) ++ (whole ++ (tail ++ rest))) =
      (negative, whole ++ (tail ++ rest)) := by
    cases negative with
    | true => rfl
    | false =>
      obtain ⟨c, later, rfl⟩ := List.exists_cons_of_ne_nil nonempty
      exact readMinus_of_isDigit (wholeDigits c List.mem_cons_self)
  have tailEnds : Ends Char.isDigit (tail ++ rest) := by
    by_cases empty : fraction = []
    · simpa [tail, empty] using noDigit
    · simp only [tail, empty, if_false]
      exact ends_cons.2 rfl
  have digits : Numeral.readDigits (whole ++ (tail ++ rest)) = (whole, tail ++ rest) := by
    simp only [Numeral.readDigits, takeWhile_of_ends wholeDigits tailEnds,
      dropWhile_of_ends wholeDigits tailEnds]
  have fractionRead : (if pointed then readFraction (tail ++ rest) else []) = fraction := by
    by_cases empty : fraction = []
    · cases pointed with
      | false => simp [empty]
      | true => simp [tail, empty, noFraction rfl empty]
    · simp only [allowed empty, if_true, tail, empty, if_false]
      exact takeWhile_of_ends fractionDigits noDigit
  have text : numeralText ⟨negative, whole, fraction, exponent⟩ ++ rest =
      (if negative then ['-'] else []) ++ (whole ++ (tail ++ rest)) := by
    simp only [numeralText, tail, List.append_assoc]
  simp only [readNumeral, text, minus, digits, fractionRead]
  exact congrArg (Numeral.mk negative whole fraction) noExponent.symm

/-- A minus sign that is read stands in front. -/
theorem readMinus_append (cs : List Char) :
    (if (Numeral.readMinus cs).1 then ['-'] else []) ++ (Numeral.readMinus cs).2 = cs := by
  fun_cases Numeral.readMinus cs <;> rfl

/-- A fraction that is read stands behind a point in front, and no digit goes on with it; where none
is read none stands there. -/
theorem readFraction_append {cs : List Char} (ends : Ends Char.isDigit cs) :
    ∃ rest, (if readFraction cs = [] then [] else '.' :: readFraction cs) ++ rest = cs ∧
      Ends Char.isDigit rest ∧ (readFraction cs = [] → readFraction rest = []) := by
  by_cases none : readFraction cs = []
  · exact ⟨cs, by rw [if_pos none, List.nil_append], ends, id⟩
  · rw [if_neg none]
    fun_cases readFraction cs with
    | case1 later =>
      exact ⟨_, congrArg ('.' :: ·) (Numeral.readDigits_append later), ends_dropWhile _ later,
        fun empty => absurd empty none⟩
    | case2 cs other => exact absurd (by rw [readFraction]; exact other) none

/-- A number that is read stands written in front, and what stands behind closes it. -/
theorem numeralText_readNumeral (pointed : Bool) (cs : List Char) :
    ∃ rest, numeralText (readNumeral pointed cs) ++ rest = cs ∧
      Closes pointed (readNumeral pointed cs) rest := by
  have minus := readMinus_append cs
  have digits := Numeral.readDigits_append (Numeral.readMinus cs).2
  have ends : Ends Char.isDigit (Numeral.readDigits (Numeral.readMinus cs).2).2 :=
    ends_dropWhile _ _
  cases pointed with
  | false =>
    refine ⟨(Numeral.readDigits (Numeral.readMinus cs).2).2, ?_, ends, nofun⟩
    simpa [numeralText, readNumeral, digits] using minus
  | true =>
    obtain ⟨rest, fraction, noDigit, noFraction⟩ := readFraction_append ends
    refine ⟨rest, ?_, noDigit, fun _ => noFraction⟩
    simpa [numeralText, readNumeral, fraction, digits] using minus

/-- A number that starts somewhere is read as it is from a path. -/
theorem plain_readNumeral (pointed : Bool) {cs : List Char} (starts : startsNumber cs = true) :
    Plain (readNumeral pointed cs) where
  nonempty := by
    fun_cases startsNumber cs with
    | case1 d rest =>
      have digit : d.isDigit = true := by simpa [startsNumber] using starts
      simp [readNumeral, Numeral.readMinus, Numeral.readDigits, digit]
    | case2 c rest other =>
      have digit : c.isDigit = true := by simpa [startsNumber] using starts
      simp [readNumeral, readMinus_of_isDigit digit, Numeral.readDigits, digit]
    | case3 => simp [startsNumber] at starts
  whole _ member := Numeral.isDigit_of_mem_readDigits member
  fraction c member := by
    simp only [readNumeral] at member
    split at member
    · unfold readFraction at member
      split at member
      · exact Numeral.isDigit_of_mem_readDigits member
      · cases member
    · cases member
  exponent := rfl

/-- Digits, or a minus sign and digits, start a number. -/
theorem startsNumber_numeralText {n : Numeral} (plain : Plain n) (rest : List Char) :
    startsNumber (numeralText n ++ rest) = true := by
  obtain ⟨negative, whole, fraction, exponent⟩ := n
  obtain ⟨c, later, rfl⟩ := List.exists_cons_of_ne_nil plain.nonempty
  have digit : c.isDigit = true := plain.whole c List.mem_cons_self
  cases negative with
  | true => simpa [numeralText, startsNumber] using digit
  | false =>
    have other : c ≠ '-' := by
      rintro rfl
      cases digit
    simp [numeralText, startsNumber, digit, other]

/-- What a number says as a token: without a fraction an integer, if it fits 64 bits. -/
def scanOfNumeral (n : Numeral) : Scan :=
  if n.fraction = [] then
    match Numeral.int64? n.wholeValue with
    | some value => .token (.integer value) (numeralText n).length
    | none => .fault (.malformedNumber (String.ofList (numeralText n))) 0 (numeralText n).length
  else .token (.float n.decimal.nearest) (numeralText n).length

/-- A number is read first, and then it is told what token it is. -/
theorem scanNumber_eq (pointed : Bool) (cs : List Char) :
    scanNumber pointed cs = scanOfNumeral (readNumeral pointed cs) := rfl

/-- A number takes all the characters that it is written with. -/
theorem length_of_scanOfNumeral {n : Numeral} {token : Token} {width : Nat}
    (found : scanOfNumeral n = .token token width) : (numeralText n).length = width := by
  unfold scanOfNumeral at found
  split at found
  · split at found
    · exact (Scan.token.inj found).2
    · cases found
  · exact (Scan.token.inj found).2

/-- A number is scanned from where one starts. -/
theorem scan_of_startsNumber {pointed : Bool} {cs : List Char} (starts : startsNumber cs = true) :
    scan pointed cs = scanOfNumeral (readNumeral pointed cs) := by
  cases cs with
  | nil => cases starts
  | cons c rest =>
    have noSign : c ∉ signs := by
      by_cases minus : c = '-'
      · subst minus
        decide
      · have digit : c.isDigit = true := by simpa [startsNumber, minus] using starts
        exact not_mem_signs rfl digit
    rw [scan_of_not_sign noSign, if_pos starts, scanNumber_eq]

/-- A written number is scanned in front of what closes it. -/
theorem scan_of_closes {pointed : Bool} {n : Numeral} {rest : List Char} (plain : Plain n)
    (allowed : n.fraction ≠ [] → pointed = true) (closes : Closes pointed n rest) :
    scan pointed (numeralText n ++ rest) = scanOfNumeral n := by
  rw [scan_of_startsNumber (startsNumber_numeralText plain rest),
    readNumeral_numeralText plain allowed closes]

/-- A written number is scanned up to the first character that does not go on with numbers. -/
theorem scan_numeralText {pointed : Bool} {n : Numeral} {rest : List Char} (plain : Plain n)
    (allowed : n.fraction ≠ [] → pointed = true) (ends : Ends (continuesNumber pointed) rest) :
    scan pointed (numeralText n ++ rest) = scanOfNumeral n :=
  scan_of_closes plain allowed (closes_of_ends ends)

/-- The number of an integer as it is written. -/
def numeralOfInt (n : Int) : Numeral := ⟨n < 0, Decimal.naturalText n.natAbs, [], none⟩

/-- An integer is written as its number. -/
theorem numeralText_numeralOfInt (n : Int) :
    numeralText (numeralOfInt n) = Decimal.integerText n := by
  by_cases negative : n < 0 <;> simp [numeralText, numeralOfInt, Decimal.integerText, negative]

/-- The digits of an integer are digits, and there is at least one. -/
theorem plain_numeralOfInt (n : Int) : Plain (numeralOfInt n) where
  nonempty := Nat.toDigits_ne_nil
  whole _ digit := Nat.isDigit_of_mem_toDigits (by decide) (by decide) digit
  fraction _ digit := nomatch digit
  exponent := rfl

/-- The digits of an integer say that integer. -/
theorem wholeValue_numeralOfInt (n : Int) : (numeralOfInt n).wholeValue = n := by
  simp only [Numeral.wholeValue, numeralOfInt, Decimal.digitsValue_naturalText, decide_eq_true_eq]
  split <;> omega

/-- An integer of 64 bits fits 64 bits. -/
theorem int64?_toInt (n : Int64) : Numeral.int64? n.toInt = some n := by
  have low := Int64.le_toInt n
  have high := Int64.toInt_le n
  simp only [Numeral.int64?, Int64.toInt_minValue, Int64.toInt_maxValue, Int64.ofInt_toInt]
  rw [if_pos ⟨low, high⟩]

/-- A written integer is scanned as it. -/
theorem scan_integerText {pointed : Bool} {n : Int64} {rest : List Char}
    (ends : Ends (continuesNumber pointed) rest) :
    scan pointed (Decimal.integerText n.toInt ++ rest) =
      .token (.integer n) (Decimal.integerText n.toInt).length := by
  rw [← numeralText_numeralOfInt,
    scan_numeralText (plain_numeralOfInt _) (fun other => absurd rfl other) ends]
  simp only [scanOfNumeral, wholeValue_numeralOfInt, int64?_toInt]
  rfl

/-! ## Quoted texts -/

/-- Four digits of a number below 65536 say that number. -/
theorem hexValue?_hexWord {n : Nat} (small : n < 65536) :
    Text.hexValue? (Text.hexWord n) = some n := by
  have digit : ∀ m, Text.hexDigit? (Text.hexDigit (m % 16)) = some (m % 16) :=
    fun m => Text.hexDigit?_hexDigit (Nat.mod_lt m (by decide))
  simp only [Text.hexValue?, Text.hexWord, List.foldlM_cons, List.foldlM_nil, digit,
    Option.map_some, Option.bind_eq_bind, Option.bind_some, Option.pure_def]
  congr 1
  omega

/-- Four written digits name the character of their number. -/
theorem codePoint?_hexWord {n : Nat} (small : n < 65536) :
    codePoint? (Text.hexWord n) = Text.scalar? n := by
  have value := hexValue?_hexWord small
  unfold codePoint?
  split
  · next digits same =>
    -- no written digit is a plus sign
    have digit := Text.hexDigit?_hexDigit (Nat.mod_lt (n / 4096) (by decide : 0 < 16))
    rw [(List.cons.inj same).1] at digit
    cases digit
  · rw [value, Option.bind_some]

section

variable {quote c : Char} {rest : List Char}

/-- The closing quote ends the text. -/
theorem scanQuoted_quote : scanQuoted quote (quote :: rest) = .closed [] 1 := by
  rw [scanQuoted.eq_def]
  exact if_pos rfl

/-- A character that is neither quote nor backslash stands for itself. -/
theorem scanQuoted_plain (noQuote : c ≠ quote) (noBackslash : c ≠ '\\') :
    scanQuoted quote (c :: rest) = (scanQuoted quote rest).after c 1 := by
  rw [scanQuoted.eq_def]
  exact (if_neg noQuote).trans (if_neg noBackslash)

/-- An escape of one letter stands for its character. -/
theorem scanQuoted_short {e : Char} (noQuote : '\\' ≠ quote) (noUnicode : e ≠ 'u')
    (short : shortEscape? e = some c) :
    scanQuoted quote ('\\' :: e :: rest) = (scanQuoted quote rest).after c 2 := by
  rw [scanQuoted.eq_def]
  simp only [noQuote, noUnicode, if_false, if_true, short]

/-- An escaped code point stands for its character. -/
theorem scanQuoted_unicode {a b d e : Char} (noQuote : '\\' ≠ quote)
    (code : codePoint? [a, b, d, e] = some c) :
    scanQuoted quote ('\\' :: 'u' :: a :: b :: d :: e :: rest) =
      (scanQuoted quote rest).after c 6 := by
  rw [scanQuoted.eq_def]
  simp only [noQuote, if_false, if_true, code]

end

/-- A control character is scanned from its code point. -/
theorem scanQuoted_control {c : Char} (control : Quoted.isControl c = true) (rest : List Char) :
    scanQuoted '"' ('\\' :: 'u' :: (Text.hexWord c.toNat ++ rest)) =
      (scanQuoted '"' rest).after c 6 := by
  have small := Quoted.toNat_lt_of_isControl control
  have code := codePoint?_hexWord (Nat.lt_trans small (by decide))
  rw [Text.scalar?_toNat] at code
  exact scanQuoted_unicode (by decide) code

/-- A written character is scanned as it, and what follows behind it. -/
theorem scanQuoted_writeChar (c : Char) (rest : List Char) :
    scanQuoted '"' (Quoted.writeChar c ++ rest) =
      (scanQuoted '"' rest).after c (Quoted.writeChar c).length := by
  have way := Quoted.written_writeChar c
  generalize Quoted.writeChar c = written at way ⊢
  cases way with
  | short letter => cases letter <;> exact scanQuoted_short (by decide) (by decide) rfl
  | code control => exact scanQuoted_control control rest
  | plain noQuote noBackslash => exact scanQuoted_plain noQuote noBackslash

/-- Written characters are scanned as they are, up to a closing quote. -/
theorem scanQuoted_flatMap (text rest : List Char) :
    scanQuoted '"' (text.flatMap Quoted.writeChar ++ '"' :: rest) =
      .closed text ((text.flatMap Quoted.writeChar).length + 1) := by
  induction text with
  | nil => exact scanQuoted_quote
  | cons c later ih =>
    rw [List.flatMap_cons, List.append_assoc, scanQuoted_writeChar, ih]
    simp only [QuotedScan.after, List.length_append, QuotedScan.closed.injEq, true_and]
    omega

/-- A quoted text is scanned as its text, whatever follows. -/
theorem scan_quoted {pointed : Bool} (text rest : List Char) :
    scan pointed (Quoted.write text ++ rest) =
      .token (.string (String.ofList text)) (Quoted.write text).length := by
  have content := scanQuoted_flatMap text rest
  simp only [Quoted.write, List.cons_append, List.append_assoc, List.nil_append, scan, single?]
  simp [scanString, content]

/-! ## What a scanned token can be -/

/-- The ways in which a token can stand in front. -/
inductive Scanned (pointed : Bool) (c : Char) (rest : List Char) : Token → Nat → Prop where
  /-- A sign of one character. -/
  | single {token : Token} (sign : single? c = some token) : Scanned pointed c rest token 1
  /-- Two points. -/
  | dotDot (point : c = '.') (more : rest.head? = some '.') : Scanned pointed c rest .dotDot 2
  /-- A lone point. -/
  | dot (point : c = '.') (lone : rest.head? ≠ some '.') : Scanned pointed c rest .dot 1
  /-- A doubled sign of conjunction. -/
  | andAnd (sign : c = '&') (more : rest.head? = some c) : Scanned pointed c rest .andAnd 2
  /-- A doubled sign of disjunction. -/
  | orOr (sign : c = '|') (more : rest.head? = some c) : Scanned pointed c rest .orOr 2
  /-- A quoted text. -/
  | quoted {content : List Char} {width : Nat} (quote : c = '"' ∨ c = '\'')
    (closed : scanQuoted c rest = .closed content width) :
    Scanned pointed c rest (.string (String.ofList content)) (width + 1)
  /-- A number. -/
  | number {token : Token} {width : Nat} (starts : startsNumber (c :: rest) = true)
    (found : scanOfNumeral (readNumeral pointed (c :: rest)) = .token token width) :
    Scanned pointed c rest token width
  /-- A word. -/
  | word (starts : startsName c = true) :
    Scanned pointed c rest (ofWord (String.ofList ((c :: rest).takeWhile continuesName)))
      ((c :: rest).takeWhile continuesName).length

/-- A token that is scanned stands in front in one of these ways. -/
theorem scanned_of_scan {pointed : Bool} {c : Char} {rest : List Char} {token : Token}
    {width : Nat} (scanned : scan pointed (c :: rest) = .token token width) :
    Scanned pointed c rest token width := by
  simp only [scan] at scanned
  split at scanned
  · next token sign =>
    obtain ⟨rfl, rfl⟩ := Scan.token.inj scanned
    exact .single sign
  · split at scanned
    · next point =>
      split at scanned
      · next more =>
        obtain ⟨rfl, rfl⟩ := Scan.token.inj scanned
        exact .dotDot point more
      · next lone =>
        obtain ⟨rfl, rfl⟩ := Scan.token.inj scanned
        exact .dot point lone
    · split at scanned
      · next sign =>
        unfold scanDouble at scanned
        split at scanned
        · next more =>
          obtain ⟨rfl, rfl⟩ := Scan.token.inj scanned
          exact .andAnd sign more
        · cases scanned
      · split at scanned
        · next sign =>
          unfold scanDouble at scanned
          split at scanned
          · next more =>
            obtain ⟨rfl, rfl⟩ := Scan.token.inj scanned
            exact .orOr sign more
          · cases scanned
        · split at scanned
          · next quote =>
            unfold scanString at scanned
            split at scanned
            · next closed =>
              obtain ⟨rfl, rfl⟩ := Scan.token.inj scanned
              exact .quoted quote closed
            all_goals cases scanned
          · split at scanned
            · next starts => exact .number starts scanned
            · split at scanned
              · next starts =>
                obtain ⟨rfl, rfl⟩ := Scan.token.inj scanned
                exact .word starts
              · cases scanned

/-- Only at its end a text is scanned as its end. -/
theorem eq_nil_of_scan_endOfInput {pointed : Bool} {cs : List Char} {width : Nat}
    (scanned : scan pointed cs = .token .endOfInput width) : cs = [] := by
  cases cs with
  | nil => rfl
  | cons c rest =>
    generalize ended : Token.endOfInput = token at scanned
    cases scanned_of_scan scanned with
    | single sign =>
      subst ended
      cases isSign_of_single? sign
    | number starts found =>
      subst ended
      unfold scanOfNumeral at found
      repeat' split at found
      all_goals cases found
    | word starts => cases (congrArg isWord ended).trans (isWord_ofWord _)
    | _ => cases ended

/-- What is scanned in front of some character is not the end. -/
theorem ne_endOfInput_of_scan {pointed : Bool} {c : Char} {rest : List Char} {token : Token}
    {width : Nat} (scanned : scan pointed (c :: rest) = .token token width) :
    token ≠ .endOfInput := by
  rintro rfl
  cases eq_nil_of_scan_endOfInput scanned

/-- Only a number is scanned as a floating-point number. -/
theorem startsNumber_of_scan_float {pointed : Bool} {cs : List Char} {x : Float} {width : Nat}
    (scanned : scan pointed cs = .token (.float x) width) :
    startsNumber cs = true ∧ scanOfNumeral (readNumeral pointed cs) = .token (.float x) width := by
  cases cs with
  | nil => cases scanned
  | cons c rest =>
    generalize same : Token.float x = token at scanned
    cases scanned_of_scan scanned with
    | single sign =>
      subst same
      cases isSign_of_single? sign
    | number starts found => exact ⟨starts, same ▸ found⟩
    | word starts => cases (congrArg isWord same).trans (isWord_ofWord _)
    | _ => cases same

end PathQuery.Token
