import PathQuery.Proofs.Scanning
import PathQuery.Expr.Parser
/-!
# Texts that spell tokens

A text spells some tokens when a lexer in front of it answers with these tokens and stands behind
it then, whatever follows, as long as that does not go on with the last token. Such texts can be
put in a row: a text that spells tokens and one that spells others spell all of them together.
-/
namespace PathQuery

namespace Lexer

/-! ## Runs of a lexer -/

/-- The lexer answers with some tokens inside its text and stands somewhere behind them. -/
def Yields (l : Lexer) : List Token → Lexer → Prop
  | [], after => after = l
  | token :: later, after =>
    token ≠ .endOfInput ∧ ∃ p mid, l.next = (.ok ⟨token, p⟩, mid) ∧ mid.Yields later after

/-- A lexer goes on where it stood. -/
theorem Yields.append {first second : List Token} {l mid after : Lexer}
    (front : l.Yields first mid) (back : mid.Yields second after) :
    l.Yields (first ++ second) after := by
  induction first generalizing l with
  | nil =>
    obtain rfl : mid = l := front
    exact back
  | cons token later ih =>
    obtain ⟨inside, p, next, read, further⟩ := front
    exact ⟨inside, p, next, read, ih further⟩

/-- At its end a text has no tokens left. -/
theorem tokens_of_end {l after : Lexer} {p : Nat} (read : l.next = (.ok ⟨.endOfInput, p⟩, after)) :
    l.tokens = .ok ⟨[], p⟩ := by
  rw [tokens]
  split
  · next e _ failed => cases read.symm.trans failed
  · next found _ ok =>
    obtain ⟨same, -⟩ := Prod.mk.inj (read.symm.trans ok)
    obtain rfl := Except.ok.inj same
    exact dif_pos rfl

/-- A token that is not the end is the first one of those that are left. -/
theorem tokens_of_next {l after : Lexer} {found : Located} {later : TokenStream}
    (read : l.next = (.ok found, after)) (inside : found.token ≠ .endOfInput)
    (rest : after.tokens = .ok later) :
    l.tokens = .ok { later with tokens := found :: later.tokens } := by
  rw [tokens]
  split
  · next e _ failed => cases read.symm.trans failed
  · next found _ ok =>
    obtain ⟨same, rfl⟩ := Prod.mk.inj (read.symm.trans ok)
    obtain rfl := Except.ok.inj same
    rw [dif_neg inside]
    simp only [rest]

/-- A fault in place of the next token is the fault of the text. -/
theorem tokens_of_fault {l after : Lexer} {e : LexError} (read : l.next = (.error e, after)) :
    l.tokens = .error e := by
  rw [tokens]
  split
  · next failed =>
    obtain ⟨same, -⟩ := Prod.mk.inj (read.symm.trans failed)
    obtain rfl := Except.error.inj same
    rfl
  · next ok => cases read.symm.trans ok

/-- A fault behind the next token is the fault of the text. -/
theorem tokens_of_fault_behind {l after : Lexer} {e : LexError} {found : Located}
    (read : l.next = (.ok found, after)) (inside : found.token ≠ .endOfInput)
    (fault : after.tokens = .error e) : l.tokens = .error e := by
  rw [tokens]
  split
  · next failed => cases read.symm.trans failed
  · next ok =>
    obtain ⟨same, rfl⟩ := Prod.mk.inj (read.symm.trans ok)
    obtain rfl := Except.ok.inj same
    rw [dif_neg inside]
    simp only [fault]

/-- The tokens that a lexer answers with up to the end are those of its text. -/
theorem tokens_of_yields {expected : List Token} {l after : Lexer} {p : Nat} {last : Lexer}
    (run : l.Yields expected after) (ended : after.next = (.ok ⟨.endOfInput, p⟩, last)) :
    ∃ s, l.tokens = .ok s ∧ s.tokens.map Located.token = expected := by
  induction expected generalizing l with
  | nil =>
    obtain rfl : after = l := run
    exact ⟨_, tokens_of_end ended, rfl⟩
  | cons token later ih =>
    obtain ⟨inside, q, mid, read, further⟩ := run
    obtain ⟨s, tokens, same⟩ := ih further
    exact ⟨_, tokens_of_next read inside tokens, congrArg (token :: ·) same⟩

/-! ## The next token -/

/-- A blank in front changes nothing but the offset. -/
theorem skipBlank_blank {l : Lexer} {c : Char} {rest : List Char} (front : l.rest = c :: rest)
    (blank : Text.isBlank c = true) : l.skipBlank = (l.advance 1).skipBlank := by
  simp only [skipBlank, advance, front, List.takeWhile_cons, blank, if_true, List.length_cons,
    List.drop_succ_cons, List.drop_zero]
  congr 1
  omega

/-- Without a blank in front there is nothing to skip. -/
theorem skipBlank_of_ends {l : Lexer} (starts : Token.Ends Text.isBlank l.rest) :
    l.skipBlank = l := by
  have none : l.rest.takeWhile Text.isBlank = [] := by
    cases front : l.rest with
    | nil => rfl
    | cons c later =>
      rw [front] at starts
      simp [Token.ends_cons.1 starts]
  simp [skipBlank, advance, none]

/-- Lexers that are alike behind the blanks answer alike. -/
theorem next_of_skipBlank_eq {l m : Lexer} (same : l.skipBlank = m.skipBlank) :
    l.next = m.next := by
  simp only [next, same]

/-- Lexers that are alike behind the blanks have the same tokens, or the same fault. -/
theorem tokens_eq_of_skipBlank_eq {l m : Lexer} (same : l.skipBlank = m.skipBlank) :
    l.tokens = m.tokens := by
  have next := next_of_skipBlank_eq same
  cases read : m.next with
  | mk answer after =>
    cases answer with
    | error e => rw [tokens_of_fault read, tokens_of_fault (next.trans read)]
    | ok found =>
      by_cases inside : found.token = .endOfInput
      · obtain ⟨token, p⟩ := found
        obtain rfl : token = .endOfInput := inside
        rw [tokens_of_end read, tokens_of_end (next.trans read)]
      · cases behind : after.tokens with
        | ok later =>
          rw [tokens_of_next read inside behind, tokens_of_next (next.trans read) inside behind]
        | error e =>
          rw [tokens_of_fault_behind read inside behind,
            tokens_of_fault_behind (next.trans read) inside behind]

/-- Where nothing is left the end comes next. -/
theorem next_of_nil {l : Lexer} (none : l.rest = []) :
    ∃ after, l.next = (.ok ⟨.endOfInput, l.position⟩, after) := by
  have atEnd : l.skipBlank = l := skipBlank_of_ends (none ▸ Token.ends_nil)
  simp only [next, atEnd, none, Token.scan]
  exact ⟨_, rfl⟩

/-- What is scanned at the front is the next token. -/
theorem next_of_scan {l : Lexer} {c : Char} {text rest : List Char} {token : Token}
    (front : l.rest = c :: text ++ rest) (starts : Text.isBlank c = false)
    (scanned : Token.scan (!l.afterDot) (c :: text ++ rest) = .token token (c :: text).length) :
    ∃ after, l.next = (.ok ⟨token, l.position⟩, after) ∧ after.rest = rest ∧
      after.afterDot = (token == .dot) := by
  have atStart : l.skipBlank = l :=
    skipBlank_of_ends (front ▸ Token.ends_cons.2 starts)
  simp only [next, atStart, front, scanned]
  refine ⟨_, rfl, ?_, rfl⟩
  simp [advance, front]

end Lexer

namespace Token

/-! ## Texts in a row -/

/-- A lexer in front of the text answers with the tokens and stands behind the text then, unless
what follows goes on with it. -/
def Spells (text : List Char) (tokens : List Token) (goesOn : Char → Bool) : Prop :=
  ∀ (l : Lexer) (rest : List Char), l.rest = text ++ rest → l.afterDot = false →
    Ends goesOn rest → ∃ after, l.Yields tokens after ∧ after.rest = rest ∧ after.afterDot = false

/-- No character goes on with a text that has its own end. -/
def nothing (_ : Char) : Bool := false

variable {text later : List Char} {tokens further : List Token} {token : Token}
  {goesOn fewer : Char → Bool} {c : Char}

/-- A text spells the same when more characters are kept from following it. -/
theorem Spells.mono (spells : Spells text tokens fewer)
    (more : ∀ c, goesOn c = false → fewer c = false) : Spells text tokens goesOn :=
  fun l rest front noDot ends => spells l rest front noDot (ends.mono more)

/-- Two texts in a row spell the tokens of both, if the second does not go on with the first. -/
theorem Spells.append (first : Spells text tokens fewer) (second : Spells later further goesOn)
    (apart : ∀ rest, Ends fewer (later ++ rest)) :
    Spells (text ++ later) (tokens ++ further) goesOn := by
  intro l rest front noDot ends
  rw [List.append_assoc] at front
  obtain ⟨mid, read, stands, noDot⟩ := first l _ front noDot (apart rest)
  obtain ⟨after, readOn, standsOn, noDot⟩ := second mid rest stands noDot ends
  exact ⟨after, read.append readOn, standsOn, noDot⟩

/-- Behind a text that has its own end any text can follow. -/
theorem Spells.append_closed (first : Spells text tokens nothing)
    (second : Spells later further goesOn) : Spells (text ++ later) (tokens ++ further) goesOn :=
  first.append second fun _ _ _ => rfl

/-- A blank in front of a text spells nothing. -/
theorem Spells.blank (spells : Spells text (token :: tokens) goesOn)
    (blank : Text.isBlank c = true) : Spells (c :: text) (token :: tokens) goesOn := by
  intro l rest front noDot ends
  have behind : (l.advance 1).rest = text ++ rest := by simp [Lexer.advance, front]
  obtain ⟨after, ⟨inside, p, mid, read, readOn⟩, stands⟩ :=
    spells (l.advance 1) rest behind noDot ends
  have same : l.next = (l.advance 1).next := by
    have skipped := Lexer.skipBlank_blank front blank
    simp only [Lexer.next, skipped]
  exact ⟨after, ⟨inside, p, mid, same.trans read, readOn⟩, stands⟩

/-- A text that is scanned as a token spells it. -/
theorem Spells.of_scan (starts : Text.isBlank c = false) (other : token ≠ .dot)
    (scanned : ∀ rest, Ends goesOn rest →
      scan true (c :: text ++ rest) = .token token (c :: text).length) :
    Spells (c :: text) [token] goesOn := by
  intro l rest front noDot ends
  have atStart : scan (!l.afterDot) (c :: text ++ rest) = .token token (c :: text).length := by
    rw [noDot]
    exact scanned rest ends
  obtain ⟨after, read, stands, dotted⟩ := Lexer.next_of_scan front starts atStart
  exact ⟨after, ⟨ne_endOfInput_of_scan atStart, _, after, read, rfl⟩, stands,
    dotted.trans (by simpa using other)⟩

/-- Behind a point a text spells what it is scanned as there. -/
theorem Spells.of_scan_dotted (starts : Text.isBlank c = false) (noPoint : c ≠ '.')
    (other : token ≠ .dot)
    (scanned : ∀ rest, Ends goesOn rest →
      scan false (c :: text ++ rest) = .token token (c :: text).length) :
    Spells ('.' :: c :: text) [.dot, token] goesOn := by
  intro l rest front noDot ends
  have dot : scan (!l.afterDot) ('.' :: [] ++ (c :: text ++ rest)) = .token .dot 1 := by
    simp [scan, single?, noPoint]
  have point : l.rest = '.' :: [] ++ (c :: text ++ rest) := front
  obtain ⟨mid, read, stands, dotted⟩ := Lexer.next_of_scan point rfl dot
  have behind : scan (!mid.afterDot) (c :: text ++ rest) = .token token (c :: text).length := by
    rw [dotted]
    exact scanned rest ends
  obtain ⟨after, readOn, standsOn, noDot⟩ := Lexer.next_of_scan stands starts behind
  exact ⟨after, ⟨by simp, _, mid, read, ne_endOfInput_of_scan behind, _, after, readOn, rfl⟩,
    standsOn, noDot.trans (by simpa using other)⟩

/-! ## Single tokens -/

/-- A sign of one character spells its token. -/
theorem spells_single (sign : single? c = some token) (starts : Text.isBlank c = false) :
    Spells [c] [token] nothing := by
  have other : token ≠ .dot := by
    rintro rfl
    cases isSign_of_single? sign
  exact .of_scan starts other fun rest _ => by simp [scan, sign]

/-- Two points spell a descent. -/
theorem spells_dotDot : Spells ['.', '.'] [.dotDot] nothing :=
  .of_scan rfl (by simp) fun rest _ => by simp [scan, single?]

/-- A point and a star spell a wildcard step. -/
theorem spells_dotStar : Spells ['.', '*'] [.dot, .star] nothing :=
  .of_scan_dotted rfl (by decide) (by simp) fun rest _ => by simp [scan, single?]

/-- The sign of a combinator spells it. -/
theorem spells_operator (op : BoolOp) : Spells op.sign.toList [Parser.operator op] nothing := by
  cases op with
  | and =>
    have sign : BoolOp.and.sign.toList = ['&', '&'] := rfl
    rw [sign]
    exact .of_scan rfl (by simp [Parser.operator]) fun rest _ => by
      simp [scan, single?, scanDouble, Parser.operator]
  | or =>
    have sign : BoolOp.or.sign.toList = ['|', '|'] := rfl
    rw [sign]
    exact .of_scan rfl (by simp [Parser.operator]) fun rest _ => by
      simp [scan, single?, scanDouble, Parser.operator]

/-! ## Names and constants -/

/-- A plain name starts with a character that starts names, goes on with characters that continue
them, and is no keyword. -/
theorem isPlainName_iff {name : String} : isPlainName name = true ↔
    ∃ c word, name.toList = c :: word ∧ startsName c = true ∧
      (∀ d ∈ word, continuesName d = true) ∧ keyword? name = none := by
  unfold isPlainName
  cases name.toList with
  | nil => simp
  | cons c word => simp [and_assoc]

/-- A character that starts a name is not blank. -/
theorem not_isBlank_of_startsName (starts : startsName c = true) : Text.isBlank c = false := by
  rw [startsName, Bool.or_eq_true, decide_eq_true_eq] at starts
  rcases starts with alphabetic | rfl
  · exact Text.not_isBlank_of_isAlphabetic alphabetic
  · rfl

/-- A word spells its token. -/
theorem spells_word (starts : startsName c = true) (inside : ∀ d ∈ text, continuesName d = true) :
    Spells (c :: text) [ofWord (String.ofList (c :: text))] continuesName := by
  refine .of_scan (not_isBlank_of_startsName starts) ?_ fun rest ends =>
    scan_word starts inside ends
  intro dot
  cases (congrArg isWord dot).symm.trans (isWord_ofWord _)

/-- A word that is no keyword is a name. -/
theorem ofWord_of_noKeyword {name : String} (noKeyword : keyword? name = none) :
    ofWord name = .identifier name := by
  rw [ofWord, noKeyword, Option.getD_none]

/-- A plain name spells it. -/
theorem spells_name {name : String} (plain : isPlainName name = true) :
    Spells name.toList [.identifier name] continuesName := by
  obtain ⟨c, word, same, starts, inside, noKeyword⟩ := isPlainName_iff.1 plain
  have spells := spells_word starts inside
  rwa [← same, String.ofList_toList, ofWord_of_noKeyword noKeyword] at spells

/-- A point and a plain name spell a field step. -/
theorem spells_dotName {name : String} (plain : isPlainName name = true) :
    Spells ('.' :: name.toList) [.dot, .identifier name] continuesName := by
  obtain ⟨c, word, same, starts, inside, noKeyword⟩ := isPlainName_iff.1 plain
  have noPoint : c ≠ '.' := by
    rintro rfl
    cases starts
  rw [same]
  refine .of_scan_dotted (not_isBlank_of_startsName starts) noPoint (by simp) fun rest ends => ?_
  rw [scan_word starts inside ends, ← same, String.ofList_toList, ofWord_of_noKeyword noKeyword]

/-- An integer starts with a digit or a minus sign. -/
theorem integerText_cons (n : Int) : ∃ c text, Decimal.integerText n = c :: text ∧
    Text.isBlank c = false ∧ c ≠ '.' := by
  unfold Decimal.integerText
  split
  · exact ⟨'-', _, rfl, rfl, by decide⟩
  · have nonempty : Decimal.naturalText n.natAbs ≠ [] := Nat.toDigits_ne_nil
    obtain ⟨c, digits, same⟩ := List.exists_cons_of_ne_nil nonempty
    have digit : c.isDigit = true :=
      Nat.isDigit_of_mem_toDigits (by decide) (by decide) (same ▸ List.mem_cons_self)
    refine ⟨c, digits, same, Text.not_isBlank_of_isNumeric (Text.isNumeric_of_isDigit digit), ?_⟩
    rintro rfl
    cases digit

/-- An integer spells it. -/
theorem spells_integer (n : Int64) :
    Spells (Decimal.integerText n.toInt) [.integer n] (continuesNumber true) := by
  obtain ⟨c, text, same, starts, -⟩ := integerText_cons n.toInt
  rw [same]
  exact .of_scan starts (by simp) fun rest ends => same ▸ scan_integerText ends

/-- A point and an integer spell an index step. -/
theorem spells_dotInteger (n : Int64) :
    Spells ('.' :: Decimal.integerText n.toInt) [.dot, .integer n] (continuesNumber false) := by
  obtain ⟨c, text, same, starts, noPoint⟩ := integerText_cons n.toInt
  rw [same]
  exact .of_scan_dotted starts noPoint (by simp) fun rest ends => same ▸ scan_integerText ends

/-- A quoted text spells it. -/
theorem spells_quoted (content : List Char) :
    Spells (Quoted.write content) [.string (String.ofList content)] nothing :=
  .of_scan rfl (by simp) fun rest _ => scan_quoted content rest

end Token

end PathQuery
