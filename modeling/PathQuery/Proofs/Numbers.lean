import PathQuery.Proofs.Acceptance
import PathQuery.Proofs.Surroundings
/-!
# Numbers in a path

Digits are taken as far as they run, and what they say is never cut down to what fits: an integer is
the exact value of its digits, or it is a fault. Whether a point and a digit behind them are a
fraction depends on the token before. Behind a point they are the next step instead, so that any
integers with points before them are as many index steps.
-/
namespace PathQuery

namespace Token

/-- Whether a text starts with a fraction: a point and a digit. -/
def startsFraction : List Char → Bool
  | '.' :: d :: _ => d.isDigit
  | _ => false

/-- Where no fraction starts none is read. -/
theorem readFraction_of_not_startsFraction {tail : List Char}
    (none : startsFraction tail = false) : readFraction tail = [] := by
  fun_cases readFraction tail with
  | case1 later =>
    cases later with
    | nil => rfl
    | cons d rest =>
      have noDigit : d.isDigit = false := none
      simp [Numeral.readDigits, noDigit]
  | case2 => rfl

/-- A number of whole digits is one behind a point, and where no fraction follows. -/
def IsWhole (last : Option Token) (n : Numeral) (tail : List Char) : Prop :=
  n.fraction = [] ∧ (last = some .dot ∨ startsFraction tail = false)

/-- The whole number lies between `-2 ^ 63` and `2 ^ 63 - 1`. -/
def IsInt64 (value : Int) : Prop :=
  -9223372036854775808 ≤ value ∧ value ≤ 9223372036854775807

/-- A whole number in that range is an integer of 64 bits. -/
theorem IsInt64.exists_int64? {value : Int} (fits : IsInt64 value) :
    ∃ n, Numeral.int64? value = some n :=
  ⟨Int64.ofInt value, if_pos fits⟩

/-- A whole number out of that range is none. -/
theorem int64?_of_not_isInt64 {value : Int} (beyond : ¬ IsInt64 value) :
    Numeral.int64? value = none :=
  if_neg beyond

end Token

namespace Lexer

open Token

/-! ## The token before -/

/-- The last token that a lexer answered with in some calls, if there is one. Faults are none. -/
def lastToken? (l : Lexer) : Nat → Option Token
  | 0 => none
  | count + 1 =>
    match (l.after count).next.1 with
    | .ok found => some found.token
    | .error _ => l.lastToken? count

variable {l : Lexer}

/-- Behind an answer the lexer knows whether it was a point; a fault leaves what it knew before. -/
theorem afterDot_next (l : Lexer) : l.next.2.afterDot =
    match l.next.1 with
    | .ok found => found.token == .dot
    | .error _ => l.afterDot := by
  have answers := l.answers_next
  generalize l.next.1 = answer, l.next.2 = behind at answers
  cases answers with
  | token scanned within => rfl
  | fault scanned before within => rfl

/-- However often it was asked, a lexer knows whether the last token was a point. -/
theorem afterDot_after (noDot : l.afterDot = false) (count : Nat) :
    (l.after count).afterDot = (l.lastToken? count == some .dot) := by
  induction count with
  | zero => exact noDot
  | succ count ih =>
    rw [after_add l count 1, after, after, afterDot_next, lastToken?]
    cases (l.after count).next.1 with
    | ok found => rfl
    | error e => exact ih

/-! ## In front of a number -/

/-- A number stands in front of the lexer, behind blanks. No digit follows it. -/
structure Faces (l : Lexer) (n : Numeral) (tail : List Char) : Prop where
  /-- The number has whole digits and no exponent. -/
  plain : Plain n
  /-- The number is what comes next. -/
  front : l.skipBlank.rest = numeralText n ++ tail
  /-- Its digits are all that there are. -/
  noDigit : Ends Char.isDigit tail

/-- The lexer answers with a token, takes a number for it, and no character more. -/
def Takes (l : Lexer) (n : Numeral) (token : Token) : Prop :=
  l.next = (.ok ⟨token, l.skipBlank.position⟩,
    { l.skipBlank.advance (numeralText n).length with afterDot := false })

/-- How a lexer answers in front of a number, behind its last token. -/
structure Exact (l : Lexer) (last : Option Token) (n : Numeral) (tail : List Char) : Prop where
  /-- Whole digits that fit 64 bits are the integer that they say. -/
  fits : IsWhole last n tail → IsInt64 n.wholeValue →
    ∃ value : Int64, value.toInt = n.wholeValue ∧ l.Takes n (.integer value)
  /-- Whole digits that do not fit are a fault at their start, and they are left behind. -/
  beyond : IsWhole last n tail → ¬ IsInt64 n.wholeValue →
    l.next = (.error ⟨.malformedNumber (String.ofList (numeralText n)), l.skipBlank.position⟩,
      l.skipBlank.advance (numeralText n).length)
  /-- With a fraction, and not behind a point, they are the nearest floating-point number. -/
  fraction : n.fraction ≠ [] → last ≠ some .dot → l.Takes n (.float n.decimal.nearest)

variable {last : Option Token} {n : Numeral} {tail : List Char}

/-- A number in front is scanned as what it says. -/
theorem Faces.scan (faces : l.Faces n tail) (known : l.afterDot = (last == some .dot))
    (allowed : n.fraction ≠ [] → last ≠ some .dot)
    (noFraction : n.fraction = [] → last = some .dot ∨ startsFraction tail = false) :
    scan (!l.afterDot) l.skipBlank.rest = scanOfNumeral n := by
  rw [faces.front]
  refine scan_of_closes faces.plain (fun some => ?_) ⟨faces.noDigit, fun pointed whole => ?_⟩
  · rw [known, Bool.not_eq_true', beq_eq_false_iff_ne]
    exact allowed some
  · rw [known, Bool.not_eq_true', beq_eq_false_iff_ne] at pointed
    exact readFraction_of_not_startsFraction ((noFraction whole).resolve_left pointed)

/-- What is scanned for a number in front is taken. -/
theorem takes_of_scan {token : Token} (noDot : (token == .dot) = false)
    (scanned : scan (!l.afterDot) l.skipBlank.rest = .token token (numeralText n).length) :
    l.Takes n token := by
  rw [Takes, next_of_scan_skipBlank scanned, noDot]

/-- In front of a number a lexer that knows the token before answers exactly. -/
theorem Faces.exact (faces : l.Faces n tail) (known : l.afterDot = (last == some .dot)) :
    l.Exact last n tail where
  fits whole inside := by
    obtain ⟨value, fits⟩ := inside.exists_int64?
    have scanned := faces.scan known (absurd whole.1) fun _ => whole.2
    simp only [scanOfNumeral, whole.1, if_true, fits] at scanned
    exact ⟨value, Numeral.toInt_of_int64? fits, takes_of_scan rfl scanned⟩
  beyond whole beyond := by
    have scanned := faces.scan known (absurd whole.1) fun _ => whole.2
    simp only [scanOfNumeral, whole.1, if_true, int64?_of_not_isInt64 beyond] at scanned
    exact next_of_fault_skipBlank scanned
  fraction some other := by
    have scanned := faces.scan known (fun _ => other) fun none => absurd none some
    rw [scanOfNumeral, if_neg some] at scanned
    exact takes_of_scan rfl scanned

end Lexer

/-! ## Indices behind points -/

/-- The integers of some index steps, each behind a point. -/
def indexText : List Int64 → List Char
  | [] => []
  | n :: later => '.' :: (Decimal.integerText n.toInt ++ indexText later)

/-- The tokens of some index steps, of which the first stands at an offset. -/
def indexTokens (p : Nat) : List Int64 → List Located
  | [] => []
  | n :: later => ⟨.dot, p⟩ :: ⟨.integer n, p + 1⟩ ::
      indexTokens (p + 1 + (Decimal.integerText n.toInt).length) later

/-- The object with some index steps behind it, of which the first stands at an offset. -/
def Expr.indexed (object : Expr) (p : Nat) : List Int64 → Expr
  | [] => object
  | n :: later => (Expr.index p object n).indexed
      (p + 1 + (Decimal.integerText n.toInt).length) later

/-- Integers behind points are cut into points and integers. -/
theorem Lexer.tokens_of_indexText (indices : List Int64) (p : Nat) :
    ∃ finish, (Lexer.mk (indexText indices) p false).tokens =
      .ok ⟨indexTokens p indices, finish⟩ := by
  induction indices generalizing p with
  | nil =>
    obtain ⟨after, ended⟩ := next_of_nil (rfl : (Lexer.mk (indexText []) p false).rest = [])
    exact ⟨p, tokens_of_end ended⟩
  | cons n later ih =>
    obtain ⟨finish, behind⟩ := ih (p + 1 + (Decimal.integerText n.toInt).length)
    have apart : Token.Ends (Token.continuesNumber false) (indexText later) := by
      cases later with
      | nil => exact Token.ends_nil
      | cons => exact Token.ends_cons.2 rfl
    have scanned : Token.scan (!true) (Decimal.integerText n.toInt ++ indexText later) =
        .token (.integer n) (Decimal.integerText n.toInt).length := Token.scan_integerText apart
    obtain ⟨c, digits, same, starts, noPoint⟩ := Token.integerText_cons n.toInt
    rw [same] at scanned behind
    have integer := tokens_of_front scanned starts behind
    have lone : (c :: digits ++ indexText later).head? ≠ some '.' := by simpa using noPoint
    have point : Token.scan (!false) ('.' :: [] ++ (c :: digits ++ indexText later)) =
        .token .dot 1 := if_neg lone
    have whole := tokens_of_front point rfl integer
    rw [indexText, indexTokens, same]
    exact ⟨finish, whole⟩

/-- A path with index steps behind it is a path. -/
theorem Grammar.Path.indexed {Nested : List Located → Expr → Prop} {s : List Located}
    {object : Expr} (path : Path Nested s object) (indices : List Int64) (p : Nat) :
    Path Nested (s ++ indexTokens p indices) (object.indexed p indices) := by
  induction indices generalizing s object p with
  | nil => simpa [indexTokens, Expr.indexed] using path
  | cons n later ih =>
    have more := ih (.step p path (.index n p (p + 1)))
      (p + 1 + (Decimal.integerText n.toInt).length)
    simpa [indexTokens, Expr.indexed, Step.apply] using more

/-- The document with integers behind points is the document with as many index steps. -/
theorem Expr.ofText_indexText (indices : List Int64) :
    ofText (String.ofList ('$' :: indexText indices)) = .ok ((root 0).indexed 1 indices) := by
  obtain ⟨finish, behind⟩ := Lexer.tokens_of_indexText indices 1
  have dollar : Token.scan (!false) ('$' :: [] ++ indexText indices) = .token .dollar 1 := rfl
  have tokens := Lexer.tokens_of_front dollar rfl behind
  have derived : Grammar.Derives nestingLimit (⟨.dollar, 0⟩ :: indexTokens 1 indices)
      ((root 0).indexed 1 indices) :=
    .operand (.operand (.indexed (.primary (.root 0)) indices 1))
  rw [ofText, TokenStream.ofText, Lexer.ofText, String.toList_ofList]
  have cut : (Lexer.mk ('$' :: indexText indices) 0 false).tokens = _ := tokens
  simp only [cut]
  exact (Parser.readWhole_ok_iff finish).2 derived

/-- However a lexer came to stand in front of a number, it answers exactly; and the document with
integers behind points is the document with as many index steps. -/
theorem Lexer.exact_and_ofText_indexText :
    (∀ (source : String) (count : Nat) (n : Numeral) (tail : List Char),
      ((ofText source).after count).Faces n tail →
        ((ofText source).after count).Exact ((ofText source).lastToken? count) n tail) ∧
    ∀ indices : List Int64,
      Expr.ofText (String.ofList ('$' :: indexText indices)) =
        .ok ((Expr.root 0).indexed 1 indices) :=
  ⟨fun _ count _ _ faces => faces.exact (afterDot_after rfl count), Expr.ofText_indexText⟩

/-- Behind a point the digits before another point are an integer; an integer that is one too small
is a fault; behind that fault, and not behind a point, a fraction belongs to the number. -/
theorem Lexer.exact_and_ofText_indexText_dotted :
    let l := ofText ".0.5 -9223372036854775809 1.50.7"
    let zero : Numeral := ⟨false, ['0'], [], none⟩
    let large : Numeral := ⟨true, "9223372036854775809".toList, [], none⟩
    let half : Numeral := ⟨false, ['1'], ['5', '0'], none⟩
    (∃ value : Int64, value.toInt = zero.wholeValue ∧ (l.after 1).Takes zero (.integer value)) ∧
      large.wholeValue = -9223372036854775809 ∧ (l.after 4).next =
        (.error ⟨.malformedNumber "-9223372036854775809", 5⟩, ⟨" 1.50.7".toList, 25, false⟩) ∧
      (l.after 5).Takes half (.float (Decimal.nearest ⟨false, 150, -2⟩)) ∧
      Expr.ofText "$.0.-5" = .ok (.index 3 (.index 1 (.root 0) 0) (-5)) := by
  intro l zero large half
  obtain ⟨exact, indices⟩ := exact_and_ofText_indexText
  have digits {text : List Char} (all : text.all Char.isDigit = true) :
      ∀ c ∈ text, c.isDigit = true := List.all_eq_true.1 all
  have first : (l.after 1).Faces zero ".5 -9223372036854775809 1.50.7".toList :=
    ⟨⟨by decide, digits rfl, digits rfl, rfl⟩, by decide +kernel, Token.ends_cons.2 rfl⟩
  have second : (l.after 4).Faces large " 1.50.7".toList :=
    ⟨⟨by decide, digits rfl, digits rfl, rfl⟩, by decide +kernel, Token.ends_cons.2 rfl⟩
  have third : (l.after 5).Faces half ".7".toList :=
    ⟨⟨by decide, digits rfl, digits rfl, rfl⟩, by decide +kernel, Token.ends_cons.2 rfl⟩
  have value : large.wholeValue = -9223372036854775809 := by decide +kernel
  have beyond : ¬ Token.IsInt64 large.wholeValue := by
    rw [value]
    exact fun inside => absurd inside.1 (by decide)
  refine ⟨?_, value, ?_, ?_, ?_⟩
  · exact (exact _ 1 _ _ first).fits ⟨rfl, .inl (by decide +kernel)⟩ ⟨by decide, by decide⟩
  · exact (exact _ 4 _ _ second).beyond ⟨rfl, .inr (by decide)⟩ beyond
  · exact (exact _ 5 _ _ third).fraction (by decide) (by decide +kernel)
  · exact indices [0, -5]

end PathQuery
