import PathQuery.Proofs.Coverage
import PathQuery.Proofs.Rendering
/-!
# Which floating-point numbers are read as such

Lexers and libraries for JSON values tell a floating-point number from an integer by its fraction. A
finite number is written with one, unless it is whole and not below ten to the sixteenth: then its
shortest digits stand without a point. Where these fit 64 bits, they are an integer to both; where
they do not, a lexer refuses them, and what a library reads is a floating-point number, if it reads
them at all.
-/
namespace PathQuery

/-! ## Numbers that stand alone -/

namespace Token

/-- A number starts with a character that is no blank, and is scanned from there as its digits
say. -/
theorem scan_front_numeralText {n : Numeral} (plain : Plain n) :
    ∃ c rest, numeralText n = c :: rest ∧ Text.isBlank c = false ∧
      scan true (c :: rest) = scanOfNumeral n := by
  have nonempty : numeralText n ≠ [] := by simp [numeralText, plain.nonempty]
  obtain ⟨c, rest, same⟩ := List.exists_cons_of_ne_nil nonempty
  have positional := Decimal.isPositional_of_mem_numeralText plain (same ▸ List.mem_cons_self)
  have scanned : scan true (numeralText n ++ []) = scanOfNumeral n :=
    scan_numeralText plain (fun _ => rfl) ends_nil
  rw [List.append_nil, same] at scanned
  exact ⟨c, rest, same, Decimal.not_isBlank_of_isPositional positional, scanned⟩

/-- Alone, a number is the token that its digits say. -/
theorem tokens_numeralText {n : Numeral} {token : Token} {width : Nat} (plain : Plain n)
    (said : scanOfNumeral n = .token token width) :
    TokenStream.ofText (String.ofList (numeralText n)) = .ok ⟨[⟨token, 0⟩], width⟩ := by
  have length := length_of_scanOfNumeral said
  obtain ⟨c, rest, same, starts, scanned⟩ := scan_front_numeralText plain
  rw [TokenStream.ofText, Lexer.ofText, String.toList_ofList]
  rw [same] at length ⊢
  have alone := Lexer.tokens_of_lexeme starts (scanned.trans said)
  rwa [← length, List.take_length, length] at alone

/-- Alone, a number that is no token is the fault that its digits are. -/
theorem fault_numeralText {n : Numeral} {fault : LexFault} {offset width : Nat} (plain : Plain n)
    (said : scanOfNumeral n = .fault fault offset width) :
    TokenStream.ofText (String.ofList (numeralText n)) = .error ⟨fault, offset⟩ := by
  obtain ⟨c, rest, same, starts, scanned⟩ := scan_front_numeralText plain
  rw [TokenStream.ofText, Lexer.ofText, String.toList_ofList, same]
  let l : Lexer := ⟨c :: rest, 0, false⟩
  have atStart : l.skipBlank = l := Lexer.skipBlank_of_ends (ends_cons.2 starts)
  have read : l.next = (.error ⟨fault, offset⟩, l.advance width) := by
    simp only [Lexer.next, atStart]
    simp only [l, Bool.not_false, scanned, said, Nat.zero_add]
  exact Lexer.tokens_of_fault read

end Token

/-! ## What the readers make of a number -/

namespace Node

open Decimal (Unpointed integerText strict_numeralOfInt)
open Token (Strict Plain numeralText numeralOfInt scanOfNumeral plain_numeralOfInt)

variable {N : Type} {library : JsonLibrary N}

/-- A lexer and a library take a text for a floating-point number. -/
structure ReadsAsFloat (library : JsonLibrary N) (text : String) : Prop where
  /-- The lexer reads a floating-point number and nothing else. -/
  token : ∃ y finish, TokenStream.ofText text = .ok ⟨[⟨.float y, 0⟩], finish⟩
  /-- The document that the library reads is a floating-point number. -/
  node : ∃ y, library.document? text = some (.float y)

/-- A lexer and a library take a text for an integer, the same one. -/
structure ReadsAsInteger (library : JsonLibrary N) (text : String) (n : Int64) : Prop where
  /-- The lexer reads the integer and nothing else. -/
  token : ∃ finish, TokenStream.ofText text = .ok ⟨[⟨.integer n, 0⟩], finish⟩
  /-- The document that the library reads is the integer. -/
  node : library.document? text = some (.integer n)

/-- The lexer refuses a text, and a library takes it for a floating-point number if for anything. -/
structure ReadsAsOversized (library : JsonLibrary N) (text : String) : Prop where
  /-- The lexer finds a number that does not fit 64 bits. -/
  fault : TokenStream.ofText text = .error ⟨.malformedNumber text, 0⟩
  /-- A document that the library reads is a floating-point number. -/
  node : ∀ node, library.document? text = some node → ∃ y, node = .float y

/-- No text is read as a floating-point number and as an integer. -/
theorem ReadsAsFloat.not_integer {text : String} {n : Int64} (reads : ReadsAsFloat library text) :
    ¬ReadsAsInteger library text n := by
  rintro ⟨-, integer⟩
  obtain ⟨y, float⟩ := reads.node
  cases float.symm.trans integer

/-- No text is read as a floating-point number by the lexer and refused by it. -/
theorem ReadsAsFloat.not_oversized {text : String} (reads : ReadsAsFloat library text) :
    ¬ReadsAsOversized library text := by
  rintro ⟨refused, -⟩
  obtain ⟨y, finish, read⟩ := reads.token
  cases read.symm.trans refused

/-- The document of a numeral that is no integer of 64 bits is a floating-point number, if there is
one. -/
theorem exists_float_of_document? (standard : library.Standard) {n : Numeral} (strict : Strict n)
    (other : n.integer? = none) {node : Node}
    (read : library.document? (String.ofList (numeralText n)) = some node) :
    ∃ y, node = .float y := by
  rw [standard.document?_numeralText strict] at read
  obtain ⟨number, found, rfl⟩ := Option.map_eq_some_iff.1 read
  have kind := standard.kind found
  rw [other] at kind
  refine ⟨(library.numbers.float? number).getD (Float.ofBits 0x7ff8000000000000), ?_⟩
  simp only [JsonValue.toNode, kind]

/-- A number with a fraction is read as a floating-point number, if what stands before its point is
less than ten to the sixteenth. -/
theorem readsAsFloat_of_fraction (standard : library.Standard) {n : Numeral} (strict : Strict n)
    (fraction : n.fraction ≠ []) (small : Decimal.digitsValue n.whole < 10000000000000000) :
    ReadsAsFloat library (String.ofList (numeralText n)) := by
  have said : scanOfNumeral n = .token (.float n.decimal.nearest) (numeralText n).length :=
    if_neg fraction
  refine ⟨⟨_, _, Token.tokens_numeralText strict.toPlain said⟩, ?_⟩
  have other : n.integer? = none := if_neg fun whole => fraction whole.1
  obtain ⟨number, found⟩ := standard.fraction ⟨fraction, strict.fraction⟩ strict.exponent small
  have read := standard.document?_numeralText strict
  rw [found, Option.map_some] at read
  obtain ⟨y, float⟩ := exists_float_of_document? standard strict other read
  exact ⟨y, read.trans (congrArg some float)⟩

/-- An integer of 64 bits is read as an integer. -/
theorem readsAsInteger_of_fits (standard : library.Standard) {value : Int} {n : Int64}
    (fits : Numeral.int64? value = some n) :
    ReadsAsInteger library (String.ofList (integerText value)) n := by
  have said : scanOfNumeral (numeralOfInt value) =
      .token (.integer n) (numeralText (numeralOfInt value)).length := by
    have whole : (numeralOfInt value).fraction = [] := rfl
    rw [scanOfNumeral, if_pos whole, Token.wholeValue_numeralOfInt, fits]
  rw [← Token.numeralText_numeralOfInt]
  refine ⟨⟨_, Token.tokens_numeralText (plain_numeralOfInt value) said⟩, ?_⟩
  have written := (Numeral.integer?_numeralOfInt value).trans fits
  obtain ⟨number, found⟩ := standard.integer written
  have kind := (standard.kind found).trans written
  rw [standard.document?_numeralText (strict_numeralOfInt value), found, Option.map_some]
  simp only [JsonValue.toNode, kind]

/-- An integer of more than 64 bits is refused by the lexer, and is no integer in a document. -/
theorem readsAsOversized_of_large (standard : library.Standard) {value : Int}
    (large : Numeral.int64? value = none) :
    ReadsAsOversized library (String.ofList (integerText value)) := by
  have said : scanOfNumeral (numeralOfInt value) =
      .fault (.malformedNumber (String.ofList (numeralText (numeralOfInt value)))) 0
        (numeralText (numeralOfInt value)).length := by
    have whole : (numeralOfInt value).fraction = [] := rfl
    rw [scanOfNumeral, if_pos whole, Token.wholeValue_numeralOfInt, large]
  have other := (Numeral.integer?_numeralOfInt value).trans large
  rw [← Token.numeralText_numeralOfInt]
  exact ⟨Token.fault_numeralText (plain_numeralOfInt value) said,
    fun _ => exists_float_of_document? standard (strict_numeralOfInt value) other⟩

variable {x : Float} {negative : Bool} {m : Nat} {e : Int}

/-- A finite number that is written without a point is read as an integer where it has 63 bits, and
is too large for one where it has more. -/
theorem reads_of_unpointed (standard : library.Standard) (layout : Layout)
    (parts : Binary.ofFloat x = .finite negative m e) (unpointed : Unpointed m e) :
    (Binary.wholePart m e < 2 ^ 63 →
      ∃ n, ReadsAsInteger library ((Node.float x).render layout) n) ∧
    (2 ^ 63 ≤ Binary.wholePart m e →
      ReadsAsOversized library ((Node.float x).render layout)) := by
  obtain ⟨n, positive, text, small, large⟩ := Decimal.exists_integerText_floatText parts unpointed
  have written : (Node.float x).render layout = String.ofList (floatText x) := rfl
  rw [written, text]
  have low : Int64.minValue.toInt = -2 ^ 63 := rfl
  have high : Int64.maxValue.toInt = 2 ^ 63 - 1 := rfl
  refine ⟨fun below => ?_, fun above => ?_⟩
  · have bits := small below
    refine ⟨_, readsAsInteger_of_fits standard (if_pos ?_)⟩
    rw [low, high]
    split <;> omega
  · have bits := large above
    refine readsAsOversized_of_large standard (if_neg ?_)
    rw [low, high]
    split <;> omega

/-- A finite number is written so that a lexer and every library of the standard kind take it for a
floating-point number, unless it is whole and not below ten to the sixteenth. Below two to the
sixty-third such a number is an integer to both, and from there on the lexer refuses it. -/
theorem readsAsFloat_iff (standard : library.Standard) (layout : Layout)
    (parts : Binary.ofFloat x = .finite negative m e) :
    (ReadsAsFloat library ((Node.float x).render layout) ↔ ¬Unpointed m e) ∧
    (Unpointed m e → Binary.wholePart m e < 2 ^ 63 →
      ∃ n, ReadsAsInteger library ((Node.float x).render layout) n) ∧
    (Unpointed m e → 2 ^ 63 ≤ Binary.wholePart m e →
      ReadsAsOversized library ((Node.float x).render layout)) := by
  refine ⟨⟨fun reads unpointed => ?_, fun pointed => ?_⟩,
    fun unpointed => (reads_of_unpointed standard layout parts unpointed).1,
    fun unpointed => (reads_of_unpointed standard layout parts unpointed).2⟩
  · obtain ⟨small, large⟩ := reads_of_unpointed standard layout parts unpointed
    rcases Nat.lt_or_ge (Binary.wholePart m e) (2 ^ 63) with below | above
    · obtain ⟨n, integer⟩ := small below
      exact reads.not_integer integer
    · exact reads.not_oversized (large above)
  · obtain ⟨n, strict, fraction, text, small⟩ :=
      Decimal.exists_fraction_floatText parts pointed
    have written : (Node.float x).render layout = String.ofList (floatText x) := rfl
    rw [written, ← text]
    exact readsAsFloat_of_fraction standard strict fraction small

/-- A tenth is read as a floating-point number, ten to the sixteenth as an integer, and ten to the
nineteenth is too large for one. -/
theorem readsAsFloat_iff_powers_of_ten :
    let library := JsonLibrary.nearest
    ReadsAsFloat library ((Node.float (Float.ofBits 0x3fb999999999999a)).render .compact) ∧
    (∃ n, ReadsAsInteger library ((Node.float (Float.ofBits 0x4341c37937e08000)).render .compact)
      n) ∧
    ReadsAsOversized library ((Node.float (Float.ofBits 0x43e158e460913d00)).render .compact) := by
  intro library
  have standard : library.Standard := JsonLibrary.standard_nearest
  have tenth : Binary.ofFloat (Float.ofBits 0x3fb999999999999a) =
      .finite false 7205759403792794 (-56) := by decide +kernel
  have sixteenth : Binary.ofFloat (Float.ofBits 0x4341c37937e08000) =
      .finite false 5000000000000000 1 := by decide +kernel
  have nineteenth : Binary.ofFloat (Float.ofBits 0x43e158e460913d00) =
      .finite false 4882812500000000 11 := by decide +kernel
  refine ⟨(readsAsFloat_iff standard .compact tenth).1.2 ?_,
    (readsAsFloat_iff standard .compact sixteenth).2.1 ?_ ?_,
    (readsAsFloat_iff standard .compact nineteenth).2.2 ?_ ?_⟩
  · simp only [Unpointed]
    decide
  · simp only [Unpointed]
    decide
  · decide
  · simp only [Unpointed]
    decide
  · decide

/-- Ten to the sixteenth is finite, is written without a point, and is an integer to a lexer and to
a library: not every finite number is read as a floating-point number. -/
theorem not_readsAsFloat_unpointed :
    (Binary.ofFloat (Float.ofBits 0x4341c37937e08000)).isFinite = true ∧
    (Node.float (Float.ofBits 0x4341c37937e08000)).compact = "10000000000000000" ∧
    ReadsAsInteger JsonLibrary.nearest "10000000000000000" 10000000000000000 ∧
    ¬∀ x layout, (Binary.ofFloat x).isFinite = true →
      ReadsAsFloat JsonLibrary.nearest ((Node.float x).render layout) := by
  have finite : (Binary.ofFloat (Float.ofBits 0x4341c37937e08000)).isFinite = true := by
    decide +kernel
  have digits : floatText (Float.ofBits 0x4341c37937e08000) = integerText 10000000000000000 := by
    decide +kernel
  have text : (Node.float (Float.ofBits 0x4341c37937e08000)).render .compact =
      "10000000000000000" := congrArg String.ofList digits
  have integer : ReadsAsInteger JsonLibrary.nearest "10000000000000000" 10000000000000000 :=
    @readsAsInteger_of_fits _ _ JsonLibrary.standard_nearest 10000000000000000 _ (by decide)
  refine ⟨finite, text, integer, fun every => ?_⟩
  have reads := every _ .compact finite
  rw [text] at reads
  exact reads.not_integer integer

end Node

end PathQuery
