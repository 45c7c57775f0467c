import PathQuery.Proofs.Prompt
/-!
# Refused tokens

A refusal names the first token that is at fault. Before it the tokens can still go on to an
expression, wherever the tokens that are added stand; with it they cannot, and the refusal is the
same whatever follows.
-/
namespace PathQuery

namespace Grammar

/-! ## No phrase holds an end -/

/-- None of the tokens is an end of the text. -/
def Endless (s : List Located) : Prop := ∀ found ∈ s, found.token ≠ .endOfInput

variable {s t : List Located} {Nested : List Located → Expr → Prop}

/-- Tokens hold no end if neither the first nor the others are one. -/
@[simp]
theorem endless_cons {first : Located} :
    Endless (first :: s) ↔ first.token ≠ .endOfInput ∧ Endless s :=
  List.forall_mem_cons

/-- Two rows of tokens hold no end if neither does. -/
@[simp]
theorem endless_append : Endless (s ++ t) ↔ Endless s ∧ Endless t :=
  List.forall_mem_append

/-- No tokens hold no end. -/
@[simp]
theorem endless_nil : Endless [] := nofun

/-- A name holds no end. -/
theorem Name.endless {name : String} (found : Name s name) : Endless s := by
  cases found <;> simp

/-- An optional name holds no end. -/
theorem NameOrNothing.endless {name : Option String} (found : NameOrNothing s name) :
    Endless s := by
  cases found with
  | nothing => exact endless_nil
  | name found => exact found.endless

/-- The start of a path holds no end if no nested expression does. -/
theorem Primary.endless (nested : ∀ s e, Nested s e → Endless s) {e : Expr}
    (start : Primary Nested s e) : Endless s := by
  cases start with
  | root | name | star => simp
  | descent p found => simp [found.endless]
  | @literal token _ p found =>
    have inside : token ≠ .endOfInput := by
      rintro rfl
      cases found
    simp [inside]
  | group p q inner => simp [nested _ _ inner]

/-- A step holds no end if no nested expression does. -/
theorem StepAt.endless (nested : ∀ s e, Nested s e → Endless s) {p : Nat} {step : Step}
    (found : StepAt Nested p s step) : Endless s := by
  cases found with
  | field p found | descent p found => simp [found.endless]
  | index | wildcard | starInBrackets | nameInBrackets => simp
  | key p r inner other => simp [nested _ _ inner]

/-- A path holds no end if no nested expression does. -/
theorem Path.endless (nested : ∀ s e, Nested s e → Endless s) {e : Expr} (path : Path Nested s e) :
    Endless s := by
  induction path with
  | primary start => exact start.endless nested
  | step p _ last before => exact endless_append.2 ⟨before, last.endless nested⟩

/-- A combination holds no end if no operand does. -/
theorem Combination.endless {op : BoolOp} (operands : ∀ s e, Nested s e → Endless s) {e : Expr}
    (combination : Combination op Nested s e) : Endless s := by
  induction combination with
  | operand only => exact operands _ _ only
  | combine p _ last before =>
    have inside : Parser.operator op ≠ .endOfInput := by cases op <;> decide
    simp [before, inside, operands _ _ last]

/-- Tokens that derive an expression hold no end. -/
theorem Derives.endless (levels : Nat) : ∀ s e, Derives levels s e → Endless s := by
  induction levels with
  | zero => exact fun _ _ derived => derived.elim
  | succ levels deeper =>
    exact fun _ _ => Combination.endless fun _ _ => Combination.endless fun _ _ =>
      Path.endless deeper

end Grammar

open Grammar

namespace Parser

/-- Tokens that can go on to an expression do so with further ones that stand anywhere. -/
theorem Viable.anywhere {levels : Nat} {s : List Located} (viable : Viable (Derives levels) s) :
    ∃ later : List Token, .endOfInput ∉ later ∧
      ∀ placed : List Located, placed.map Located.token = later →
        ∃ e, Derives levels (s ++ placed) e := by
  obtain ⟨more, e, derived⟩ := viable
  refine ⟨more.map Located.token, ?_, fun placed same => ?_⟩
  · intro member
    obtain ⟨found, inside, isEnd⟩ := List.mem_map.1 member
    have endless := (endless_append.1 (Derives.endless levels _ _ derived)).2
    exact endless found inside isEnd
  · have tokens : (s ++ placed).map Located.token = (s ++ more).map Located.token := by
      simp [same]
    obtain ⟨f, found, -⟩ := Derives.placeFree levels derived tokens
    exact ⟨f, found⟩

/-- Tokens are refused where they cannot go on to an expression, and not before. -/
theorem readWhole_refuses {finish levels : Nat} {tokens : List Located} {expected : Expectation}
    {found : Located} (endless : Endless tokens)
    (refused : (readWhole finish levels tokens).Refuses expected found) :
    ∃ s rest, tokens = s ++ rest ∧ current finish rest = found ∧ Viable (Derives levels) s ∧
      ∀ finish' rest', current finish' rest' = found →
        (readWhole finish' levels (s ++ rest')).Refuses expected found := by
  have prompt := prompt_expr levels finish tokens
  rcases Reading.refuses_andThen.1 refused with early | ⟨e, mid, _, read, late⟩
  · obtain ⟨s, rest, split, same, viable, always⟩ := prompt.refuses expected found early
    exact ⟨s, rest, split, same, viable, fun finish' rest' next =>
      Reading.refuses_andThen.2 (.inl (always finish' rest' next))⟩
  · cases mid with
    | nil => cases late
    | cons first later =>
      obtain ⟨rfl, rfl⟩ : .endOfInput = expected ∧ first = found := by
        simpa [Reading.Refuses, refuse, current] using late
      obtain ⟨s, rfl, again⟩ := prompt.takes e _ read
      have derived : Derives levels s e := (readExpr_sound finish levels).phrase read
      refine ⟨s, first :: later, rfl, rfl, ⟨[], e, by rwa [List.append_nil]⟩, ?_⟩
      intro finish' rest' next
      have inside : first.token ≠ .endOfInput :=
        (endless_cons.1 (endless_append.1 endless).2).1
      -- the end is no token of the text, so what comes next is left over
      obtain ⟨later', rfl⟩ := eq_cons_of_current inside next
      have shorter : (first :: later').length ≤ (s ++ first :: later').length := by simp
      exact Reading.refuses_andThen.2
        (.inr ⟨e, first :: later', shorter, again finish' (first :: later') next, rfl⟩)

end Parser

namespace TokenStream

/-! ## Tokens and their end -/

variable {s : TokenStream} {front rest : List Located} {found : Located}

/-- Behind some tokens the current one comes next, the end included. -/
theorem toList_of_tokens (split : s.tokens = front ++ rest)
    (next : Parser.current s.finish rest = found) : ∃ more, s.toList = front ++ found :: more := by
  cases rest with
  | nil => exact ⟨[], by rw [toList, split, ← next]; simp [Parser.current]⟩
  | cons first later =>
    refine ⟨later ++ [⟨.endOfInput, s.finish⟩], ?_⟩
    rw [toList, split, ← next]
    simp [Parser.current]

/-- What comes next behind some tokens, the end included, is the current one there. -/
theorem tokens_of_toList {more : List Located} (split : s.toList = front ++ found :: more) :
    ∃ rest, s.tokens = front ++ rest ∧ Parser.current s.finish rest = found := by
  rcases List.eq_nil_or_concat more with rfl | ⟨others, last, rfl⟩
  · obtain ⟨tokens, same⟩ := List.append_inj' split rfl
    exact ⟨[], by simpa using tokens, (List.cons.inj same).1⟩
  · have longer : s.tokens ++ [⟨.endOfInput, s.finish⟩] = (front ++ found :: others) ++ [last] := by
      simpa [toList] using split
    obtain ⟨tokens, -⟩ := List.append_inj' longer rfl
    exact ⟨found :: others, tokens, rfl⟩

/-! ## The token at fault -/

/-- The token at an index, the end included, is the first one at fault. -/
structure FaultyAt (s : TokenStream) (expected : Expectation) (found : Located) (k : Nat) :
    Prop where
  /-- It is the token that the error names. -/
  stands : s.toList[k]? = some found
  /-- The message describes it and gives its offset. -/
  described : (ParseError.unexpected expected found).message =
    "expected " ++ expected.description ++ " but found " ++ found.token.description
      ++ " at position " ++ toString found.position
  /-- No other token stands at its offset, where no two tokens stand at the same one. -/
  only : (s.toList.map Located.position).Nodup → ∀ j other, s.toList[j]? = some other →
    other.position = found.position → j = k
  /-- The tokens before it go on to an expression, with further tokens that stand anywhere. -/
  viable : ∃ later : List Token, .endOfInput ∉ later ∧
    ∀ placed : List Located, placed.map Located.token = later → ∀ finish,
      ∃ e, (TokenStream.mk (s.toList.take k ++ placed) finish).parse.1 = .ok e
  /-- Whatever follows it, parsing fails with the same error. -/
  hopeless : ∀ t : TokenStream, s.toList.take (k + 1) <+: t.toList →
    t.parse.1 = .error (.unexpected expected found)

/-- Where parsing finds another token than it expects, that is the first token at fault. Only the
end of the tokens is an end, as in those of a text. -/
theorem faultyAt_of_parse {expected : Expectation} (inside : Endless s.tokens)
    (failed : s.parse.1 = .error (.unexpected expected found)) :
    ∃ k, s.FaultyAt expected found k := by
  obtain ⟨front, rest, split, next, viable, always⟩ := Parser.readWhole_refuses inside failed
  obtain ⟨more, whole⟩ := toList_of_tokens split next
  have before : s.toList.take front.length = front := by
    rw [whole, List.take_left]
  have upTo : s.toList.take (front.length + 1) = front ++ [found] := by
    rw [whole, List.take_length_add_append]
    rfl
  have stands : s.toList[front.length]? = some found := by
    simp [whole]
  refine ⟨front.length, stands, rfl, ?_, ?_, ?_⟩
  · intro apart j other there same
    have short : j < (s.toList.map Located.position).length := by
      rw [List.length_map]
      exact (List.getElem?_eq_some_iff.1 there).1
    refine (List.getElem?_inj short apart).1 ?_
    rw [List.getElem?_map, List.getElem?_map, there, stands]
    exact congrArg some same
  · obtain ⟨later, endless, anywhere⟩ := viable.anywhere
    refine ⟨later, endless, fun placed same finish => ?_⟩
    obtain ⟨e, derived⟩ := anywhere placed same
    rw [before]
    exact ⟨e, (Parser.readWhole_ok_iff finish).2 derived⟩
  · rintro t ⟨others, starts⟩
    rw [upTo, List.append_assoc] at starts
    obtain ⟨rest', tokens, next'⟩ := tokens_of_toList starts.symm
    have refused := always t.finish rest' next'
    rw [← tokens] at refused
    exact refused

/-- Behind `a[*` a closing bracket has to come: the token at fault is the one in its place. -/
theorem faultyAt_of_parse_brackets :
    let s : TokenStream :=
      ⟨[⟨.identifier "a", 0⟩, ⟨.leftBracket, 1⟩, ⟨.star, 2⟩, ⟨.dollar, 4⟩], 5⟩
    Endless s.tokens ∧ s.parse.1 = .error (.unexpected .rightBracket ⟨.dollar, 4⟩) ∧
      s.FaultyAt .rightBracket ⟨.dollar, 4⟩ 3 := by
  intro s
  have inside : Endless s.tokens := by simp [s]
  have failed : s.parse.1 = .error (.unexpected .rightBracket ⟨.dollar, 4⟩) := by
    with_unfolding_all rfl
  obtain ⟨k, fault⟩ := faultyAt_of_parse inside failed
  obtain rfl : 3 = k := fault.only (by decide) 3 ⟨.dollar, 4⟩ rfl rfl
  exact ⟨inside, failed, fault⟩

end TokenStream

end PathQuery
