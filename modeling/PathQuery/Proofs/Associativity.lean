import Mathlib.Data.Option.NAry
import PathQuery.Proofs.Broadcasting
import PathQuery.Proofs.ShortCircuit
/-!
# Associativity of combinators

Three expressions under one combinator can be grouped in two ways. A short circuit may hide an
error, or vectors of different lengths, in one grouping only; but where both have a result it is the
same. The results are compared by what they have for each row: a value stands for its truth values
at all row numbers, single nodes for the same one everywhere, and vectors for none from their
length on. Without vectors the groupings also fail alike.
-/
namespace PathQuery

/-! ## Truth values, row by row -/

namespace Value

/-- The truth value that a value has for the row with a number. -/
def truth? (value : Value) (number : Nat) : Option Bool :=
  (Broadcast.item? number value).map Node.isTrue

/-- A value made of truth values alone. -/
inductive Boolean : Value → Prop where
  /-- One truth value. -/
  | single (b : Bool) : Boolean (.single (.boolean b))
  /-- A vector of them. -/
  | vector (bs : List Bool) : Boolean (.vector (bs.map .boolean))

variable {value first second : Value} {b : Bool}

/-- A vector of truth values has them row by row. -/
theorem truth?_vector (bs : List Bool) (number : Nat) :
    (Value.vector (bs.map .boolean)).truth? number = bs[number]? := by
  simp only [truth?, Broadcast.item?, List.getElem?_map, Option.map_map]
  exact congrFun Option.map_id _

/-- A vector ends at its length. -/
theorem truth?_length (nodes : List Node) :
    (Value.vector nodes).truth? nodes.length = none := by
  simp [truth?, Broadcast.item?]

/-- A value is a single one that counts for a truth value exactly if it has it for every row. -/
theorem scalar?_iff_truth? :
    value.scalar?.map Node.isTrue = some b ↔ ∀ number, value.truth? number = some b := by
  cases value with
  | absent | single => exact ⟨fun same _ => same, fun every => every 0⟩
  | vector nodes =>
    exact ⟨nofun, fun every => nomatch (truth?_length nodes).symm.trans (every nodes.length)⟩

/-- A value that has something for every row has the same for all of them. -/
theorem exists_truth?_of_endless (endless : ∀ number, value.truth? number ≠ none) :
    ∃ b, ∀ number, value.truth? number = some b := by
  cases value with
  | absent | single => exact ⟨_, fun _ => rfl⟩
  | vector nodes =>
    exact absurd (truth?_length nodes) (endless nodes.length)

/-- Values made of truth values are equal if they have the same for every row. -/
theorem Boolean.ext (ofFirst : first.Boolean) (ofSecond : second.Boolean)
    (same : ∀ number, first.truth? number = second.truth? number) : first = second := by
  -- a single truth value goes on for more rows than there are in a vector
  have differ : ∀ b (bs : List Bool), ¬ ∀ number, (Value.single (.boolean b)).truth? number =
      (Value.vector (bs.map .boolean)).truth? number := by
    intro b bs same
    have behind := same bs.length
    rw [truth?_vector, List.getElem?_eq_none (Nat.le_refl _)] at behind
    cases behind
  cases ofFirst with
  | single b =>
    cases ofSecond with
    | single c =>
      have equal : b = c := Option.some.inj (same 0)
      rw [equal]
    | vector bs => exact absurd same (differ b bs)
  | vector bs =>
    cases ofSecond with
    | single c => exact absurd (fun number => (same number).symm) (differ c bs)
    | vector cs =>
      have equal : bs = cs := List.ext_getElem? fun number => by
        rw [← truth?_vector, ← truth?_vector, same]
      rw [equal]

end Value

/-! ## Two values combined -/

namespace Broadcast

variable {position length number : Nat} {values : List Value} {left right result : Value}
  {compute : List Node → Except EvalError Value} {op : BoolOp}

/-- An operator without a state is computed on the rows where the vectors have one length. -/
theorem apply_of_agree (vector : ∃ nodes, .vector nodes ∈ values) (agree : Agree values length) :
    apply position values compute = (collect compute (rows length values)).map .vector := by
  have stateless := apply_eq_applyFrom position values compute ()
  rw [applyFrom_of_agree vector agree, collectFrom_stateless] at stateless
  exact (Prod.mk.inj stateless).1.symm

/-- An operator without a state is not computed on vectors of different lengths. -/
theorem apply_of_disagree {other : Nat} (disagree : Disagree values length other) :
    apply position values compute =
      .error (.runtime position (.incompatibleSizes length other)) := by
  have stateless := apply_eq_applyFrom position values compute ()
  rw [applyFrom_of_disagree disagree] at stateless
  exact (Prod.mk.inj stateless).1.symm

/-- The rows of two values are the pairs of what they have for each row, as long as both have
something. -/
theorem getElem?_rows (vector : ∃ nodes, .vector nodes ∈ [left, right])
    (agree : Agree [left, right] length) : (rows length [left, right])[number]? =
      Option.map₂ (fun a b => [a, b]) (item? number left) (item? number right) := by
  obtain ⟨count, each⟩ := areRows_rows agree
  by_cases inside : number < (rows length [left, right]).length
  · have isRow := each number inside
    rw [List.getElem?_eq_getElem inside]
    obtain ⟨a, rest, pair, ofFirst, isRest⟩ := List.map_eq_cons_iff.1 isRow.symm
    obtain ⟨b, none, rfl, ofSecond, isNone⟩ := List.map_eq_cons_iff.1 isRest
    obtain rfl := List.map_eq_nil_iff.1 isNone
    rw [pair, ← ofFirst, ← ofSecond]
    rfl
  · have outside : length ≤ number := count ▸ Nat.le_of_not_lt inside
    rw [List.getElem?_eq_none (Nat.le_of_not_lt inside)]
    obtain ⟨nodes, member⟩ := vector
    have none : item? number (.vector nodes) = none :=
      List.getElem?_eq_none (agree nodes member ▸ outside)
    rcases List.mem_cons.1 member with rfl | member
    · rw [none, Option.map₂_none_left]
    · rw [← List.mem_singleton.1 member, none, Option.map₂_none_right]

/-- A value is what a combinator makes of two values row by row. -/
structure Combined (op : BoolOp) (left right result : Value) : Prop where
  /-- It is made of truth values. -/
  boolean : result.Boolean
  /-- It has one for the rows for which both values have something. -/
  each : ∀ number, result.truth? number =
    Option.map₂ op.apply (left.truth? number) (right.truth? number)
  /-- If the first value ends, the second one has something for each of its rows. -/
  covers : ∀ length number b, left.truth? length = none → left.truth? number = some b →
    ∃ c, right.truth? number = some c

/-- Truth values that are computed for rows make a vector of them. -/
theorem collect_truth {α : Type} (f : α → Bool) (list : List α) :
    collect (fun row => .ok (.single (.boolean (f row)))) list =
      .ok ((list.map f).map .boolean) := by
  induction list with
  | nil => rfl
  | cons row later ih => simp only [collect, ih, List.map_cons, Value.nodes, List.singleton_append]

/-- A value that is no vector has the same node for every row. -/
theorem item?_of_scalar {value : Value} (scalar : ∀ nodes, value ≠ .vector nodes) :
    item? number value = some (first value) := by
  cases value with
  | absent | single => rfl
  | vector nodes => exact absurd rfl (scalar nodes)

/-- The truth value that a combinator makes of a row of two. -/
def rowTruth (op : BoolOp) (row : List Node) : Bool :=
  op.apply (row.getD 0 .missing).isTrue (row.getD 1 .missing).isTrue

/-- Two values without a vector are combined once. -/
theorem combined_of_scalars (scalars : ∀ nodes, .vector nodes ∉ [left, right]) :
    Combined op left right (.single (.boolean (rowTruth op [first left, first right]))) := by
  have ofLeft : ∀ number, item? number left = some (first left) := fun number =>
    item?_of_scalar fun nodes same => scalars nodes (same ▸ List.mem_cons_self)
  have ofRight : ∀ number, item? number right = some (first right) := fun number =>
    item?_of_scalar fun nodes same =>
      scalars nodes (same ▸ List.mem_cons_of_mem _ List.mem_cons_self)
  refine ⟨.single _, fun number => ?_, fun ending _ _ ends => ?_⟩
  · simp only [Value.truth?, ofLeft, ofRight]
    rfl
  · rw [Value.truth?, ofLeft] at ends
    cases ends

/-- Vectors of one length are combined row by row. -/
theorem combined_of_agree (vector : ∃ nodes, .vector nodes ∈ [left, right])
    (agree : Agree [left, right] length) : Combined op left right
      (.vector (((rows length [left, right]).map (rowTruth op)).map .boolean)) := by
  refine ⟨.vector _, fun number => ?_, fun ending number b ends found => ?_⟩
  · rw [Value.truth?_vector, List.getElem?_map, getElem?_rows vector agree, Option.map_map₂]
    unfold Value.truth?
    rw [Option.map₂_map_left, Option.map₂_map_right]
    rfl
  · cases left with
    | absent | single => cases ends
    | vector nodes =>
      obtain ⟨node, inside, -⟩ := Option.map_eq_some_iff.1 found
      have short : number < (rows length [.vector nodes, right]).length := by
        rw [length_rows, ← agree nodes List.mem_cons_self]
        exact (List.getElem?_eq_some_iff.1 inside).1
      have row : (rows length [.vector nodes, right])[number]? = _ := getElem?_rows vector agree
      rw [List.getElem?_eq_getElem short] at row
      obtain ⟨_, other, -, there, -⟩ := Option.map₂_eq_some_iff.1 row.symm
      exact ⟨other.isTrue, congrArg (Option.map Node.isTrue) there⟩

/-- Where a combinator can be applied to two values, it combines them row by row. -/
theorem combined_of_onPairs (computed : onPairs position left right
      (fun a b => .ok (.single (.boolean (op.apply a.isTrue b.isTrue)))) = .ok result) :
    Combined op left right result := by
  have applied : apply position [left, right]
      (fun row => .ok (.single (.boolean (rowTruth op row)))) = .ok result := computed
  rcases disagree_or_agree [left, right] with ⟨m, n, disagree⟩ | scalars | ⟨vector, length, agree⟩
  · cases (apply_of_disagree disagree).symm.trans applied
  · simp only [apply, lengths_eq_nil.2 scalars] at applied
    obtain rfl := Except.ok.inj applied
    exact combined_of_scalars scalars
  · rw [apply_of_agree vector agree, collect_truth] at applied
    obtain rfl := Except.ok.inj applied
    exact combined_of_agree vector agree

end Broadcast

/-! ## Three operands -/

namespace BoolOp

/-- A decisive right operand is the result as well, whatever stands on the left. -/
theorem apply_decisive_right (op : BoolOp) (left : Bool) :
    op.apply left op.decisive = op.decisive := by
  cases op <;> cases left <;> rfl

/-- For rows that all have the decisive value on the right, it is the result where there is one. -/
theorem map₂_decisive (op : BoolOp) (left : Option Bool) :
    Option.map₂ op.apply left (some op.decisive) = left.map fun _ => op.decisive := by
  simp only [Option.map₂_coe_right, apply_decisive_right]

/-- On truth values a combinator is associative. -/
theorem apply_assoc (op : BoolOp) (a b c : Bool) :
    op.apply (op.apply a b) c = op.apply a (op.apply b c) := by
  cases op
  · exact Bool.and_assoc a b c
  · exact Bool.or_assoc a b c

/-- The answer of a combinator, from those of its operands. -/
def answer (op : BoolOp) : Except EvalError Bool → Except EvalError Bool → Except EvalError Bool
  | .error e, _ => .error e
  | .ok b, right => if b = op.decisive then .ok op.decisive else right

/-- Answers are combined from left to right, in whatever way they are grouped. -/
theorem answer_assoc (op : BoolOp) (a b c : Except EvalError Bool) :
    op.answer (op.answer a b) c = op.answer a (op.answer b c) := by
  cases a with
  | error e => rfl
  | ok x =>
    by_cases decides : x = op.decisive
    · simp only [answer, if_pos decides, if_true]
    · simp only [answer, if_neg decides]

end BoolOp

/-- If a combination decides for every row and its first operand does not, the first one has one
truth value throughout and the second one decides for every row. -/
theorem Broadcast.Combined.decides_second {op : BoolOp} {a b inner : Value}
    (front : Combined op a b inner) (decides : ∀ number, inner.truth? number = some op.decisive)
    (undecided : ¬ ∀ number, a.truth? number = some op.decisive) :
    (∃ x, ∀ number, a.truth? number = some x) ∧
      ∀ number, b.truth? number = some op.decisive := by
  have each : ∀ number, ∃ x y, a.truth? number = some x ∧ b.truth? number = some y ∧
      op.apply x y = op.decisive := fun number =>
    Option.map₂_eq_some_iff.1 ((front.each number).symm.trans (decides number))
  obtain ⟨x, every⟩ : ∃ x, ∀ number, a.truth? number = some x := by
    refine Value.exists_truth?_of_endless fun number none => ?_
    obtain ⟨x, _, some, -⟩ := each number
    cases none.symm.trans some
  have passes : x ≠ op.decisive := fun same => undecided (same ▸ every)
  refine ⟨⟨x, every⟩, fun number => ?_⟩
  obtain ⟨x', y, ofFirst, ofSecond, same⟩ := each number
  obtain rfl := Option.some.inj ((every number).symm.trans ofFirst)
  rw [ofSecond, ← same, BoolOp.apply_undecided y passes]

/-- A middle operand that decides for every row is the result wherever the first operand has
something. The last operand does not count: the first one ends, so the last has something for each
of its rows. -/
theorem Broadcast.Combined.each_of_decided_middle {op : BoolOp} {a b c inner result : Value}
    (front : Combined op a b inner) (outer : Combined op inner c result)
    (decides : ∀ number, b.truth? number = some op.decisive)
    (undecided : ¬ ∀ number, inner.truth? number = some op.decisive) (number : Nat) :
    result.truth? number = (a.truth? number).map fun _ => op.decisive := by
  have ofInner : ∀ number, inner.truth? number = (a.truth? number).map fun _ => op.decisive := by
    intro number
    rw [front.each, decides, op.map₂_decisive]
  rw [outer.each, ofInner]
  cases here : a.truth? number with
  | none => rfl
  | some x =>
    obtain ⟨ending, ends⟩ : ∃ ending, inner.truth? ending = none := by
      refine Classical.byContradiction fun endless => undecided fun number => ?_
      cases ofRow : a.truth? number with
      | none => exact absurd ⟨number, by rw [ofInner, ofRow]; rfl⟩ endless
      | some => rw [ofInner, ofRow]; rfl
    have goesOn : inner.truth? number = some op.decisive := by rw [ofInner, here]; rfl
    obtain ⟨z, ofRow⟩ := outer.covers ending number op.decisive ends goesOn
    rw [ofRow]
    exact congrArg some (op.apply_decisive z)

namespace Expr

open Broadcast (Combined)

variable {document : Node} {op : BoolOp} {a b c left right : Expr} {position : Nat}
  {result first second : Value}

/-- A combination has a result: the left operand decides it, or both operands are evaluated and
combined row by row. -/
inductive Combines (document : Node) (op : BoolOp) (left right : Expr) : Value → Prop where
  /-- The left operand has the decisive truth value for every row. -/
  | decided {value : Value} (evaluated : left.eval document = .ok value)
    (decides : ∀ number, value.truth? number = some op.decisive) :
    Combines document op left right (.single (.boolean op.decisive))
  /-- It has not, and the values of both are combined. -/
  | both {first second result : Value} (evaluatedLeft : left.eval document = .ok first)
    (evaluatedRight : right.eval document = .ok second)
    (undecided : ¬ ∀ number, first.truth? number = some op.decisive)
    (combined : Combined op first second result) : Combines document op left right result

/-- Every result of a combination comes about in one of these ways. -/
theorem combines_of_eval (evaluated : (boolean position op left right).eval document = .ok result) :
    Combines document op left right result := by
  simp only [eval] at evaluated
  split at evaluated
  · cases evaluated
  · next first ofLeft =>
    split at evaluated
    · next decides =>
      obtain rfl := Except.ok.inj evaluated
      exact .decided ofLeft (Value.scalar?_iff_truth?.1 decides)
    · next undecided =>
      split at evaluated
      · cases evaluated
      · next second ofRight =>
        exact .both ofLeft ofRight (fun every => undecided (Value.scalar?_iff_truth?.2 every))
          (Broadcast.combined_of_onPairs evaluated)

/-- The result is made of truth values. -/
theorem Combines.boolean (combines : Combines document op left right result) : result.Boolean := by
  cases combines with
  | decided => exact .single _
  | both _ _ _ combined => exact combined.boolean

/-- Two results of one expression are the same. -/
theorem eval_unique {e : Expr} (once : e.eval document = .ok first)
    (again : e.eval document = .ok second) : first = second :=
  Except.ok.inj (once.symm.trans again)

/-- If the first two of three operands decide a combination, so do all three, in the other
grouping. -/
theorem eval_of_decided_front {inner : Value} {p q : Nat}
    (ofInner : (boolean position op a b).eval document = .ok inner)
    (decides : ∀ number, inner.truth? number = some op.decisive)
    (evaluated : (boolean p op a (boolean q op b c)).eval document = .ok result) :
    result = .single (.boolean op.decisive) := by
  have whole := combines_of_eval evaluated
  refine whole.boolean.ext (.single _) fun number => ?_
  cases combines_of_eval ofInner with
  | decided ofA decidesA =>
    cases whole with
    | decided => rfl
    | both ofA' _ undecided =>
      obtain rfl := eval_unique ofA ofA'
      exact absurd decidesA undecided
  | both ofA ofB undecided combined =>
    obtain ⟨⟨x, everyA⟩, everyB⟩ := combined.decides_second decides undecided
    cases whole with
    | decided ofA' decidesA =>
      obtain rfl := eval_unique ofA ofA'
      exact absurd decidesA undecided
    | both ofA' ofRest _ combinedRest =>
      obtain rfl := eval_unique ofA ofA'
      cases combines_of_eval ofRest with
      | decided =>
        rw [combinedRest.each, everyA]
        exact congrArg some (op.apply_decisive_right x)
      | both ofB' _ undecidedB =>
        obtain rfl := eval_unique ofB ofB'
        exact absurd everyB undecidedB

/-- The results of both groupings are equal where there are two. -/
theorem eval_unique_of_groupings {p p' q q' : Nat}
    (ofFirst : (boolean p op (boolean q op a b) c).eval document = .ok first)
    (ofSecond : (boolean p' op a (boolean q' op b c)).eval document = .ok second) :
    first = second := by
  have fromLeft := combines_of_eval ofFirst
  have fromRight := combines_of_eval ofSecond
  cases fromLeft with
  | decided ofInner decides =>
    -- the left grouping never reaches the last operand
    exact (eval_of_decided_front ofInner decides ofSecond).symm
  | @both inner valueC _ ofInner ofC undecided outer =>
    refine outer.boolean.ext fromRight.boolean fun number => ?_
    cases combines_of_eval ofInner with
    | decided => exact absurd (fun _ => rfl) undecided
    | @both valueA valueB _ ofA ofB undecidedA front =>
      cases fromRight with
      | decided ofA' decides =>
        obtain rfl := eval_unique ofA ofA'
        exact absurd decides undecidedA
      | both ofA' ofRest _ whole =>
        obtain rfl := eval_unique ofA ofA'
        cases combines_of_eval ofRest with
        | both ofB' ofC' _ back =>
          obtain rfl := eval_unique ofB ofB'
          obtain rfl := eval_unique ofC ofC'
          rw [outer.each, front.each, whole.each, back.each]
          exact Option.map₂_assoc op.apply_assoc
        | decided ofB' decides =>
          -- here the right grouping never reaches it, while the left one has combined it
          obtain rfl := eval_unique ofB ofB'
          rw [front.each_of_decided_middle outer decides undecided, whole.each]
          exact (op.map₂_decisive _).symm

/-- A combination of operands that each answer with one truth value evaluates to the combined
answer. -/
theorem eval_boolean_of_answers {x y : Except EvalError Bool} (ofLeft : left.Answers document x)
    (ofRight : right.Answers document y) : (boolean position op left right).eval document =
      (op.answer x y).map fun b => .single (.boolean b) := by
  cases x with
  | error e => exact eval_boolean_failed ofLeft
  | ok b =>
    by_cases decides : b = op.decisive
    · subst decides
      rw [eval_boolean_decided ofLeft, BoolOp.answer, if_pos rfl]
      rfl
    · obtain rfl := Bool.eq_not_of_ne decides
      rw [eval_boolean_passed ofLeft ofRight, BoolOp.answer, if_neg decides]

/-- Three operands of which none is vector-typed give the same result or the same error in both
groupings. -/
theorem eval_assoc_of_scalar (scalarA : a.isVector = false) (scalarB : b.isVector = false)
    (scalarC : c.isVector = false) (p p' q q' : Nat) :
    (boolean p op (boolean q op a b) c).eval document =
      (boolean p' op a (boolean q' op b c)).eval document := by
  have ofA : a.Answers document _ := answers_of_scalar scalarA
  have ofB : b.Answers document _ := answers_of_scalar scalarB
  have ofC : c.Answers document _ := answers_of_scalar scalarC
  have front : (boolean q op a b).Answers document _ :=
    answers_of_truth (eval_boolean_of_answers ofA ofB)
  have back : (boolean q' op b c).Answers document _ :=
    answers_of_truth (eval_boolean_of_answers ofB ofC)
  rw [eval_boolean_of_answers front ofC, eval_boolean_of_answers ofA back, op.answer_assoc]

/-- Combinators are associative. Where both groupings of three expressions evaluate, the results
are equal, whatever vectors are among the operands and whatever a short circuit leaves out; and
without vector-typed operands the groupings fail alike, with the same error. -/
theorem eval_boolean_assoc (document : Node) (op : BoolOp) (a b c : Expr) (p p' q q' : Nat) :
    (∀ first second, (boolean p op (boolean q op a b) c).eval document = .ok first →
      (boolean p' op a (boolean q' op b c)).eval document = .ok second → first = second) ∧
    (a.isVector = false → b.isVector = false → c.isVector = false →
      (boolean p op (boolean q op a b) c).eval document =
        (boolean p' op a (boolean q' op b c)).eval document) :=
  ⟨fun _ _ => eval_unique_of_groupings,
    fun scalarA scalarB scalarC => eval_assoc_of_scalar scalarA scalarB scalarC p p' q q'⟩

/-- The middle operand decides and the last one is a vector that counts in one grouping alone; two
groupings of single nodes fail on the middle one. -/
theorem eval_boolean_assoc_decided_middle :
    let rows : Expr := .wildcard 1 (.root 0)
    let yes : Expr := .literal 6 (.boolean true)
    let name : Expr := .named 8 (.root 7) "a"
    let document : Node := .array [.array [.boolean true, .boolean false]]
    let either : Value := .vector [.boolean true, .boolean true]
    (boolean 5 .or (boolean 3 .or rows yes) rows).eval document = .ok either ∧
      (∃ other, (boolean 5 .or rows (boolean 3 .or yes rows)).eval document = .ok other ∧
        either = other) ∧
      (boolean 5 .and (boolean 3 .and yes name) name).eval document =
        (boolean 5 .and yes (boolean 3 .and name name)).eval document ∧
      (boolean 5 .and (boolean 3 .and yes name) name).eval document =
        .error (.runtime 8 (.nameOnOther .array)) := by
  intro rows yes name document either
  have left : (boolean 5 .or (boolean 3 .or rows yes) rows).eval document = .ok either := by rfl
  have right : (boolean 5 .or rows (boolean 3 .or yes rows)).eval document = .ok either := by rfl
  exact ⟨left, ⟨_, right, (eval_boolean_assoc document .or rows yes rows 5 5 3 3).1 _ _ left right⟩,
    (eval_boolean_assoc document .and yes name name 5 5 3 3).2 rfl rfl rfl, rfl⟩

end Expr

end PathQuery
