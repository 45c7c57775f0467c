import PathQuery.Eval
/-!
# Integers as keys

An integer as a key stands for a place in an array, counted from the start or, below zero, from the
end. Every selector reduces the integer to 32 bits before it looks at the length of the array. So it
is exact for the integers of 32 bits, and for another one exactly when the reduced integer stands
for the same place, or for none as well.
-/
namespace PathQuery

/-- The fault is an index out of range. -/
def RuntimeFault.IsOutOfRange : RuntimeFault → Prop
  | .beyondLast _ _ | .beforeFirst _ _ => True
  | _ => False

namespace Select

/-- An answer to an integer on an array is the element that the integer stands for, and an error at
the selector where it stands for none. -/
structure ExactAt (position : Nat) (elements : List Node) (n : Int)
    (answer : Except EvalError Value) : Prop where
  /-- From zero on an integer counts from the start. -/
  fromStart : ∀ (i : Nat) (inside : i < elements.length), n = i →
    answer = .ok (.single elements[i])
  /-- Below zero it counts from the end. -/
  fromEnd : ∀ (i : Nat) (inside : i < elements.length), n = i - elements.length →
    answer = .ok (.single elements[i])
  /-- Every other integer is out of range. -/
  outside : n < -elements.length ∨ elements.length ≤ n →
    ∃ fault : RuntimeFault, fault.IsOutOfRange ∧ answer = .error (.runtime position fault)

/-- The place that an integer stands for in an array of some length, if it is in range. -/
def place? (length : Nat) (n : Int) : Option Nat :=
  if n < -length ∨ length ≤ n then none else some (if n < 0 then length + n else n).toNat

variable {position length : Nat} {elements : List Node} {n m : Int}
  {answer : Except EvalError Value}

/-- A place lies in the array. -/
theorem place?_lt {i : Nat} (found : place? length n = some i) : i < length := by
  unfold place? at found
  split at found
  · cases found
  · obtain rfl := Option.some.inj found
    split <;> omega

/-- An answer is exact when it is the element at the place of the integer, or an error where there
is no place. -/
theorem exactAt_iff : ExactAt position elements n answer ↔
    (∀ i (inside : i < elements.length), place? elements.length n = some i →
      answer = .ok (.single elements[i])) ∧
    (place? elements.length n = none →
      ∃ fault : RuntimeFault, fault.IsOutOfRange ∧ answer = .error (.runtime position fault)) := by
  unfold place?
  constructor
  · rintro ⟨fromStart, fromEnd, outside⟩
    constructor
    · intro i inside found
      split at found
      · cases found
      · have same := Option.some.inj found
        split at same
        · exact fromEnd i inside (by omega)
        · exact fromStart i inside (by omega)
    · intro none
      split at none
      · next out => exact outside out
      · cases none
  · rintro ⟨element, error⟩
    refine ⟨fun i inside same => element i inside ?_, fun i inside same => element i inside ?_,
      fun out => error (if_pos out)⟩
    · rw [if_neg (by omega), if_neg (by omega)]
      exact congrArg some (by omega)
    · rw [if_neg (by omega), if_pos (by omega)]
      exact congrArg some (by omega)

/-- An answer to one integer is exact for every integer with the same place. -/
theorem ExactAt.of_place (exact : ExactAt position elements m answer)
    (same : place? elements.length m = place? elements.length n) :
    ExactAt position elements n answer := by
  rw [exactAt_iff] at exact ⊢
  rwa [same] at exact

/-- Elements that tell their places apart. -/
def numbered (length : Nat) : List Node :=
  (List.range length).map fun i => .array (List.replicate i .null)

/-- There are as many numbered elements as were asked for. -/
theorem length_numbered (length : Nat) : (numbered length).length = length := by
  simp [numbered]

/-- Numbered elements at different places differ. -/
theorem eq_of_numbered {i j : Nat} {here : i < (numbered length).length}
    {there : j < (numbered length).length} (same : (numbered length)[i] = (numbered length)[j]) :
    i = j := by
  have elements : List.replicate i Node.null = List.replicate j Node.null := by
    simpa [numbered] using same
  simpa using congrArg List.length elements

/-- An answer that is exact for two integers gives them the same place, where the elements tell
places apart. -/
theorem place?_eq_of_exactAt (first : ExactAt position (numbered length) m answer)
    (second : ExactAt position (numbered length) n answer) :
    place? length m = place? length n := by
  obtain ⟨element, error⟩ := exactAt_iff.1 first
  obtain ⟨element', error'⟩ := exactAt_iff.1 second
  simp only [length_numbered] at element error element' error'
  cases here : place? length m with
  | none =>
    obtain ⟨_, -, failed⟩ := error here
    cases there : place? length n with
    | none => rfl
    | some j => cases failed.symm.trans (element' j (place?_lt there) there)
  | some i =>
    have found := element i (place?_lt here) here
    cases there : place? length n with
    | none =>
      obtain ⟨_, -, failed⟩ := error' there
      cases failed.symm.trans found
    | some j =>
      have same := found.symm.trans (element' j (place?_lt there) there)
      exact congrArg some (eq_of_numbered (Value.single.inj (Except.ok.inj same)))

/-- On an array an integer as a key is reduced to 32 bits, and then looked up in range. -/
theorem byKey_integer (position : Nat) (elements : List Node) (n : Int64) :
    byKey position (.integer n) (.array elements) =
      if (elements.length : Int) ≤ n.toInt32.toInt then
        .error (.runtime position (.beyondLast n.toInt32.toInt (elements.length - 1)))
      else if n.toInt32.toInt < -elements.length then
        .error (.runtime position (.beforeFirst n.toInt32.toInt (-elements.length)))
      else .ok ((Node.array elements).element
        (if n.toInt32.toInt < 0 then elements.length + n.toInt32.toInt else n.toInt32.toInt)) :=
  rfl

/-- The element at an index in range is the one at that place. -/
theorem element_toNat {k : Int} (front : 0 ≤ k) (inside : k.toNat < elements.length) :
    (Node.array elements).element k = elements[k.toNat] := by
  rw [Node.element, if_neg (Int.not_lt.2 front), List.getD_eq_getElem?_getD,
    List.getElem?_eq_getElem inside, Option.getD_some]

/-- An integer as a key is answered exactly as the integer that is left of it in 32 bits. -/
theorem exactAt_byKey (position : Nat) (elements : List Node) (n : Int64) :
    ExactAt position elements n.toInt32.toInt
      ((byKey position (.integer n) (.array elements)).map .single) := by
  rw [exactAt_iff, byKey_integer]
  generalize n.toInt32.toInt = m
  constructor
  · intro i inside found
    unfold place? at found
    split at found
    · cases found
    · next within =>
      obtain rfl := Option.some.inj found
      rw [if_neg (by omega), if_neg (by omega), element_toNat (by split <;> omega) inside]
      rfl
  · intro none
    unfold place? at none
    split at none
    · next out =>
      by_cases beyond : (elements.length : Int) ≤ m
      · rw [if_pos beyond]
        exact ⟨.beyondLast _ _, trivial, rfl⟩
      · rw [if_neg beyond, if_pos (by omega)]
        exact ⟨.beforeFirst _ _, trivial, rfl⟩
    · cases none

end Select

namespace Expr

open Select

variable {position length : Nat} {n : Int64} {m : Int}

/-- Every selector at an offset whose key is an integer answers on every array of some length
exactly as another integer asks for. -/
def KeyedExactly (position length : Nat) (n : Int64) (m : Int) : Prop :=
  ∀ (document : Node) (object key : Expr) (elements : List Node), elements.length = length →
    object.eval document = .ok (.single (.array elements)) →
    key.eval document = .ok (.single (.integer n)) →
    ExactAt position elements m ((field position object key).eval document)

/-- A selector on an array with an integer as its key looks the integer up. -/
theorem eval_field_integer {document : Node} {object key : Expr} {elements : List Node}
    (ofObject : object.eval document = .ok (.single (.array elements)))
    (ofKey : key.eval document = .ok (.single (.integer n))) :
    (field position object key).eval document =
      (byKey position (.integer n) (.array elements)).map .single := by
  simp only [eval, ofObject, ofKey, Value.toNode, Broadcast.onEach_single]

/-- A selector answers exactly as the integer asks for that is left of its key in 32 bits. -/
theorem keyedExactly_toInt32 (position length : Nat) (n : Int64) :
    KeyedExactly position length n n.toInt32.toInt := by
  intro document object key elements _ ofObject ofKey
  rw [eval_field_integer ofObject ofKey]
  exact exactAt_byKey position elements n

/-- What is left of an integer of 32 bits in 32 bits is that integer. -/
theorem toInt_toInt32_of_fits (low : Int32.minValue.toInt ≤ n.toInt)
    (high : n.toInt ≤ Int32.maxValue.toInt) : n.toInt32.toInt = n.toInt := by
  rw [Int32.toInt_minValue] at low
  rw [Int32.toInt_maxValue] at high
  rw [Int64.toInt_toInt32]
  exact Int.bmod_eq_of_le_mul_two (by omega) (by omega)

/-- An integer as a key is exact on the arrays of a length exactly where the integer and what is
left of it in 32 bits stand for the same place, or both for none. So it is exact on every array if
it fits 32 bits. -/
theorem keyedExactly_iff (position length : Nat) (n : Int64) :
    KeyedExactly position length n n.toInt32.toInt ∧
    (KeyedExactly position length n n.toInt ↔
      place? length n.toInt32.toInt = place? length n.toInt) ∧
    (Int32.minValue.toInt ≤ n.toInt → n.toInt ≤ Int32.maxValue.toInt →
      KeyedExactly position length n n.toInt) := by
  have reduced := keyedExactly_toInt32 position length n
  refine ⟨reduced, ⟨fun exact => ?_, fun same => ?_⟩, fun low high => ?_⟩
  · have document : (root 0).eval (.array (numbered length)) =
        .ok (.single (.array (numbered length))) := rfl
    have key : (literal 0 (.integer n)).eval (.array (numbered length)) =
        .ok (.single (.integer n)) := rfl
    exact place?_eq_of_exactAt (reduced _ _ _ _ (length_numbered length) document key)
      (exact _ _ _ _ (length_numbered length) document key)
  · intro document object key elements sized ofObject ofKey
    subst sized
    exact (reduced _ _ _ _ rfl ofObject ofKey).of_place same
  · rwa [toInt_toInt32_of_fits low high] at reduced

/-- In 32 bits nothing is left of 4294967296, and so it selects the first element. -/
theorem keyedExactly_beyond_32_bits :
    let document : Node := .array [.integer 10, .integer 20, .integer 30]
    let e := field 1 (root 0) (literal 2 (.integer 4294967296))
    e.eval document = .ok (.single (.integer 10)) ∧
      ¬ KeyedExactly 1 3 4294967296 4294967296 := by
  intro document e
  have selected : e.eval document = .ok (.single (.integer 10)) := by rfl
  refine ⟨selected, fun exact => ?_⟩
  have keyed := exact document (root 0) (literal 2 (.integer 4294967296)) _ rfl rfl rfl
  obtain ⟨fault, -, failed⟩ := keyed.outside (.inr (by decide))
  cases selected.symm.trans failed

end Expr

end PathQuery
