import PathQuery.Proofs.IntegerKeys
import PathQuery.Proofs.RowByRow
/-!
# Indices behind a dot

An integer of 32 bits behind a dot selects the element that it selects in brackets. The two differ
where the array has no such element: the brackets fail there, while behind a dot the element is
missing, and so it is left out of a vector. Behind a dot an integer never fails on an array. The
index that it stands for is found in 64 bits, without a carry into the sign, for every integer of
64 bits.
-/
namespace PathQuery

namespace Select

/-- The index from the start, computed in 64 bits from an index that may count from the end. -/
def fromStart (size n : Int64) : Int64 := if n.toInt < 0 then size + n else n

/-- What an integer in brackets and the same integer behind a dot answer on one node. -/
inductive Answers (position : Nat) (n : Int) :
    Node → Except EvalError Node → Except EvalError Node → Prop where
  /-- In range both are the element at its place. -/
  | inRange {elements : List Node} {i : Nat} (inside : i < elements.length)
    (place : place? elements.length n = some i) :
    Answers position n (.array elements) (.ok elements[i]) (.ok elements[i])
  /-- Out of range the brackets fail, and behind the dot nothing is found. -/
  | outOfRange {elements : List Node} {fault : RuntimeFault}
    (place : place? elements.length n = none) (outOfRange : fault.IsOutOfRange) :
    Answers position n (.array elements) (.error (.runtime position fault)) (.ok .missing)
  /-- On anything else than an array both fail. -/
  | noArray {node : Node} {e e' : EvalError} (noArray : node.isArray = false) :
    Answers position n node (.error e) (.error e')

variable {position : Nat} {node : Node} {n : Int64}

/-- A node of the kind of an array is one. -/
theorem exists_of_isArray (array : node.isArray = true) : ∃ elements, node = .array elements := by
  cases node with
  | array elements => exact ⟨elements, rfl⟩
  | null | boolean | integer | float | string | object | missing => cases array

/-- A length and a negative index of 64 bits add up within 64 bits. -/
theorem toInt_fromStart (n : Int64) (length : Nat) (fits : length ≤ Int64.maxValue.toInt) :
    (fromStart (.ofNat length) n).toInt = if n.toInt < 0 then length + n.toInt else n.toInt := by
  have top : Int64.maxValue.toInt = 9223372036854775807 := rfl
  have size : (Int64.ofNat length).toInt = length := Int64.toInt_ofNat_of_lt (by omega)
  have low : -9223372036854775808 ≤ n.toInt := Int64.le_toInt n
  unfold fromStart
  by_cases negative : n.toInt < 0
  · rw [if_pos negative, if_pos negative, Int64.toInt_add, size]
    exact Int.bmod_eq_of_le_mul_two (by omega) (by omega)
  · rw [if_neg negative, if_neg negative]

/-- Behind a dot an integer selects the element at its place, and nothing without a place. -/
theorem byIndex_array (position : Nat) (n : Int) (elements : List Node) :
    byIndex position n (.array elements) =
      .ok (((place? elements.length n).bind (elements[·]?)).getD .missing) := by
  have size : (Node.array elements).size = elements.length := rfl
  have array : (Node.array elements).isArray = true := rfl
  rw [byIndex, if_pos array, size]
  generalize index : (if n < 0 then (elements.length : Int) + n else n) = k
  unfold place?
  by_cases out : n < -elements.length ∨ (elements.length : Int) ≤ n
  · rw [if_pos out, Option.bind_none, Option.getD_none, Node.element]
    by_cases negative : k < 0
    · rw [if_pos negative]
    · have behind : elements.length ≤ k.toNat := by split at index <;> omega
      rw [if_neg negative, List.getD_eq_getElem?_getD, List.getElem?_eq_none behind,
        Option.getD_none]
  · have front : 0 ≤ k := by split at index <;> omega
    rw [if_neg out, index, Option.bind_some, Node.element, if_neg (by omega),
      List.getD_eq_getElem?_getD]

/-- In brackets and behind a dot an integer of 32 bits answers alike on a node, except out of
range. -/
theorem answers (low : Int32.minValue.toInt ≤ n.toInt) (high : n.toInt ≤ Int32.maxValue.toInt)
    (node : Node) : Answers position n.toInt node (byKey position (.integer n) node)
      (byIndex position n.toInt node) := by
  by_cases array : node.isArray = true
  · obtain ⟨elements, rfl⟩ := exists_of_isArray array
    have exact := exactAt_byKey position elements n
    rw [Expr.toInt_toInt32_of_fits low high, exactAt_iff] at exact
    obtain ⟨element, error⟩ := exact
    rw [byIndex_array]
    cases place : place? elements.length n.toInt with
    | some i =>
      have inside := place?_lt place
      obtain ⟨found, keyed, same⟩ := Broadcast.exists_of_map_ok (element i inside place)
      obtain rfl := Value.single.inj same
      rw [keyed, Option.bind_some, List.getElem?_eq_getElem inside]
      exact .inRange inside place
    | none =>
      obtain ⟨fault, outOfRange, failed⟩ := error place
      cases keyed : byKey position (.integer n) (.array elements) with
      | ok found => cases (keyed ▸ failed :)
      | error e =>
        obtain rfl := Except.error.inj (keyed ▸ failed : (Except.error e).map Value.single = _)
        exact .outOfRange place outOfRange
  · have noArray := Bool.eq_false_iff.2 array
    have keyed : byKey position (.integer n) node =
        .error (.runtime position (.keyOnOther node.kind)) := if_neg array
    have indexed : byIndex position n.toInt node =
        .error (.runtime position (.indexOnOther node.kind)) := if_neg array
    rw [keyed, indexed]
    exact .noArray noArray

end Select

/-! ## Two operators on rows -/

namespace Broadcast

variable {α : Type} {strict lenient : α → Except EvalError Value} {rows : List α}
  {nodes : List Node} {e : EvalError}

/-- An operator that has the results of another one collects what the other one collects. -/
theorem collect_of_imp (imp : ∀ row v, strict row = .ok v → lenient row = .ok v)
    (collected : collect strict rows = .ok nodes) : collect lenient rows = .ok nodes := by
  induction rows generalizing nodes with
  | nil => exact collected
  | cons row later ih =>
    simp only [collect] at collected ⊢
    split at collected
    · cases collected
    · next value computed =>
      split at collected
      · cases collected
      · next others behind => rw [imp row value computed, ih behind]; exact collected

/-- Where only the other operator fails on the rows, it has results up to a row on which it fails
alone. -/
theorem exists_row_of_imp (imp : ∀ row v, strict row = .ok v → lenient row = .ok v)
    (failed : collect strict rows = .error e) (collected : collect lenient rows = .ok nodes) :
    ∃ before row after front found back, rows = before ++ row :: after ∧
      strict row = .error e ∧ lenient row = .ok found ∧ collect strict before = .ok front ∧
      collect lenient before = .ok front ∧ collect lenient after = .ok back ∧
      nodes = front ++ (found.nodes ++ back) := by
  have outcome := rowByRow_iff.2 (congrArg (Except.map Value.vector) failed)
  cases outcome with
  | @stopped before after row results _ split computed alone =>
    subst split
    have inFront := collect_of_map computed
    have inFront' := collect_of_imp imp inFront
    rw [collect_append_of_front inFront'] at collected
    simp only [collect] at collected
    split at collected
    · cases collected
    · next found passed =>
      split at collected
      · cases collected
      · next back behind =>
        exact ⟨before, row, after, _, found, back, rfl, alone, passed, inFront, inFront', behind,
          (Except.ok.inj collected).symm⟩

/-- Rows of which none fails are collected. -/
theorem exists_collect {compute : α → Except EvalError Value}
    (each : ∀ row ∈ rows, ∃ value, compute row = .ok value) :
    ∃ nodes, collect compute rows = .ok nodes := by
  obtain ⟨_, outcome⟩ := exists_rowByRow compute rows
  cases outcome with
  | all computed => exact ⟨_, collect_of_map computed⟩
  | stopped split _ failed =>
    obtain ⟨value, computed⟩ := each _ (split ▸ List.mem_append_right _ List.mem_cons_self)
    cases failed.symm.trans computed

end Broadcast

/-! ## The two selectors -/

namespace Step

variable {document : Node} {position : Nat} {key : Expr} {n : Int64}

/-- A key that is an integer looks the integer up in a single node. -/
theorem onValue_key_integer (ofKey : key.eval document = .ok (.single (.integer n))) (node : Node) :
    (Step.key key).onValue document position (.single node) =
      (Select.byKey position (.integer n) node).map .single := by
  simp only [onValue, ofKey, Value.toNode, Broadcast.onEach_single]

/-- An index behind a dot looks itself up in a single node. -/
theorem onValue_index_single (node : Node) :
    (Step.index n).onValue document position (.single node) =
      (Select.byIndex position n.toInt node).map .single := rfl

end Step

namespace Expr

open Select

/-- Brackets fail on an array that does not reach to the integer; behind a dot the integer selects a
missing element there. So the element does not count in the result: it is that missing element of a
single array, and the result for a vector has the elements of the arrays before and after. -/
inductive LeavesOut (document : Node) (position : Nat) (key : Expr) (n : Int64) (e : EvalError) :
    Value → Value → Prop where
  /-- The object is the array. -/
  | missing {elements : List Node} (outOfRange : place? elements.length n.toInt = none)
    (failed : (Step.key key).onValue document position (.single (.array elements)) = .error e) :
    LeavesOut document position key n e (.single (.array elements)) (.single .missing)
  /-- The array is an element of the object, and brackets do not fail before it. -/
  | dropped {before after elements front back : List Node}
    (outOfRange : place? elements.length n.toInt = none)
    (failed : (Step.key key).onValue document position (.single (.array elements)) = .error e)
    (missing : (Step.index n).onValue document position (.single (.array elements)) =
      .ok (.single .missing))
    (keyed : (Step.key key).onValue document position (.vector before) = .ok (.vector front))
    (inFront : (Step.index n).onValue document position (.vector before) = .ok (.vector front))
    (behind : (Step.index n).onValue document position (.vector after) = .ok (.vector back)) :
    LeavesOut document position key n e (.vector (before ++ .array elements :: after))
      (.vector (front ++ back))

/-- Behind a dot an integer agrees with the integer in brackets, where the two stand at one offset
behind one object. -/
structure AgreesWithBrackets (document : Node) (position : Nat) (object key : Expr) (n : Int64) :
    Prop where
  /-- It has every result that the brackets have. -/
  result : ∀ value, (field position object key).eval document = .ok value →
    (index position object n).eval document = .ok value
  /-- It fails only where the brackets fail. -/
  failure : ∀ e, (index position object n).eval document = .error e →
    ∃ e', (field position object key).eval document = .error e'
  /-- Where the brackets fail alone, an index is out of range, and its element is left out. -/
  leftOut : ∀ e value, (field position object key).eval document = .error e →
    (index position object n).eval document = .ok value →
    ∃ fault objects, fault.IsOutOfRange ∧ e = .runtime position fault ∧
      object.eval document = .ok objects ∧ LeavesOut document position key n e objects value

/-- Behind a dot an integer of 64 bits has a result on every array. -/
structure Total (document : Node) (position : Nat) (object : Expr) (n : Int64) : Prop where
  /-- On a single array it has one node. -/
  array : ∀ elements, object.eval document = .ok (.single (.array elements)) →
    ∃ node, (index position object n).eval document = .ok (.single node)
  /-- On a vector of arrays it has a vector. -/
  arrays : ∀ objects, object.eval document = .ok (.vector objects) →
    (∀ node ∈ objects, node.isArray = true) →
    ∃ nodes, (index position object n).eval document = .ok (.vector nodes)
  /-- On an array that 64 bits can address the index from the start is computed in 64 bits, and the
  sum is the exact one. -/
  exact : ∀ elements : List Node, elements.length ≤ Int64.maxValue.toInt →
    (fromStart (.ofNat elements.length) n).toInt =
      (if n.toInt < 0 then elements.length + n.toInt else n.toInt) ∧
    byIndex position n.toInt (.array elements) =
      .ok ((Node.array elements).element (fromStart (.ofNat elements.length) n).toInt)

variable {document : Node} {position : Nat} {object key : Expr} {n : Int64}

/-- On a single node brackets and dot answer as the integer asks for. -/
theorem answers_onValue (low : Int32.minValue.toInt ≤ n.toInt)
    (high : n.toInt ≤ Int32.maxValue.toInt)
    (ofKey : key.eval document = .ok (.single (.integer n))) (node : Node) :
    (∀ value, (Step.key key).onValue document position (.single node) = .ok value →
      (Step.index n).onValue document position (.single node) = .ok value) ∧
    ∀ e value, (Step.key key).onValue document position (.single node) = .error e →
      (Step.index n).onValue document position (.single node) = .ok value →
      ∃ fault elements, fault.IsOutOfRange ∧ e = .runtime position fault ∧
        node = .array elements ∧ place? elements.length n.toInt = none ∧
        value = .single .missing := by
  rw [Step.onValue_key_integer ofKey, Step.onValue_index_single]
  have both : Answers position n.toInt node _ _ := answers low high node
  generalize byKey position (.integer n) node = keyed at both ⊢
  generalize byIndex position n.toInt node = indexed at both ⊢
  cases both with
  | inRange => exact ⟨fun _ same => same, nofun⟩
  | outOfRange place outOfRange =>
    refine ⟨nofun, fun e value failed found => ?_⟩
    exact ⟨_, _, outOfRange, (Except.error.inj failed).symm, rfl, place,
      (Except.ok.inj found).symm⟩
  | noArray => exact ⟨nofun, nofun⟩

/-- The result of brackets on a value is the result behind a dot. -/
theorem onValue_index_of_key (low : Int32.minValue.toInt ≤ n.toInt)
    (high : n.toInt ≤ Int32.maxValue.toInt)
    (ofKey : key.eval document = .ok (.single (.integer n))) {objects value : Value}
    (keyed : (Step.key key).onValue document position objects = .ok value) :
    (Step.index n).onValue document position objects = .ok value := by
  have single := fun node => (@answers_onValue document position key n low high ofKey node).1
  cases objects with
  | absent =>
    rw [Step.onValue_absent] at keyed ⊢
    exact single .null value keyed
  | single node => exact single node value keyed
  | vector nodes =>
    rw [Step.onValue_vector] at keyed ⊢
    obtain ⟨all, collected, rfl⟩ := Broadcast.exists_of_map_ok keyed
    rw [Broadcast.collect_of_imp single collected]
    rfl

/-- A value on which brackets fail alone has an array out of range, and the result behind the dot
leaves it out. -/
theorem leavesOut_of_onValue (low : Int32.minValue.toInt ≤ n.toInt)
    (high : n.toInt ≤ Int32.maxValue.toInt)
    (ofKey : key.eval document = .ok (.single (.integer n))) {objects value : Value} {e : EvalError}
    (failed : (Step.key key).onValue document position objects = .error e)
    (found : (Step.index n).onValue document position objects = .ok value) :
    ∃ fault, fault.IsOutOfRange ∧ e = .runtime position fault ∧
      LeavesOut document position key n e objects value := by
  have single := fun node => @answers_onValue document position key n low high ofKey node
  cases objects with
  | absent =>
    rw [Step.onValue_absent] at failed found
    obtain ⟨_, elements, -, -, array, -⟩ := (single .null).2 e value failed found
    cases array
  | single node =>
    obtain ⟨fault, elements, outOfRange, raised, rfl, place, rfl⟩ :=
      (single node).2 e value failed found
    exact ⟨fault, outOfRange, raised, .missing place failed⟩
  | vector nodes =>
    rw [Step.onValue_vector] at failed found
    obtain ⟨all, collected, rfl⟩ := Broadcast.exists_of_map_ok found
    obtain ⟨before, node, after, front, omitted, back, rfl, alone, passed, keyed, inFront, behind,
      rfl⟩ :=
      Broadcast.exists_row_of_imp (fun node => (single node).1) (error_of_map failed) collected
    obtain ⟨fault, elements, outOfRange, raised, rfl, place, rfl⟩ :=
      (single node).2 e omitted alone passed
    refine ⟨fault, outOfRange, raised, .dropped place alone passed ?_ ?_ ?_⟩
    · rw [Step.onValue_vector, keyed]
      rfl
    · rw [Step.onValue_vector, inFront]
      rfl
    · rw [Step.onValue_vector, behind]
      rfl

/-- An integer of 32 bits behind a dot agrees with the integer in brackets. -/
theorem agreesWithBrackets (low : Int32.minValue.toInt ≤ n.toInt)
    (high : n.toInt ≤ Int32.maxValue.toInt)
    (ofKey : key.eval document = .ok (.single (.integer n))) :
    AgreesWithBrackets document position object key n := by
  have keyed : (field position object key).eval document =
      (object.eval document).bind ((Step.key key).onValue document position) :=
    @Step.eval_apply document position (.key key) object
  have dotted : (index position object n).eval document =
      (object.eval document).bind ((Step.index n).onValue document position) :=
    @Step.eval_apply document position (.index n) object
  have result : ∀ value, (field position object key).eval document = .ok value →
      (index position object n).eval document = .ok value := by
    intro value found
    rw [keyed] at found
    rw [dotted]
    cases evaluated : object.eval document with
    | error e => cases evaluated ▸ found
    | ok objects =>
      rw [evaluated] at found
      exact onValue_index_of_key low high ofKey found
  refine ⟨result, fun e failed => ?_, fun e value failed found => ?_⟩
  · cases bracketed : (field position object key).eval document with
    | error e' => exact ⟨e', rfl⟩
    | ok value => cases failed.symm.trans (result value bracketed)
  · rw [keyed] at failed
    rw [dotted] at found
    cases evaluated : object.eval document with
    | error e => cases evaluated ▸ found
    | ok objects =>
      rw [evaluated] at failed found
      obtain ⟨fault, outOfRange, raised, leavesOut⟩ :=
        leavesOut_of_onValue low high ofKey failed found
      exact ⟨fault, objects, outOfRange, raised, rfl, leavesOut⟩

/-- Behind a dot every integer of 64 bits has a result on every array. -/
theorem total (document : Node) (position : Nat) (object : Expr) (n : Int64) :
    Total document position object n := by
  have dotted : (index position object n).eval document =
      (object.eval document).bind ((Step.index n).onValue document position) :=
    @Step.eval_apply document position (.index n) object
  have found : ∀ elements, ∃ node, (Step.index n).onValue document position
      (.single (.array elements)) = .ok (.single node) := by
    intro elements
    rw [Step.onValue_index_single, byIndex_array]
    exact ⟨_, rfl⟩
  refine ⟨fun elements evaluated => ?_, fun objects evaluated arrays => ?_, fun elements fits => ?_⟩
  · rw [dotted, evaluated]
    exact found elements
  · have each : ∀ node ∈ objects, ∃ value,
        (Step.index n).onValue document position (.single node) = .ok value := by
      intro node member
      obtain ⟨elements, rfl⟩ := exists_of_isArray (arrays node member)
      obtain ⟨node, computed⟩ := found elements
      exact ⟨_, computed⟩
    obtain ⟨nodes, collected⟩ := Broadcast.exists_collect each
    rw [dotted, evaluated]
    refine ⟨nodes, ?_⟩
    simp only [Except.bind, Step.onValue_vector, collected]
    rfl
  · have exact := toInt_fromStart n elements.length fits
    refine ⟨exact, ?_⟩
    rw [exact]
    rfl

/-- Behind a dot an integer of 32 bits has every result that it has in brackets, and it fails only
where it fails in brackets as well; where it fails in brackets alone, an index is out of range, and
what it would have selected is missing from the result. An integer of 64 bits behind a dot never
fails on an array, and 64 bits hold every sum that it takes to find the index. -/
theorem index_agreesWithBrackets (document : Node) (position : Nat) (object : Expr) (n : Int64) :
    (∀ key, Int32.minValue.toInt ≤ n.toInt → n.toInt ≤ Int32.maxValue.toInt →
      key.eval document = .ok (.single (.integer n)) →
      AgreesWithBrackets document position object key n) ∧
    Total document position object n :=
  ⟨fun _ => agreesWithBrackets, total document position object n⟩

/-- Brackets fail on the second of two arrays, which has one element; behind the dot the array is
left out, and the least integer of 64 bits selects nothing at all. -/
theorem index_agreesWithBrackets_dropped :
    let document : Node := .object [("a", .array [.integer 1, .integer 2]),
      ("b", .array [.integer 3])]
    let object : Expr := .wildcard 1 (.root 0)
    let key : Expr := .literal 3 (.integer 1)
    (field 2 object key).eval document = .error (.runtime 2 (.beyondLast 1 0)) ∧
      (index 2 object 1).eval document = .ok (.vector [.integer 2]) ∧
      (∃ fault objects, fault.IsOutOfRange ∧
        EvalError.runtime 2 (.beyondLast 1 0) = .runtime 2 fault ∧
        object.eval document = .ok objects ∧
        LeavesOut document 2 key 1 (.runtime 2 (.beyondLast 1 0)) objects (.vector [.integer 2])) ∧
      ∃ nodes, (index 2 object Int64.minValue).eval document = .ok (.vector nodes) := by
  intro document object key
  have failed : (field 2 object key).eval document = .error (.runtime 2 (.beyondLast 1 0)) := by
    rfl
  have found : (index 2 object 1).eval document = .ok (.vector [.integer 2]) := by rfl
  have agrees := (index_agreesWithBrackets document 2 object 1).1 key (by decide) (by decide) rfl
  refine ⟨failed, found, agrees.leftOut _ _ failed found, ?_⟩
  exact (index_agreesWithBrackets document 2 object Int64.minValue).2.arrays _ rfl (by decide)

end Expr

end PathQuery
