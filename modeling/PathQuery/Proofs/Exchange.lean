import PathQuery.Document.Library
import PathQuery.Proofs.Descent
import PathQuery.Proofs.FloatText
/-!
# Documents that were JSON values

A node that becomes a JSON value and a node again has lost what JSON cannot say, at any depth, and
nothing else: missing nodes and numbers that are not finite are null, and every other node is what
it was, with the same keys in the same order. What is lost was written as null before, so the text
of the node is the same in either layout.
-/
namespace PathQuery

namespace Node

/-! ## What JSON can say -/

/-- JSON can say the node, apart from what stands inside it. -/
def IsExpressible : Node → Prop
  | .missing => False
  | .float x => (Binary.ofFloat x).isFinite = true
  | _ => True

/-- Elements are expressed one by one. -/
theorem expressibleElements_eq (elements : List Node) :
    expressibleElements elements = elements.map expressible := by
  induction elements with
  | nil => rfl
  | cons first later ih => rw [expressibleElements, ih, List.map_cons]

/-- Members are expressed one by one. -/
theorem expressibleMembers_eq (members : List (String × Node)) :
    expressibleMembers members = Members.mapValues expressible members := by
  induction members with
  | nil => rfl
  | cons first later ih => exact congrArg ((first.1, first.2.expressible) :: ·) ih

/-- The children are expressed one by one. -/
theorem children_expressible (n : Node) : n.expressible.children = n.children.map expressible := by
  cases n with
  | array elements => exact expressibleElements_eq elements
  | object members =>
    rw [expressible, expressibleMembers_eq]
    simp [children, Members.values, Members.mapValues]
  | float x =>
    rw [expressible]
    split <;> rfl
  | null | boolean | integer | string | missing => rfl

/-- A branch leads to what JSON can say of the node it led to. -/
theorem follow?_expressible (branch : Branch) (n : Node) :
    n.expressible.follow? branch = (n.follow? branch).map expressible := by
  cases n with
  | array elements =>
    rw [expressible, expressibleElements_eq]
    cases branch with
    | element index => exact List.getElem?_map
    | member key => rfl
  | object members =>
    rw [expressible, expressibleMembers_eq]
    cases branch with
    | element index => rfl
    | member key => exact Members.find?_mapValues expressible key members
  | float x =>
    rw [expressible]
    split <;> cases branch <;> rfl
  | null | boolean | integer | string | missing => cases branch <;> rfl

/-- The same paths lead anywhere, to what JSON can say of the subtrees there. -/
theorem at?_expressible (path : List Branch) (n : Node) :
    n.expressible.at? path = (n.at? path).map expressible := by
  induction path generalizing n with
  | nil => rfl
  | cons branch path ih =>
    rw [at?, at?, follow?_expressible]
    cases n.follow? branch with
    | none => rfl
    | some child => exact ih child

/-- What JSON can say of a node, it can say at any depth. -/
theorem everywhere_expressible (n : Node) : n.expressible.Everywhere IsExpressible := by
  induction n using Node.induction_children with
  | step n ih =>
    refine everywhere_iff.2 ⟨?_, fun child member => ?_⟩
    · cases n with
      | float x =>
        rw [expressible]
        split
        · next finite => exact finite
        · trivial
      | null | boolean | integer | string | array | object | missing => trivial
    · rw [children_expressible] at member
      obtain ⟨before, inside, rfl⟩ := List.mem_map.1 member
      exact ih before inside

/-- Where the keys stand in order they do so in what JSON can say. -/
theorem everywhere_ordered_expressible {n : Node} (ordered : n.Everywhere HasOrderedKeys) :
    n.expressible.Everywhere HasOrderedKeys := by
  induction n using Node.induction_children with
  | step n ih =>
    obtain ⟨own, inside⟩ := everywhere_iff.1 ordered
    refine everywhere_iff.2 ⟨?_, fun child member => ?_⟩
    · cases n with
      | object members =>
        rw [expressible, expressibleMembers_eq]
        exact Members.ordered_mapValues.2 own
      | float x =>
        rw [expressible]
        split <;> trivial
      | null | boolean | integer | string | array | missing => trivial
    · rw [children_expressible] at member
      obtain ⟨before, within, rfl⟩ := List.mem_map.1 member
      exact ih before within (inside before within)

/-- A node is what JSON can say of it exactly if JSON can say all of it. -/
theorem expressible_eq_self_iff {n : Node} : n.expressible = n ↔ n.Everywhere IsExpressible := by
  constructor
  · intro same
    rw [← same]
    exact everywhere_expressible n
  · intro every
    induction n using Node.induction_children with
    | step n ih =>
      obtain ⟨own, inside⟩ := everywhere_iff.1 every
      have children : ∀ child ∈ n.children, child.expressible = child := fun child member =>
        ih child member (inside child member)
      cases n with
      | array elements =>
        have same := (List.map_congr_left children).trans (List.map_id' elements)
        exact congrArg array ((expressibleElements_eq elements).trans same)
      | object members =>
        have same : Members.mapValues expressible members = members := by
          refine (List.map_congr_left fun member inside => ?_).trans (List.map_id' members)
          exact Prod.ext rfl (children member.2 (List.mem_map_of_mem inside))
        exact congrArg object ((expressibleMembers_eq members).trans same)
      | float x => exact if_pos own
      | missing => exact own.elim
      | null | boolean | integer | string => rfl

/-! ## The text of a node -/

variable {layout : Layout}

/-- Elements are written as before if each of them is. -/
theorem writeElements_map {f : Node → Node} {elements : List Node}
    (alike : ∀ element ∈ elements, ∀ level, (f element).write layout level =
      element.write layout level) (level : Nat) :
    writeElements layout level (elements.map f) = writeElements layout level elements := by
  induction elements with
  | nil => rfl
  | cons first later ih =>
    obtain ⟨own, others⟩ := List.forall_mem_cons.1 alike
    rw [List.map_cons, writeElements, own, ih others, writeElements]

/-- Members are written as before if the value of each of them is. -/
theorem writeMembers_mapValues {f : Node → Node} {members : List (String × Node)}
    (alike : ∀ member ∈ members, ∀ level, (f member.2).write layout level =
      member.2.write layout level) (level : Nat) :
    writeMembers layout level (Members.mapValues f members) =
      writeMembers layout level members := by
  induction members with
  | nil => rfl
  | cons first later ih =>
    obtain ⟨own, others⟩ := List.forall_mem_cons.1 alike
    rw [Members.mapValues, List.map_cons, writeMembers, own, ← Members.mapValues, ih others,
      writeMembers]

/-- What JSON cannot say is written as null already, in either layout and at any level. -/
theorem write_expressible (layout : Layout) (n : Node) (level : Nat) :
    n.expressible.write layout level = n.write layout level := by
  induction n using Node.induction_children generalizing level with
  | step n ih =>
    cases n with
    | array elements =>
      cases elements with
      | nil => rfl
      | cons first later =>
        obtain ⟨own, others⟩ := List.forall_mem_cons.1 ih
        rw [expressible, expressibleElements, write, own, expressibleElements_eq,
          writeElements_map others, write]
    | object members =>
      cases members with
      | nil => rfl
      | cons member later =>
        obtain ⟨own, others⟩ := List.forall_mem_cons.1 ih
        have inside : ∀ member ∈ later, ∀ level, member.2.expressible.write layout level =
            member.2.write layout level := fun member found =>
          others member.2 (List.mem_map_of_mem found)
        rw [expressible, expressibleMembers, write, own, expressibleMembers_eq,
          writeMembers_mapValues inside, write]
    | float x =>
      rw [expressible]
      split
      · rfl
      · next other => exact (Decimal.floatText_of_not_finite (Bool.eq_false_iff.2 other)).symm
    | null | boolean | integer | string | missing => rfl

end Node

/-! ## The way through JSON values -/

/-- What a library promises of its numbers: integers come back as they are, and finite
floating-point numbers as themselves and never as integers. Other floating-point numbers have no
number. -/
structure JsonNumbers.Faithful {N : Type} (numbers : JsonNumbers N) : Prop where
  /-- An integer comes back. -/
  integer (n : Int64) : numbers.integer? (numbers.ofInteger n) = some n
  /-- A finite floating-point number has a number, which is no integer and comes back. -/
  finite {x : Float} (finite : (Binary.ofFloat x).isFinite = true) :
    ∃ value, numbers.ofFloat? x = some value ∧ numbers.integer? value = none ∧
      numbers.float? value = some x
  /-- What is not finite has no number. -/
  other {x : Float} (other : (Binary.ofFloat x).isFinite = false) : numbers.ofFloat? x = none

/-- Numbers that are kept apart come back. -/
theorem JsonNumbers.faithful_apart : apart.Faithful where
  integer _ := rfl
  finite {x} finite := ⟨.inr x, if_pos finite, rfl, rfl⟩
  other other := if_neg (Bool.eq_false_iff.1 other)

namespace Node

variable {N : Type} {numbers : JsonNumbers N}

/-- Elements go one by one. -/
theorem toJsonElements_eq (elements : List Node) :
    toJsonElements numbers elements = elements.map (toJson numbers) := by
  induction elements with
  | nil => rfl
  | cons first later ih => rw [toJsonElements, ih, List.map_cons]

/-- Members go one by one. -/
theorem toJsonMembers_eq (members : List (String × Node)) :
    toJsonMembers numbers members = Members.mapValues (toJson numbers) members := by
  induction members with
  | nil => rfl
  | cons first later ih => exact congrArg ((first.1, first.2.toJson numbers) :: ·) ih

/-- Elements come back one by one. -/
theorem toNodeElements_eq (elements : List (JsonValue N)) :
    JsonValue.toNodeElements numbers elements = elements.map (JsonValue.toNode numbers) := by
  induction elements with
  | nil => rfl
  | cons first later ih => rw [JsonValue.toNodeElements, ih, List.map_cons]

/-- Members come back one by one. -/
theorem toNodeMembers_eq (members : List (String × JsonValue N)) :
    JsonValue.toNodeMembers numbers members =
      Members.mapValues (JsonValue.toNode numbers) members := by
  induction members with
  | nil => rfl
  | cons first later ih => exact congrArg ((first.1, first.2.toNode numbers) :: ·) ih

/-- The elements of an array are exchanged one by one. -/
theorem exchange_array (elements : List Node) :
    (array elements).exchange numbers = array (elements.map (exchange numbers)) := by
  rw [exchange, toJson, JsonValue.toNode, toJsonElements_eq, toNodeElements_eq, List.map_map]
  rfl

/-- The values of an object with its keys in order are exchanged one by one. -/
theorem exchange_object {members : List (String × Node)} (ordered : Members.Ordered members) :
    (object members).exchange numbers = object (Members.mapValues (exchange numbers) members) := by
  have before : (Members.mapValues (toJson numbers) members).Ordered :=
    Members.ordered_mapValues.2 ordered
  have after : (Members.mapValues (JsonValue.toNode numbers)
      (Members.mapValues (toJson numbers) members)).Ordered := Members.ordered_mapValues.2 before
  rw [exchange, toJson, JsonValue.toNode, toJsonMembers_eq, before.ofEntries_eq, toNodeMembers_eq,
    ofEntries, after.ofEntries_eq, Members.mapValues, Members.mapValues, List.map_map]
  rfl

/-- What comes back is what JSON can say of the node. -/
theorem exchange_eq_expressible (faithful : numbers.Faithful) {n : Node}
    (ordered : n.Everywhere HasOrderedKeys) : n.exchange numbers = n.expressible := by
  induction n using Node.induction_children with
  | step n ih =>
    obtain ⟨own, inside⟩ := everywhere_iff.1 ordered
    have children : ∀ child ∈ n.children, child.exchange numbers = child.expressible :=
      fun child member => ih child member (inside child member)
    cases n with
    | array elements =>
      have same : elements.map (exchange numbers) = elements.map expressible :=
        List.map_congr_left children
      rw [exchange_array, expressible, expressibleElements_eq, same]
    | object members =>
      have same : Members.mapValues (exchange numbers) members =
          Members.mapValues expressible members :=
        List.map_congr_left fun member found =>
          Prod.ext rfl (children member.2 (List.mem_map_of_mem found))
      rw [exchange_object own, expressible, expressibleMembers_eq, same]
    | integer n => simp only [exchange, toJson, JsonValue.toNode, faithful.integer, expressible]
    | float x =>
      cases finite : (Binary.ofFloat x).isFinite with
      | true =>
        obtain ⟨value, made, notInteger, back⟩ := faithful.finite finite
        simp [exchange, toJson, JsonValue.toNode, expressible, made, notInteger, back, finite]
      | false =>
        simp [exchange, toJson, JsonValue.toNode, expressible, faithful.other finite, finite]
    | null | boolean | string | missing => rfl

/-- After a node was a JSON value it is what JSON can say of it: missing nodes and numbers that are
not finite are null, and at every path there is what JSON can say of the subtree that was there. A
second time changes nothing, and the first time changes nothing exactly in nodes that JSON can say
at any depth. Both texts are the ones of the node before. -/
theorem exchange_loses_inexpressible (faithful : numbers.Faithful) {n : Node}
    (ordered : n.Everywhere HasOrderedKeys) :
    n.exchange numbers = n.expressible ∧
    (∀ path, (n.exchange numbers).at? path = (n.at? path).map expressible) ∧
    (n.exchange numbers).exchange numbers = n.exchange numbers ∧
    (n.exchange numbers = n ↔ n.Everywhere IsExpressible) ∧
    (n.exchange numbers).compact = n.compact ∧ (n.exchange numbers).pretty = n.pretty := by
  have said := exchange_eq_expressible faithful ordered
  have again : n.expressible.exchange numbers = n.expressible := by
    rw [exchange_eq_expressible faithful (everywhere_ordered_expressible ordered)]
    exact expressible_eq_self_iff.2 (everywhere_expressible n)
  have written (layout : Layout) : n.expressible.render layout = n.render layout :=
    congrArg String.ofList (write_expressible layout n 0)
  rw [said]
  exact ⟨rfl, fun path => at?_expressible path n, again, expressible_eq_self_iff,
    written .compact, written .indented⟩

/-- Deep inside of a document a missing node, an infinity and a number that is none become null,
while a whole floating-point number and the negative zero stay floating-point numbers. -/
theorem exchange_loses_inexpressible_nested :
    let notANumber : Node := .float (Float.ofBits 0x7ff8000000000000)
    let inner : Node := .object [("\u001f", .float Decimal.infinity)]
    let n : Node := .object [("a", .array [.float (-0.0), .float 2.0, .integer 2, notANumber]),
      ("b", .array [inner, .missing])]
    let other : Node := .object [("a", .array [.float (-0.0), .float 2.0, .integer 2, .null]),
      ("b", .array [.object [("\u001f", .null)], .null])]
    n.Everywhere HasOrderedKeys ∧ n.exchange JsonNumbers.apart = other ∧
      other.exchange JsonNumbers.apart = other ∧ ¬ n.Everywhere IsExpressible ∧
      n.compact =
        "\x7b\"a\":[-0.0,2.0,2,null],\"b\":[\x7b\"\\u001f\":null\x7d,null]\x7d" ∧
      other.compact = n.compact := by
  intro notANumber inner n other
  have ordered : n.Everywhere HasOrderedKeys := by
    have leaf {node : Node} := everywhere_of_leaf (P := HasOrderedKeys) (n := node)
    have single : inner.Everywhere HasOrderedKeys :=
      everywhere_iff.2 ⟨List.pairwise_singleton .., List.forall_mem_singleton.2 (leaf rfl trivial)⟩
    have keys : ["a", "b"].Pairwise (· < ·) := by decide
    refine everywhere_iff.2 ⟨keys, ?_⟩
    simp only [n, children, Members.values, List.map_cons, List.map_nil, List.forall_mem_cons,
      everywhere_array]
    have none : ∀ child ∈ ([] : List Node), child.Everywhere HasOrderedKeys :=
      List.forall_mem_nil _
    exact ⟨⟨trivial, leaf rfl trivial, leaf rfl trivial, leaf rfl trivial, leaf rfl trivial, none⟩,
      ⟨trivial, single, leaf rfl trivial, none⟩, none⟩
  have said : n.expressible = other := by
    have negativeZero : (Binary.ofFloat (-0.0)).isFinite = true := by decide +kernel
    have two : (Binary.ofFloat 2.0).isFinite = true := by decide +kernel
    have infinity : (Binary.ofFloat Decimal.infinity).isFinite = false := by decide +kernel
    have none : (Binary.ofFloat (Float.ofBits 0x7ff8000000000000)).isFinite = false := by
      decide +kernel
    simp [n, inner, notANumber, other, expressible, expressibleElements, expressibleMembers,
      negativeZero, two, infinity, none]
  obtain ⟨came, -, again, unchanged, compactly, -⟩ :=
    exchange_loses_inexpressible JsonNumbers.faithful_apart ordered
  rw [came, said] at again unchanged compactly
  have changed : other ≠ n := fun same =>
    Bool.false_ne_true (congrArg (fun node => ((node.member "b").element 1).isMissing) same)
  exact ⟨ordered, came.trans said, again, fun every => changed (unchanged.2 every),
    by decide +kernel, compactly⟩

end Node

end PathQuery
