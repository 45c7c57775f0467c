import PathQuery.Document.Node
/-!
# Parts of nodes

A node is part of another one when it is the other one or stands anywhere inside it. What is looked
up in a node by a key or an index is part of the node, unless nothing is found.
-/
namespace PathQuery

/-- The node is part of another one: it is the other one, or part of one of its children. -/
inductive Node.Within (part : Node) : Node → Prop where
  /-- A node is part of itself. -/
  | whole : Within part part
  /-- What is part of a child is part of the node. -/
  | child {outer child : Node} (member : child ∈ outer.children) (inside : Within part child) :
    Within part outer

namespace Node

/-- What holds of a node if it holds of its children holds of every node. -/
theorem induction_children {P : Node → Prop}
    (step : ∀ node : Node, (∀ child ∈ node.children, P child) → P node) (node : Node) : P node := by
  induction bound : sizeOf node using Nat.strongRecOn generalizing node with
  | ind size ih =>
    refine step node fun child member => ih (sizeOf child) ?_ child rfl
    subst bound
    cases node with
    | array elements =>
      have smaller : sizeOf child < sizeOf elements := List.sizeOf_lt_of_mem member
      simp only [array.sizeOf_spec]
      omega
    | object members =>
      obtain ⟨entry, inside, rfl⟩ := List.mem_map.1 member
      have smaller := List.sizeOf_lt_of_mem inside
      obtain ⟨key, value⟩ := entry
      simp only [object.sizeOf_spec, Prod.mk.sizeOf_spec] at smaller ⊢
      omega
    | null | boolean | integer | float | string | missing => cases member

variable {part middle outer : Node}

/-- A child is part of its node. -/
theorem within_of_mem_children (member : part ∈ outer.children) : part.Within outer :=
  .child member .whole

/-- A part of a part is a part. -/
theorem Within.trans (inner : part.Within middle) (outward : middle.Within outer) :
    part.Within outer := by
  induction outward with
  | whole => exact inner
  | child member _ ih => exact .child member ih

/-- Every part of the node has the property. -/
def Everywhere (P : Node → Prop) (n : Node) : Prop := ∀ part, Within part n → P part

/-- Every part has a property when the node and every part of its children have it. -/
theorem everywhere_iff {P : Node → Prop} {n : Node} :
    n.Everywhere P ↔ P n ∧ ∀ child ∈ n.children, child.Everywhere P := by
  constructor
  · exact fun every => ⟨every n .whole, fun child member part within =>
      every part (.child member within)⟩
  · rintro ⟨own, inside⟩ part within
    cases within with
    | whole => exact own
    | child member deeper => exact inside _ member part deeper

/-- Every part of a node without children has a property when the node has it. -/
theorem everywhere_of_leaf {P : Node → Prop} {n : Node} (leaf : n.children = []) (own : P n) :
    n.Everywhere P := by
  rw [everywhere_iff, leaf]
  exact ⟨own, nofun⟩

/-- Every part of an array has a property when the array and every part of its elements have it. -/
theorem everywhere_array {P : Node → Prop} {elements : List Node} :
    (array elements).Everywhere P ↔
      P (array elements) ∧ ∀ element ∈ elements, element.Everywhere P :=
  everywhere_iff

/-- What is neither the node nor part of one of its children is not part of it. -/
theorem not_within (other : part ≠ outer) (inside : ∀ child ∈ outer.children, ¬ part.Within child) :
    ¬ part.Within outer := by
  intro within
  cases within with
  | whole => exact other rfl
  | child member deeper => exact inside _ member deeper

/-- The value under a key is a child. -/
theorem mem_children_of_member? {key : String} (found : outer.member? key = some part) :
    part ∈ outer.children := by
  cases outer with
  | object members =>
    simp only [member?] at found
    induction members with
    | nil => cases found
    | cons head later ih =>
      obtain ⟨k, v⟩ := head
      simp only [Members.find?] at found
      split at found
      · obtain rfl := Option.some.inj found
        exact List.mem_cons_self
      · exact List.mem_cons_of_mem _ (ih found)
  | null | boolean | integer | float | string | array | missing => cases found

/-- The value under a key is part of the object, if it is not missing. -/
theorem member_within (key : String) (object : Node) :
    (object.member key).Within object ∨ object.member key = .missing := by
  unfold member
  cases found : object.member? key with
  | none => exact .inr rfl
  | some value => exact .inl (within_of_mem_children (mem_children_of_member? found))

/-- The element at an index is part of the array, if it is not missing. -/
theorem element_within (index : Int) (array : Node) :
    (array.element index).Within array ∨ array.element index = .missing := by
  cases array with
  | array elements =>
    simp only [element]
    split
    · exact .inr rfl
    · rw [List.getD_eq_getElem?_getD]
      cases found : elements[index.toNat]? with
      | none => exact .inr rfl
      | some value => exact .inl (within_of_mem_children (List.mem_of_getElem? found))
  | null | boolean | integer | float | string | object | missing => exact .inr rfl

end Node

end PathQuery
