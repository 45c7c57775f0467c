import PathQuery.Proofs.Parts
import PathQuery.Proofs.Chains
/-!
# Where results come from

Evaluation builds no nodes but truth values. Whatever else it answers with is part of the document
or of a constant in the expression, and a lookup that finds nothing answers with a lone missing
node, which never gets into a vector. So what a document and the constants have in all their parts,
the results have too: without missing nodes in them there are none in the results.
-/
namespace PathQuery

/-! ## Lookups -/

namespace Select

variable {position : Nat} {object found : Node} {nodes : List Node}

/-- What is found under a key is part of the object, if it is not missing. -/
theorem within_of_byKey {key : Node} (selected : byKey position key object = .ok found) :
    found.Within object ∨ found = .missing := by
  unfold byKey at selected
  split at selected
  · split at selected
    · exact Except.ok.inj selected ▸ object.member_within _
    · cases selected
  · split at selected
    · dsimp only at selected
      split at selected
      · cases selected
      · split at selected
        · cases selected
        · exact Except.ok.inj selected ▸ object.element_within _
    · cases selected
  · cases selected

/-- What is found at an index is part of the array, if it is not missing. -/
theorem within_of_byIndex {index : Int} (selected : byIndex position index object = .ok found) :
    found.Within object ∨ found = .missing := by
  unfold byIndex at selected
  split at selected
  · exact Except.ok.inj selected ▸ object.element_within _
  · cases selected

/-- All selected children are parts of the node. -/
theorem within_of_children (selected : children position object = .ok nodes) :
    ∀ node ∈ nodes, node.Within object := by
  intro node member
  cases object with
  | array elements =>
    obtain rfl := Except.ok.inj selected
    obtain ⟨element, inArray, inElement⟩ := List.mem_flatMap.1 member
    exact .child inArray (Node.within_of_mem_children inElement)
  | object members =>
    obtain rfl := Except.ok.inj selected
    exact Node.within_of_mem_children member
  | null | boolean | integer | float | string | missing => cases selected

/-- What a container contributes to a descent is part of it. -/
theorem within_of_mem_contribution {name : Option String} {container node : Node}
    (member : node ∈ contribution name container) : node.Within container := by
  cases name with
  | none => exact List.mem_singleton.1 member ▸ .whole
  | some name =>
    exact Node.within_of_mem_children (Node.mem_children_of_member? (Option.mem_toList.1 member))

mutual

/-- What a descent finds in a node is part of it. -/
theorem within_of_mem_descend {name : Option String} {node : Node} :
    ∀ {object : Node}, node ∈ descend name object → node.Within object
  | .array elements, member => by
    rcases List.mem_append.1 (by simpa only [descend] using member) with own | deeper
    · exact within_of_mem_contribution own
    · obtain ⟨element, inside, within⟩ := within_of_mem_descendElements deeper
      exact .child inside within
  | .object members, member => by
    rcases List.mem_append.1 (by simpa only [descend] using member) with own | deeper
    · exact within_of_mem_contribution own
    · obtain ⟨value, inside, within⟩ := within_of_mem_descendMembers deeper
      exact .child inside within
  | .null, member | .boolean _, member | .integer _, member | .float _, member
  | .string _, member | .missing, member => by simp [descend] at member

/-- What a descent finds in some elements is part of one of them. -/
theorem within_of_mem_descendElements {name : Option String} {node : Node} :
    ∀ {elements : List Node}, node ∈ descendElements name elements →
      ∃ element ∈ elements, node.Within element
  | element :: later, member => by
    rcases List.mem_append.1 (by simpa only [descendElements] using member) with first | others
    · exact ⟨element, List.mem_cons_self, within_of_mem_descend first⟩
    · obtain ⟨other, inside, within⟩ := within_of_mem_descendElements others
      exact ⟨other, List.mem_cons_of_mem _ inside, within⟩

/-- What a descent finds in some members is part of the value of one of them. -/
theorem within_of_mem_descendMembers {name : Option String} {node : Node} :
    ∀ {members : List (String × Node)}, node ∈ descendMembers name members →
      ∃ value ∈ Members.values members, node.Within value
  | (_, value) :: later, member => by
    rcases List.mem_append.1 (by simpa only [descendMembers] using member) with first | others
    · exact ⟨value, List.mem_cons_self, within_of_mem_descend first⟩
    · obtain ⟨other, inside, within⟩ := within_of_mem_descendMembers others
      exact ⟨other, List.mem_cons_of_mem _ inside, within⟩

end

end Select

/-! ## Results -/

/-- The value consists of nodes with the property; in place of such a node a single one may be
missing. -/
def Value.Consists (P : Node → Prop) : Value → Prop
  | .absent => False
  | .single node => P node ∨ node = .missing
  | .vector nodes => ∀ node ∈ nodes, P node

namespace Value

variable {P Q : Node → Prop} {value : Value}

/-- What consists of nodes with a property consists of nodes with every weaker one. -/
theorem Consists.mono (consists : value.Consists P) (weaker : ∀ node, P node → Q node) :
    value.Consists Q := by
  cases value with
  | absent => exact consists
  | single node => exact consists.imp (weaker node) id
  | vector nodes => exact fun node member => weaker node (consists node member)

/-- A single node that is not missing contributes itself. -/
theorem nodes_single {node : Node} (present : node ≠ .missing) :
    (Value.single node).nodes = [node] := by
  cases node with
  | missing => exact absurd rfl present
  | null | boolean | integer | float | string | array | object => rfl

/-- A missing node contributes nothing, so all nodes that a result contributes have the property. -/
theorem Consists.of_mem_nodes (consists : value.Consists P) {node : Node}
    (member : node ∈ value.nodes) : P node := by
  fun_cases nodes value with
  | case1 => cases member
  | case2 => cases member
  | case3 only present =>
    rw [nodes_single present] at member
    exact List.mem_singleton.1 member ▸ consists.resolve_right present
  | case4 all => exact consists node member

end Value

namespace Broadcast

variable {P : Node → Prop} {α : Type} {compute : α → Except EvalError Value} {rows : List α}
  {nodes : List Node}

/-- If the results of all rows consist of nodes with a property, the collected nodes have it. -/
theorem forall_mem_of_collect (collected : collect compute rows = .ok nodes)
    (each : ∀ row ∈ rows, ∀ value, compute row = .ok value → value.Consists P) :
    ∀ node ∈ nodes, P node := by
  induction rows generalizing nodes with
  | nil =>
    obtain rfl := Except.ok.inj collected
    exact nofun
  | cons row later ih =>
    obtain ⟨first, others⟩ := List.forall_mem_cons.1 each
    simp only [collect] at collected
    split at collected
    · cases collected
    · next value computed =>
      split at collected
      · cases collected
      · next more rest =>
        obtain rfl := Except.ok.inj collected
        intro node member
        rcases List.mem_append.1 member with here | there
        · exact (first value computed).of_mem_nodes here
        · exact ih rest others node there

/-- If every result of an operator consists of nodes with a property, its broadcast does. -/
theorem consists_of_apply {position : Nat} {values : List Value} {result : Value}
    {compute : List Node → Except EvalError Value}
    (each : ∀ row value, compute row = .ok value → value.Consists P)
    (computed : apply position values compute = .ok result) : result.Consists P := by
  unfold apply at computed
  split at computed
  · exact each _ result computed
  · split at computed
    · cases computed
    · obtain ⟨nodes, collected, rfl⟩ := exists_of_map_ok computed
      exact forall_mem_of_collect collected fun row _ => each row

end Broadcast

namespace Step

variable {document node : Node} {position : Nat} {step : Step} {value result : Value}

/-- What a step makes of a node consists of parts of the node. -/
theorem consists_within (computed : step.onValue document position (.single node) = .ok result) :
    result.Consists (Node.Within · node) := by
  cases step with
  | key k =>
    simp only [onValue] at computed
    split at computed
    · cases computed
    · obtain ⟨found, selected, rfl⟩ := Broadcast.exists_of_map_ok computed
      exact Select.within_of_byKey selected
  | field name =>
    obtain ⟨found, selected, rfl⟩ := Broadcast.exists_of_map_ok computed
    exact Select.within_of_byKey selected
  | index n =>
    obtain ⟨found, selected, rfl⟩ := Broadcast.exists_of_map_ok computed
    exact Select.within_of_byIndex selected
  | wildcard =>
    obtain ⟨nodes, selected, rfl⟩ := Broadcast.exists_of_map_ok computed
    exact Select.within_of_children selected
  | descent name =>
    obtain rfl := Except.ok.inj computed
    exact fun found member => Select.within_of_mem_descend member

/-- A step on nodes with a property that parts inherit gives nodes with that property. -/
theorem consists_onValue {P : Node → Prop}
    (inherited : ∀ {part whole : Node}, P whole → part.Within whole → P part)
    (consists : value.Consists P)
    (computed : step.onValue document position value = .ok result) : result.Consists P := by
  have single : ∀ {node : Node} {result : Value}, P node →
      step.onValue document position (.single node) = .ok result → result.Consists P :=
    fun has computed => (consists_within computed).mono fun _ within => inherited has within
  cases value with
  | absent => exact consists.elim
  | single node =>
    rcases consists with has | rfl
    · exact single has computed
    · -- of a missing node a step makes nothing, if it does not fail
      obtain rfl := onValue_scalar rfl computed
      exact nofun
  | vector nodes =>
    rw [onValue_vector] at computed
    obtain ⟨all, collected, rfl⟩ := Broadcast.exists_of_map_ok computed
    exact Broadcast.forall_mem_of_collect collected fun node member _ =>
      single (consists node member)

end Step

namespace Expr

/-- The constants in an expression, those in computed keys included. -/
def constants : Expr → List Node
  | .root _ => []
  | .literal _ value => [value]
  | .field _ object key => object.constants ++ key.constants
  | .index _ object _ | .wildcard _ object | .descent _ object _ => object.constants
  | .boolean _ _ left right => left.constants ++ right.constants

variable {document : Node} {e : Expr} {value : Value} {P : Node → Prop}

/-- If the document, the constants and truth values have a property that parts inherit, the result
consists of nodes with that property. -/
theorem consists_of_eval
    (inherited : ∀ {part whole : Node}, P whole → part.Within whole → P part)
    (truth : ∀ b, P (.boolean b)) (ofDocument : P document)
    (ofConstants : ∀ constant ∈ e.constants, P constant)
    (evaluated : e.eval document = .ok value) : value.Consists P := by
  have stepped : ∀ (step : Step) {object : Expr} {position : Nat} {value : Value},
      (∀ {before}, object.eval document = .ok before → before.Consists P) →
      (step.apply position object).eval document = .ok value → value.Consists P := by
    intro step object position value before evaluated
    rw [Step.eval_apply] at evaluated
    cases first : object.eval document with
    | error e =>
      rw [first] at evaluated
      cases evaluated
    | ok middle =>
      rw [first] at evaluated
      exact Step.consists_onValue inherited (before first) evaluated
  induction e generalizing value with
  | root p =>
    obtain rfl := Except.ok.inj evaluated
    exact .inl ofDocument
  | literal p constant =>
    obtain rfl := Except.ok.inj evaluated
    exact .inl (ofConstants constant List.mem_cons_self)
  | field p object key before _ =>
    -- the key only says which part to take: no node of the result comes from it
    have own : ∀ constant ∈ object.constants, P constant := fun constant member =>
      ofConstants constant (List.mem_append_left _ member)
    exact stepped (.key key) (before own) evaluated
  | index p object n before => exact stepped (.index n) (before ofConstants) evaluated
  | wildcard p object before => exact stepped .wildcard (before ofConstants) evaluated
  | descent p object name before =>
    exact stepped (.descent name) (before ofConstants) evaluated
  | boolean p op left right _ _ =>
    simp only [eval] at evaluated
    split at evaluated
    · cases evaluated
    · split at evaluated
      · obtain rfl := Except.ok.inj evaluated
        exact .inl (truth _)
      · split at evaluated
        · cases evaluated
        · refine Broadcast.consists_of_apply (fun row result computed => ?_) evaluated
          obtain rfl := Except.ok.inj computed
          exact .inl (truth _)

/-- The node is part of the document or of a constant in the expression, or it is a truth value. -/
def Source (e : Expr) (document node : Node) : Prop :=
  node.Within document ∨ (∃ constant ∈ e.constants, node.Within constant) ∨
    ∃ b, node = .boolean b

/-- A part of a node that has a source has a source. -/
theorem Source.inherited {part whole : Node} (source : e.Source document whole)
    (within : part.Within whole) : e.Source document part := by
  rcases source with inDocument | ⟨constant, member, inConstant⟩ | ⟨b, rfl⟩
  · exact .inl (within.trans inDocument)
  · exact .inr (.inl ⟨constant, member, within.trans inConstant⟩)
  · cases within with
    | whole => exact .inr (.inr ⟨b, rfl⟩)
    | child member _ => cases member

/-- Every node of a result is part of the document or of a constant in the expression, or it is a
truth value; only a single one may be missing instead. If neither the document nor a constant has a
missing node in it, none is in a vector, and a single result has none in it or is one itself. -/
theorem provenance_of_eval (evaluated : e.eval document = .ok value) :
    value.Consists (e.Source document) ∧
    (¬ Node.missing.Within document → (∀ constant ∈ e.constants, ¬ Node.missing.Within constant) →
      value.Consists fun node => ¬ Node.missing.Within node) := by
  refine ⟨?_, fun inDocument inConstants => ?_⟩
  · exact consists_of_eval Source.inherited (fun b => .inr (.inr ⟨b, rfl⟩)) (.inl .whole)
      (fun constant member => .inr (.inl ⟨constant, member, .whole⟩)) evaluated
  · exact consists_of_eval (fun none within some => none (some.trans within))
      (fun b => Node.not_within nofun nofun) inDocument inConstants evaluated

/-- A name that one of two children does not hold: its row leaves nothing missing in the vector. -/
theorem provenance_of_eval_dropped :
    let document : Node := .object [("a", .object [("x", .integer 1)]), ("b", .object [])]
    let e := named 4 (.wildcard 1 (.root 0)) "x"
    e.eval document = .ok (.vector [.integer 1]) ∧ ¬ Node.missing.Within document ∧
    e.Source document (.integer 1) ∧ ¬ Node.missing.Within (.integer 1) := by
  intro document e
  have evaluated : e.eval document = .ok (.vector [.integer 1]) := rfl
  have inDocument : ¬ Node.missing.Within document :=
    Node.not_within nofun (List.forall_mem_cons.2
      ⟨Node.not_within nofun (List.forall_mem_singleton.2 (Node.not_within nofun nofun)),
        List.forall_mem_singleton.2 (Node.not_within nofun nofun)⟩)
  obtain ⟨sources, present⟩ := provenance_of_eval evaluated
  have inConstants : ∀ constant ∈ e.constants, ¬ Node.missing.Within constant := by
    intro constant member
    obtain rfl : constant = .string "x" := List.mem_singleton.1 member
    exact Node.not_within nofun nofun
  exact ⟨evaluated, inDocument, sources _ List.mem_cons_self,
    present inDocument inConstants _ List.mem_cons_self⟩

end Expr

end PathQuery
