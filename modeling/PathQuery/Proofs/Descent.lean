import PathQuery.Proofs.OrderedKeys
import PathQuery.Proofs.Chains
/-!
# What a descent finds

A path into a document names, step by step, an element of an array or a member of an object. A
descent finds the subtree at every path that leads to a container, once and in document order: a
path stands before those that go further, and where two paths part, the elements of an array and the
keys of an object decide. A descent for a name finds what the containers of a descent hold under it.
-/
namespace PathQuery

/-! ## Paths into documents -/

/-- One way down from a container. -/
inductive Branch where
  /-- To the element of an array at an index. -/
  | element (index : Nat)
  /-- To the value of an object under a key. -/
  | member (key : String)

/-- One branch stands before another one of the same container. -/
inductive Branch.Before : Branch → Branch → Prop where
  /-- Elements stand in the order of their indices. -/
  | element {i j : Nat} (less : i < j) : Before (.element i) (.element j)
  /-- Members stand in the order of their keys. -/
  | member {k l : String} (less : k < l) : Before (.member k) (.member l)

namespace Node

/-- The node that a branch leads to, if the node has that branch. -/
def follow? (branch : Branch) (node : Node) : Option Node :=
  match branch, node with
  | .element i, .array elements => elements[i]?
  | .member key, .object members => Members.find? key members
  | _, _ => none

/-- The subtree at a path, if the path leads anywhere. -/
def at? (node : Node) : List Branch → Option Node
  | [] => some node
  | branch :: path => (node.follow? branch).bind fun child => child.at? path

/-- The containers in a node with the paths to them, in document order. -/
structure Visits (root : Node) (visits : List (List Branch × Node)) : Prop where
  /-- They are the paths that lead to containers, with the subtrees there. -/
  mem_iff : ∀ path node, (path, node) ∈ visits ↔
    root.at? path = some node ∧ node.isContainer = true
  /-- A path stands before every path that goes on from it, and where two paths part, the one with
  the branch that stands before. -/
  ordered : (visits.map Prod.fst).Pairwise (List.Lex Branch.Before)

/-- The branches of a node, with the children they lead to. -/
def branches : Node → List (Branch × Node)
  | .array elements => elements.zipIdx.map fun (element, i) => (.element i, element)
  | .object members => members.map fun (key, value) => (.member key, value)
  | _ => []

variable {node child part : Node} {branch : Branch} {visits : List (List Branch × Node)}

/-- The branches lead to the children. -/
theorem map_branches (node : Node) : node.branches.map Prod.snd = node.children := by
  cases node with
  | array elements =>
    rw [branches, List.map_map]
    exact List.zipIdx_map_fst 0 elements
  | object members => exact List.map_map ..
  | null | boolean | integer | float | string | missing => rfl

/-- A branch leads to a child. -/
theorem mem_children_of_mem_branches (found : (branch, child) ∈ node.branches) :
    child ∈ node.children :=
  map_branches node ▸ List.mem_map_of_mem found

/-- The branches stand in order. -/
theorem branches_ordered (ordered : node.HasOrderedKeys) :
    node.branches.Pairwise fun a b => a.1.Before b.1 := by
  cases node with
  | array elements =>
    have indices : elements.zipIdx.Pairwise fun a b => a.2 < b.2 := by
      rw [← List.pairwise_map, List.zipIdx_map_snd]
      exact List.pairwise_lt_range' 1
    exact List.pairwise_map.2 (indices.imp .element)
  | object members => exact List.pairwise_map.2 ((List.pairwise_map.1 ordered).imp .member)
  | null | boolean | integer | float | string | missing => exact .nil

/-- In order of their keys, the members are those that are found under their keys. -/
theorem mem_iff_find? {members : List (String × Node)} {key : String}
    (ordered : Members.Ordered members) :
    (key, child) ∈ members ↔ Members.find? key members = some child := by
  induction members with
  | nil => simp [Members.find?]
  | cons first later ih =>
    obtain ⟨k, value⟩ := first
    obtain ⟨least, rest⟩ := List.pairwise_cons.1 ordered
    rw [List.mem_cons, Prod.mk.injEq, Members.find?, ih rest]
    by_cases same : key = k
    · subst same
      have none : Members.find? key later ≠ some child := fun found =>
        String.lt_irrefl key (least key (List.mem_map_of_mem ((ih rest).2 found)))
      simp [none, eq_comm]
    · simp [same]

/-- The branches of a node are those that can be followed. -/
theorem mem_branches_iff (ordered : node.HasOrderedKeys) :
    (branch, child) ∈ node.branches ↔ node.follow? branch = some child := by
  cases node with
  | array elements =>
    cases branch with
    | element i =>
      simp only [branches, follow?, List.mem_map, Prod.mk.injEq, Branch.element.injEq]
      constructor
      · rintro ⟨⟨element, j⟩, found, rfl, rfl⟩
        exact List.mem_zipIdx_iff_getElem?.1 found
      · exact fun found => ⟨(child, i), List.mem_zipIdx_iff_getElem?.2 found, rfl, rfl⟩
    | member key => simp [branches, follow?]
  | object members =>
    cases branch with
    | element i => simp [branches, follow?]
    | member key => simpa [branches, follow?] using mem_iff_find? ordered
  | null | boolean | integer | float | string | missing => simp [branches, follow?]

/-- No path is visited twice. -/
theorem Visits.nodup {root : Node} (visited : root.Visits visits) :
    (visits.map Prod.fst).Nodup := by
  have irreflexive : ∀ path, ¬ List.Lex Branch.Before path path := by
    intro path
    induction path with
    | nil => nofun
    | cons branch path ih =>
      intro less
      cases less with
      | rel before =>
        cases before with
        | element less => exact Nat.lt_irrefl _ less
        | member less => exact String.lt_irrefl _ less
      | cons less => exact ih less
  refine visited.ordered.imp ?_
  rintro path other less rfl
  exact irreflexive path less

/-- Only the empty path leads into a node without branches, and to the node itself. -/
theorem at?_eq_some_iff {path : List Branch} (ordered : node.HasOrderedKeys) :
    node.at? path = some part ↔ path = [] ∧ part = node ∨
      ∃ branch child later, (branch, child) ∈ node.branches ∧ path = branch :: later ∧
        child.at? later = some part := by
  cases path with
  | nil => simp [at?, eq_comm]
  | cons branch later =>
    simp only [at?, Option.bind_eq_some_iff, ← mem_branches_iff ordered]
    constructor
    · rintro ⟨child, found, inside⟩
      exact .inr ⟨branch, child, later, found, rfl, inside⟩
    · rintro (⟨none, -⟩ | ⟨_, child, _, found, same, inside⟩)
      · cases none
      · obtain ⟨rfl, rfl⟩ := List.cons.inj same
        exact ⟨child, found, inside⟩

/-- A visit below a branch, seen from the node that has the branch. -/
def above (branch : Branch) (visit : List Branch × Node) : List Branch × Node :=
  (branch :: visit.1, visit.2)

/-- A container is visited first, and then what is visited below each of its branches. -/
theorem visits_container (ordered : node.HasOrderedKeys) (container : node.isContainer = true)
    {below : Node → List (List Branch × Node)}
    (visited : ∀ child ∈ node.children, child.Visits (below child)) :
    node.Visits (([], node) :: node.branches.flatMap fun b => (below b.2).map (above b.1)) where
  mem_iff path part := by
    have inside : ∀ {b child later}, (b, child) ∈ node.branches →
        ((later, part) ∈ below child ↔ child.at? later = some part ∧ part.isContainer = true) :=
      fun found => (visited _ (mem_children_of_mem_branches found)).mem_iff _ part
    simp only [List.mem_cons, List.mem_flatMap, List.mem_map, at?_eq_some_iff ordered]
    constructor
    · rintro (own | ⟨⟨b, child⟩, found, ⟨later, _⟩, member, same⟩)
      · obtain ⟨rfl, rfl⟩ := Prod.mk.inj own
        exact ⟨.inl ⟨rfl, rfl⟩, container⟩
      · obtain ⟨rfl, rfl⟩ := Prod.mk.inj same
        obtain ⟨leads, deeper⟩ := (inside found).1 member
        exact ⟨.inr ⟨b, child, later, found, rfl, leads⟩, deeper⟩
    · rintro ⟨⟨rfl, rfl⟩ | ⟨b, child, later, found, rfl, leads⟩, deeper⟩
      · exact .inl rfl
      · exact .inr ⟨(b, child), found, (later, part), (inside found).2 ⟨leads, deeper⟩, rfl⟩
  ordered := by
    rw [List.map_cons, List.map_flatMap, List.pairwise_cons, List.pairwise_flatMap]
    refine ⟨?_, ?_, ?_⟩
    · intro path member
      obtain ⟨b, -, within⟩ := List.mem_flatMap.1 member
      simp only [List.map_map, List.mem_map] at within
      obtain ⟨visit, -, rfl⟩ := within
      exact .nil
    · intro b found
      have each := (visited b.2 (mem_children_of_mem_branches found)).ordered
      rw [List.map_map, List.pairwise_map]
      exact (List.pairwise_map.1 each).imp .cons
    · refine (branches_ordered ordered).imp fun before first here second there => ?_
      simp only [List.map_map, List.mem_map] at here there
      obtain ⟨_, -, rfl⟩ := here
      obtain ⟨_, -, rfl⟩ := there
      exact .rel before

/-- A scalar has no containers to visit. -/
theorem visits_scalar (scalar : node.isContainer = false) : node.Visits [] where
  mem_iff path part := by
    have none : node.branches = [] := by
      cases node with
      | array | object => cases scalar
      | null | boolean | integer | float | string | missing => rfl
    have ordered : node.HasOrderedKeys := by
      cases node with
      | array | object => cases scalar
      | null | boolean | integer | float | string | missing => trivial
    simp only [List.not_mem_nil, at?_eq_some_iff ordered, none, false_iff]
    rintro ⟨⟨-, rfl⟩ | ⟨_, _, _, found, -⟩, container⟩
    · cases scalar.symm.trans container
    · cases found
  ordered := .nil

end Node

/-! ## Descents -/

namespace Select

/-- A descent finds in some elements what it finds in each of them. -/
theorem descendElements_eq (name : Option String) (elements : List Node) :
    descendElements name elements = elements.flatMap (descend name) := by
  induction elements with
  | nil => simp [descendElements]
  | cons element later ih => simp [descendElements, ih]

/-- A descent finds in some members what it finds in each of their values. -/
theorem descendMembers_eq (name : Option String) (members : List (String × Node)) :
    descendMembers name members = (Members.values members).flatMap (descend name) := by
  induction members with
  | nil => simp [descendMembers, Members.values]
  | cons member later ih => simpa [descendMembers, Members.values] using ih

/-- A descent finds what the container contributes, and then what it finds in its children. -/
theorem descend_container {node : Node} (name : Option String)
    (container : node.isContainer = true) :
    descend name node = contribution name node ++ node.children.flatMap (descend name) := by
  cases node with
  | array elements => rw [descend, descendElements_eq]; rfl
  | object members => rw [descend, descendMembers_eq]; rfl
  | null | boolean | integer | float | string | missing => cases container

/-- A descent visits the containers of a document. -/
theorem exists_visits {node : Node} (ordered : node.Everywhere Node.HasOrderedKeys) :
    ∃ visits, node.Visits visits ∧ descend none node = visits.map Prod.snd := by
  induction node using Node.induction_children with
  | step node ih =>
    obtain ⟨own, inside⟩ := Node.everywhere_iff.1 ordered
    cases container : node.isContainer with
    | false =>
      exact ⟨[], Node.visits_scalar container, descend_scalar none container⟩
    | true =>
      have each : ∀ child, ∃ visits, child ∈ node.children →
          child.Visits visits ∧ descend none child = visits.map Prod.snd := by
        intro child
        by_cases member : child ∈ node.children
        · obtain ⟨visits, found⟩ := ih child member (inside child member)
          exact ⟨visits, fun _ => found⟩
        · exact ⟨[], fun other => absurd other member⟩
      obtain ⟨below, visited⟩ := Classical.skolem.1 each
      have children : node.children.flatMap (descend none) =
          node.branches.flatMap fun b => (below b.2).map Prod.snd := by
        rw [← Node.map_branches, List.flatMap_map, List.flatMap_def, List.flatMap_def]
        refine congrArg List.flatten (List.map_congr_left fun b found => ?_)
        exact (visited b.2 (Node.mem_children_of_mem_branches found)).2
      refine ⟨_, Node.visits_container own container fun child member =>
        (visited child member).1, ?_⟩
      rw [descend_container none container, children, List.map_cons, List.map_flatMap]
      simp only [List.map_map]
      rfl

/-- A container contributes to a descent for a name what it holds under the name, if it does. -/
theorem contribution_some (name : String) (container : Node) :
    contribution (some name) container =
      ((contribution none container).filter (Node.hasKey name)).map (Node.member name) := by
  cases found : container.member? name <;>
    simp [contribution, Node.hasKey, Node.member, found]

/-- A descent for a name finds what the containers of a descent hold under the name. -/
theorem descend_some (name : String) (node : Node) :
    descend (some name) node =
      ((descend none node).filter (Node.hasKey name)).map (Node.member name) := by
  induction node using Node.induction_children with
  | step node ih =>
    cases container : node.isContainer with
    | false => rw [descend_scalar _ container, descend_scalar _ container]; rfl
    | true =>
      have children : node.children.flatMap (descend (some name)) =
          node.children.flatMap fun child =>
            ((descend none child).filter (Node.hasKey name)).map (Node.member name) := by
        rw [List.flatMap_def, List.flatMap_def]
        exact congrArg List.flatten (List.map_congr_left ih)
      rw [descend_container _ container, descend_container _ container, List.filter_append,
        List.map_append, ← contribution_some, children, List.filter_flatMap, List.map_flatMap]

end Select

namespace Broadcast

/-- Rows that all give vectors are collected to the nodes of these. -/
theorem collect_vectors {α : Type} (compute : α → List Node) (rows : List α) :
    collect (fun row => .ok (.vector (compute row))) rows = .ok (rows.flatMap compute) := by
  have computed : rows.map (fun row => Except.ok (Value.vector (compute row))) =
      (rows.map fun row => Value.vector (compute row)).map (.ok : Value → Except EvalError Value) :=
    (List.map_map ..).symm
  rw [collect_of_map computed, List.flatMap_map]
  rfl

/-- An operator that gives a vector for every node gives one for every value: there are some nodes
that it is computed on. -/
theorem exists_onEach_vectors (value : Value) : ∃ rows : List Node,
    ∀ (position : Nat) (compute : Node → List Node),
      onEach position value (fun node => .ok (.vector (compute node))) =
        .ok (.vector (rows.flatMap compute)) := by
  have alone : ∀ (node : Node) (compute : Node → List Node),
      Except.ok (Value.vector (compute node)) =
        (.ok (.vector ([node].flatMap compute)) : Except EvalError Value) := by
    intro node compute
    rw [List.flatMap_singleton]
  cases value with
  | absent => exact ⟨[.null], fun _ compute => alone .null compute⟩
  | single node => exact ⟨[node], fun _ compute => alone node compute⟩
  | vector nodes =>
    refine ⟨nodes, fun position compute => ?_⟩
    rw [onEach_vector, collect_vectors]
    rfl

end Broadcast

namespace Expr

open Node (HasOrderedKeys)

/-- A descent from the document visits every container in it once, in document order. A descent for
a name, behind any expression that has a result, gives what the containers of the descent hold under
the name, one by one. -/
theorem eval_descent (document : Node) :
    (document.Everywhere HasOrderedKeys → ∃ visits, document.Visits visits ∧
      (visits.map Prod.fst).Nodup ∧ ∀ p q, (descent p (root q) none).eval document =
        .ok (.vector (visits.map Prod.snd))) ∧
    ∀ (object : Expr) (value : Value), object.eval document = .ok value →
      ∃ containers : List Node, ∀ p,
        (descent p object none).eval document = .ok (.vector containers) ∧
        ∀ name, (descent p object (some name)).eval document =
          .ok (.vector ((containers.filter (Node.hasKey name)).map (Node.member name))) := by
  constructor
  · intro ordered
    obtain ⟨visits, visited, found⟩ := Select.exists_visits ordered
    refine ⟨visits, visited, visited.nodup, fun p q => ?_⟩
    simp only [eval, Broadcast.onEach_single, found]
  · intro object value evaluated
    obtain ⟨rows, computed⟩ := Broadcast.exists_onEach_vectors value
    refine ⟨rows.flatMap (Select.descend none), fun p => ⟨?_, fun name => ?_⟩⟩
    · simp only [eval, evaluated, computed]
    · simp only [eval, evaluated, computed]
      rw [List.filter_flatMap, List.map_flatMap, funext (Select.descend_some name)]

/-- In a nested document a descent visits an array before the array and the object in it, and keys
by their order; the matches of a name are searched again, and arrays have none of their own. -/
theorem eval_descent_nested :
    let inner : Node := .object [("b", .object [("b", .null)])]
    let document : Node := .object [("a", .array [.array [], inner]), ("b", .boolean true)]
    document.Everywhere HasOrderedKeys ∧
      (∃ visits, document.Visits visits ∧ visits.map Prod.snd =
        [document, .array [.array [], inner], .array [], inner, .object [("b", .null)]]) ∧
      (descent 1 (root 0) (some "b")).eval document =
        .ok (.vector [.boolean true, .object [("b", .null)], .null]) := by
  intro inner document
  have leaf {node : Node} := Node.everywhere_of_leaf (P := HasOrderedKeys) (n := node)
  have single : ∀ {value : Node}, value.Everywhere HasOrderedKeys →
      (Node.object [("b", value)]).Everywhere HasOrderedKeys := fun inside =>
    Node.everywhere_iff.2 ⟨List.pairwise_singleton .., List.forall_mem_singleton.2 inside⟩
  have ordered : document.Everywhere HasOrderedKeys := by
    have keys : ["a", "b"].Pairwise (· < ·) := by decide
    have elements : (Node.array [.array [], inner]).Everywhere HasOrderedKeys :=
      Node.everywhere_array.2 ⟨trivial, List.forall_mem_cons.2 ⟨leaf rfl trivial,
        List.forall_mem_singleton.2 (single (single (leaf rfl trivial)))⟩⟩
    exact Node.everywhere_iff.2 ⟨keys, List.forall_mem_cons.2 ⟨elements,
      List.forall_mem_singleton.2 (leaf rfl trivial)⟩⟩
  obtain ⟨visits, visited, -, found⟩ := (eval_descent document).1 ordered
  obtain ⟨containers, each⟩ := (eval_descent document).2 (root 0) _ rfl
  have all : [document, .array [.array [], inner], .array [], inner, .object [("b", .null)]] =
      containers := Value.vector.inj (Except.ok.inj (each 1).1)
  refine ⟨ordered, ⟨visits, visited, ?_⟩, ?_⟩
  · exact (Value.vector.inj (Except.ok.inj (found 0 0))).symm
  · rw [(each 1).2 "b", ← all]
    rfl

end Expr

end PathQuery
