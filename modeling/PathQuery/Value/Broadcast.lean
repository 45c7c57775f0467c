import PathQuery.Value
import PathQuery.Eval.Error
/-!
# Broadcasting

An operator on single nodes is applied to results of any shape. Without a vector among its
operands it is computed once. Otherwise all vectors must have one length, and the operator is
computed once for each row, which takes the next element of every vector and repeats every single
node. The results of the rows are collected into one vector; the first row that fails ends it.

A row has as many nodes as there are operands (`length_of_mem_rows`).
-/
namespace PathQuery.Broadcast

/-- The lengths of the vectors among some values, in order. -/
def lengths (values : List Value) : List Nat :=
  values.filterMap fun
    | .vector nodes => some nodes.length
    | _ => none

/-- The node that a value gives to the next row. -/
def first : Value → Node
  | .absent => .null
  | .single node => node
  | .vector nodes => nodes.headD .missing

/-- What a value has left for the rows after that: single nodes repeat. -/
def rest : Value → Value
  | .vector nodes => .vector nodes.tail
  | value => value

/-- The given number of rows, each with the node of every value. -/
def rows : Nat → List Value → List (List Node)
  | 0, _ => []
  | count + 1, values => values.map first :: rows count (values.map rest)

/-- Computes the rows one after the other and collects the nodes of their results. -/
def collect {α : Type} (compute : α → Except EvalError Value) :
    List α → Except EvalError (List Node)
  | [] => .ok []
  | row :: later =>
    match compute row with
    | .error e => .error e
    | .ok value =>
      match collect compute later with
      | .error e => .error e
      | .ok nodes => .ok (value.nodes ++ nodes)

/-- Applies an operator on single nodes to values of any shape. -/
def apply (position : Nat) (values : List Value) (compute : List Node → Except EvalError Value) :
    Except EvalError Value :=
  match lengths values with
  | [] => compute (values.map first)
  | length :: others =>
    match others.find? (· != length) with
    | some other => .error (.runtime position (.incompatibleSizes length other))
    | none => (collect compute (rows length values)).map .vector

/-- Applies an operator on one node to a value of any shape. -/
def onEach (position : Nat) (value : Value) (compute : Node → Except EvalError Value) :
    Except EvalError Value :=
  apply position [value] fun row => compute (row.headD .missing)

/-- Applies an operator on two nodes to values of any shape. -/
def onPairs (position : Nat) (left right : Value)
    (compute : Node → Node → Except EvalError Value) : Except EvalError Value :=
  apply position [left, right] fun row => compute (row.getD 0 .missing) (row.getD 1 .missing)

/-- Every row has a node of every value. -/
theorem length_of_mem_rows {count : Nat} {values : List Value} {row : List Node}
    (member : row ∈ rows count values) : row.length = values.length := by
  induction count generalizing values with
  | zero => simp [rows] at member
  | succ count ih =>
    rcases List.mem_cons.1 member with rfl | later
    · simp
    · simpa using ih later

/-- There are as many rows as were asked for. -/
theorem length_rows (count : Nat) (values : List Value) : (rows count values).length = count := by
  induction count generalizing values with
  | zero => rfl
  | succ count ih => simp [rows, ih]

/-- The rows of one vector are its nodes. -/
theorem rows_vector (nodes : List Node) :
    rows nodes.length [.vector nodes] = nodes.map fun node => [node] := by
  induction nodes with
  | nil => rfl
  | cons node later ih => exact congrArg ([node] :: ·) ih

/-- Rows may be given in any form from which the operator finds its nodes. -/
theorem collect_map {α β : Type} (f : β → α) (compute : α → Except EvalError Value)
    (list : List β) : collect compute (list.map f) = collect (fun b => compute (f b)) list := by
  induction list with
  | nil => rfl
  | cons b later ih => simp only [List.map_cons, collect, ih]

/-- An operator on a single node is computed once. -/
theorem onEach_single (position : Nat) (node : Node) (compute : Node → Except EvalError Value) :
    onEach position (.single node) compute = compute node := rfl

/-- An operator on a vector is computed for each node. -/
theorem onEach_vector (position : Nat) (nodes : List Node)
    (compute : Node → Except EvalError Value) :
    onEach position (.vector nodes) compute = (collect compute nodes).map .vector := by
  have rowwise : collect (fun row => compute (row.headD .missing))
      (rows nodes.length [.vector nodes]) = collect compute nodes := by
    rw [rows_vector, collect_map]
    rfl
  exact congrArg (Except.map Value.vector) rowwise

/-! ## Operators with a state

An operator may keep a state from one row to the next. The operators of paths keep none, and then
nothing but their answers is left (`apply_eq_applyFrom`).
-/

/-- Computes the rows one after the other, from one state to the next, and collects the nodes of
their results. -/
def collectFrom {σ α : Type} (compute : σ → α → Except EvalError Value × σ) (state : σ) :
    List α → Except EvalError (List Node) × σ
  | [] => (.ok [], state)
  | row :: later =>
    match compute state row with
    | (.error e, after) => (.error e, after)
    | (.ok value, after) =>
      match collectFrom compute after later with
      | (.error e, last) => (.error e, last)
      | (.ok nodes, last) => (.ok (value.nodes ++ nodes), last)

/-- Applies an operator with a state to values of any shape. -/
def applyFrom {σ : Type} (position : Nat) (values : List Value)
    (compute : σ → List Node → Except EvalError Value × σ) (state : σ) :
    Except EvalError Value × σ :=
  match lengths values with
  | [] => compute state (values.map first)
  | length :: others =>
    match others.find? (· != length) with
    | some other => (.error (.runtime position (.incompatibleSizes length other)), state)
    | none =>
      let (collected, last) := collectFrom compute state (rows length values)
      (collected.map .vector, last)

/-- Without a state rows are collected by their answers alone. -/
theorem collectFrom_stateless {σ α : Type} (compute : α → Except EvalError Value) (state : σ)
    (list : List α) :
    collectFrom (fun state row => (compute row, state)) state list =
      (collect compute list, state) := by
  induction list with
  | nil => rfl
  | cons row later ih =>
    cases computed : compute row with
    | error e => simp only [collectFrom, collect, computed]
    | ok value =>
      simp only [collectFrom, collect, computed, ih]
      cases collect compute later <;> rfl

/-- An operator without a state is one that never changes it. -/
theorem apply_eq_applyFrom {σ : Type} (position : Nat) (values : List Value)
    (compute : List Node → Except EvalError Value) (state : σ) :
    applyFrom position values (fun state row => (compute row, state)) state =
      (apply position values compute, state) := by
  unfold applyFrom apply
  split
  · rfl
  · split
    · rfl
    · rw [collectFrom_stateless]

end PathQuery.Broadcast
