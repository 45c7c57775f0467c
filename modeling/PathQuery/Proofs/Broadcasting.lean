import PathQuery.Value.Broadcast
/-!
# What broadcasting computes

An operator on single nodes, applied to any number of values of any shape, is told by the rows that
it is called on. There is one row without a vector among the values, and as many rows as the vectors
are long otherwise; a row has one node for each value. The operator may keep a state, which tells
how often, in what order and on what rows it was called.
-/
namespace PathQuery.Broadcast

/-! ## Rows -/

/-- What a value has for the row with a number: a vector the element with that number, if there is
one, and any other value the same node for every row. -/
def item? (number : Nat) : Value → Option Node
  | .absent => some .null
  | .single node => some node
  | .vector nodes => nodes[number]?

/-- The row with a number: it has a node for each value, in the order of the values. -/
def IsRow (values : List Value) (number : Nat) (row : List Node) : Prop :=
  values.map (item? number) = row.map some

/-- The rows in order, as many as a length says. -/
structure AreRows (values : List Value) (length : Nat) (rows : List (List Node)) : Prop where
  /-- There are as many rows as the length says. -/
  count : rows.length = length
  /-- Each of them is the row with its number. -/
  each : ∀ (i : Nat) (inside : i < rows.length), IsRow values i rows[i]

/-- Every vector among the values has the length. -/
def Agree (values : List Value) (length : Nat) : Prop :=
  ∀ nodes, .vector nodes ∈ values → nodes.length = length

/-- The first vector among the values has a length, and the first one that differs from it has
another. -/
inductive Disagree : List Value → Nat → Nat → Prop where
  /-- No vector stands before the first one, and only vectors of its length before the other. -/
  | intro {before middle after : List Value} {a b : List Node}
    (scalars : ∀ nodes, .vector nodes ∉ before) (same : Agree middle a.length)
    (differs : b.length ≠ a.length) :
    Disagree (before ++ .vector a :: (middle ++ .vector b :: after)) a.length b.length

variable {values : List Value} {number length other : Nat} {row : List Node}

/-- A row has as many nodes as there are values. -/
theorem length_of_isRow (isRow : IsRow values number row) : row.length = values.length := by
  simpa using (congrArg List.length isRow).symm

/-- There is one row with a number. -/
theorem IsRow.unique {row' : List Node} (first : IsRow values number row)
    (second : IsRow values number row') : row = row' :=
  List.map_inj_right (fun _ _ => Option.some.inj) |>.1 (first.symm.trans second)

/-- The rows are determined by the values and the length. -/
theorem AreRows.unique {rows rows' : List (List Node)} (first : AreRows values length rows)
    (second : AreRows values length rows') : rows = rows' :=
  List.ext_getElem (first.count.trans second.count.symm) fun i inside inside' =>
    (first.each i inside).unique (second.each i inside')

/-- What a value gives to the next row is what it has for the row with number zero. -/
theorem item?_zero {value : Value} (some : ∀ nodes, value = .vector nodes → nodes ≠ []) :
    item? 0 value = Option.some (first value) := by
  cases value with
  | absent | single => rfl
  | vector nodes =>
    obtain ⟨node, later, rfl⟩ := List.exists_cons_of_ne_nil (some nodes rfl)
    rfl

/-- What is left of a value has for a row what the value has for the row after it. -/
theorem item?_rest (number : Nat) (value : Value) :
    item? number (rest value) = item? (number + 1) value := by
  cases value with
  | absent | single => rfl
  | vector nodes => cases nodes <;> simp [item?, rest]

/-- Vectors of one length are still of one length when each has given a node. -/
theorem Agree.rest (agree : Agree values (length + 1)) :
    Agree (values.map Broadcast.rest) length := by
  intro nodes member
  obtain ⟨value, inside, same⟩ := List.mem_map.1 member
  cases value with
  | absent | single => cases same
  | vector all =>
    have long := agree all inside
    obtain rfl : all.tail = nodes := Value.vector.inj same
    rw [List.length_tail, long, Nat.add_sub_cancel]

/-- The rows of vectors of one length are the rows that are computed. -/
theorem areRows_rows (agree : Agree values length) :
    AreRows values length (rows length values) := by
  induction length generalizing values with
  | zero => exact ⟨rfl, fun _ inside => absurd inside (Nat.not_lt_zero _)⟩
  | succ length ih =>
    obtain ⟨count, each⟩ := ih agree.rest
    refine ⟨by simp [rows, count], fun i inside => ?_⟩
    cases i with
    | zero =>
      have front : (rows (length + 1) values)[0] = values.map first := rfl
      rw [IsRow, front, List.map_map]
      refine List.map_congr_left fun value member => item?_zero ?_
      rintro nodes rfl
      exact List.ne_nil_of_length_pos (agree nodes member ▸ Nat.succ_pos length)
    | succ i =>
      have later := each i (by simpa [rows] using inside)
      have shorter : i < (rows length (values.map rest)).length := by simpa [rows] using inside
      have behind : (rows (length + 1) values)[i + 1] = (rows length (values.map rest))[i] := rfl
      rw [IsRow, List.map_map] at later
      rw [IsRow, behind, ← later]
      exact List.map_congr_left fun value _ => (item?_rest i value).symm

/-! ## Lengths -/

/-- Without a vector there are no lengths. -/
theorem lengths_eq_nil : lengths values = [] ↔ ∀ nodes, .vector nodes ∉ values := by
  rw [lengths, List.filterMap_eq_nil_iff]
  constructor
  · intro none nodes member
    cases none _ member
  · intro none value member
    cases value with
    | absent | single => rfl
    | vector nodes => exact absurd member (none nodes)

/-- The lengths are those of the vectors. -/
theorem mem_lengths : length ∈ lengths values ↔
    ∃ nodes, .vector nodes ∈ values ∧ nodes.length = length := by
  rw [lengths, List.mem_filterMap]
  constructor
  · rintro ⟨value, member, found⟩
    cases value with
    | absent | single => cases found
    | vector nodes => exact ⟨nodes, member, Option.some.inj found⟩
  · rintro ⟨nodes, member, rfl⟩
    exact ⟨_, member, rfl⟩

/-- The lengths of two lists of values are those of the first and those of the second. -/
theorem lengths_append (front back : List Value) :
    lengths (front ++ back) = lengths front ++ lengths back :=
  List.filterMap_append

/-- A vector has its length in front of those that follow. -/
theorem lengths_vector (nodes : List Node) (later : List Value) :
    lengths (.vector nodes :: later) = nodes.length :: lengths later := rfl

/-- A length that comes first is the one of a first vector. -/
theorem lengths_eq_cons {others : List Nat} (found : lengths values = length :: others) :
    ∃ before nodes after, values = before ++ .vector nodes :: after ∧
      (∀ nodes, .vector nodes ∉ before) ∧ nodes.length = length ∧ lengths after = others := by
  obtain ⟨before, value, after, rfl, none, some, behind⟩ := List.filterMap_eq_cons_iff.1 found
  cases value with
  | absent | single => cases some
  | vector nodes =>
    exact ⟨before, nodes, after, rfl, lengths_eq_nil.1 (List.filterMap_eq_nil_iff.2 none),
      Option.some.inj some, behind⟩

/-- Vectors agree on a length exactly when no other one is found. -/
theorem agree_iff : Agree values length ↔ ∀ found ∈ lengths values, found = length := by
  constructor
  · intro agree found member
    obtain ⟨nodes, inside, rfl⟩ := mem_lengths.1 member
    exact agree nodes inside
  · exact fun all nodes member => all _ (mem_lengths.2 ⟨nodes, member, rfl⟩)

/-- Among the lengths that follow the first one, the first that differs from it is that of the
first vector that differs. -/
theorem disagree_iff : Disagree values length other ↔
    ∃ others, lengths values = length :: others ∧ others.find? (· != length) = some other := by
  constructor
  · rintro ⟨scalars, same, differs⟩
    rename_i before middle after a b
    refine ⟨lengths middle ++ b.length :: lengths after, ?_, ?_⟩
    · rw [lengths_append, lengths_eq_nil.2 scalars, List.nil_append, lengths_vector,
        lengths_append, lengths_vector]
    · refine List.find?_eq_some_iff_append.2
        ⟨bne_iff_ne.2 differs, lengths middle, lengths after, rfl, fun found member => ?_⟩
      simp [agree_iff.1 same found member]
  · rintro ⟨others, found, differs⟩
    obtain ⟨before, a, behind, rfl, scalars, rfl, rfl⟩ := lengths_eq_cons found
    obtain ⟨unequal, sameLengths, later, split, equal⟩ := List.find?_eq_some_iff_append.1 differs
    obtain ⟨middle, rest, rfl, same, more⟩ := List.filterMap_eq_append_iff.1 split
    obtain ⟨between, b, after, rfl, none, rfl, -⟩ := lengths_eq_cons more
    rw [← List.append_assoc]
    have agree : Agree (middle ++ between) a.length := agree_iff.2 fun found member => by
      rw [lengths_append, lengths_eq_nil.2 none, List.append_nil] at member
      simpa using equal found (same ▸ member)
    exact .intro scalars agree (bne_iff_ne.1 unequal)

/-! ## Calls -/

section

variable {σ α : Type} {compute : σ → α → Except EvalError Value × σ} {state middle last : σ}

/-- The operator is called on rows one after the other and has a result for each; it goes from one
state to another. -/
inductive Calls (compute : σ → α → Except EvalError Value × σ) :
    σ → List α → List Value → σ → Prop where
  /-- Without rows nothing changes. -/
  | none (state : σ) : Calls compute state [] [] state
  /-- The row that comes next is called from the state that the row before has left. -/
  | call {state middle last : σ} {row : α} {later : List α} {value : Value} {others : List Value}
    (first : compute state row = (.ok value, middle))
    (behind : Calls compute middle later others last) :
    Calls compute state (row :: later) (value :: others) last

/-- Rows with a result each are collected to the nodes of these results. -/
theorem Calls.collectFrom {rows : List α} {results : List Value}
    (calls : Calls compute state rows results last) :
    collectFrom compute state rows = (.ok (results.flatMap Value.nodes), last) := by
  induction calls with
  | none => rfl
  | call first _ ih => simp only [Broadcast.collectFrom, first, ih, List.flatMap_cons]

/-- Behind rows with a result each, the first row that fails ends the collection. -/
theorem Calls.collectFrom_stopped {done later : List α} {failing : α} {results : List Value}
    {e : EvalError} (calls : Calls compute state done results middle)
    (failed : compute middle failing = (.error e, last)) :
    Broadcast.collectFrom compute state (done ++ failing :: later) = (.error e, last) := by
  induction calls with
  | none => simp only [List.nil_append, Broadcast.collectFrom, failed]
  | call first _ ih => simp only [List.cons_append, Broadcast.collectFrom, first, ih failed]

/-- Either every row has a result, or there is a first row that fails. -/
theorem calls_or_stopped (compute : σ → α → Except EvalError Value × σ) (state : σ)
    (rows : List α) : (∃ results last, Calls compute state rows results last) ∨
      ∃ done failing later results middle e last, rows = done ++ failing :: later ∧
        Calls compute state done results middle ∧
        compute middle failing = (.error e, last) := by
  induction rows generalizing state with
  | nil => exact .inl ⟨[], state, .none state⟩
  | cons row later ih =>
    cases called : compute state row with
    | mk answer middle =>
      cases answer with
      | error e => exact .inr ⟨[], row, later, [], state, e, middle, rfl, .none state, called⟩
      | ok value =>
        rcases ih middle with ⟨others, last, calls⟩ |
          ⟨done, failing, rest, others, before, e, last, rfl, calls, failed⟩
        · exact .inl ⟨value :: others, last, .call called calls⟩
        · exact .inr ⟨row :: done, failing, rest, value :: others, before, e, last, rfl,
            .call called calls, failed⟩

/-- Operators that do the same on all rows collect the same. -/
theorem collectFrom_congr {compute' : σ → α → Except EvalError Value × σ} {rows : List α}
    (same : ∀ state, ∀ row ∈ rows, compute state row = compute' state row) :
    collectFrom compute state rows = collectFrom compute' state rows := by
  induction rows generalizing state with
  | nil => rfl
  | cons row later ih =>
    have others : ∀ state, collectFrom compute state later = collectFrom compute' state later :=
      fun state => ih fun state row member => same state row (List.mem_cons_of_mem _ member)
    simp only [collectFrom, same state row List.mem_cons_self, others]

end

/-! ## The answer -/

section

variable {σ : Type} {position : Nat} {compute : σ → List Node → Except EvalError Value × σ}
  {state : σ} {answer : Except EvalError Value × σ}

/-- What an operator with a state makes of values of any shape, and the state that it leaves. -/
inductive Makes (position : Nat) (values : List Value)
    (compute : σ → List Node → Except EvalError Value × σ) (state : σ) :
    Except EvalError Value × σ → Prop where
  /-- Vectors of different lengths are an error, and the operator is not called. -/
  | incompatible {length other : Nat} (disagree : Disagree values length other) :
    Makes position values compute state
      (.error (.runtime position (.incompatibleSizes length other)), state)
  /-- Without a vector the operator is called once. -/
  | once {row : List Node} (scalars : ∀ nodes, .vector nodes ∉ values)
    (isRow : IsRow values 0 row) : Makes position values compute state (compute state row)
  /-- If it has a result for every row, their nodes are put together in order. -/
  | all {length : Nat} {rows : List (List Node)} {results : List Value} {last : σ}
    (vector : ∃ nodes, .vector nodes ∈ values) (agree : Agree values length)
    (areRows : AreRows values length rows) (calls : Calls compute state rows results last) :
    Makes position values compute state (.ok (.vector (results.flatMap Value.nodes)), last)
  /-- The first row that fails gives the error, and the operator is not called on the rows behind
  it. -/
  | stopped {length : Nat} {done later : List (List Node)} {failing : List Node}
    {results : List Value} {middle last : σ} {e : EvalError}
    (vector : ∃ nodes, .vector nodes ∈ values) (agree : Agree values length)
    (areRows : AreRows values length (done ++ failing :: later))
    (calls : Calls compute state done results middle)
    (failed : compute middle failing = (.error e, last)) :
    Makes position values compute state (.error e, last)

/-- Vectors of different lengths are an error before the operator is called. -/
theorem applyFrom_of_disagree (disagree : Disagree values length other) :
    applyFrom position values compute state =
      (.error (.runtime position (.incompatibleSizes length other)), state) := by
  obtain ⟨others, found, differs⟩ := disagree_iff.1 disagree
  simp only [applyFrom, found, differs]

/-- The operator is called once where there is no vector. -/
theorem applyFrom_of_scalars (scalars : ∀ nodes, .vector nodes ∉ values) :
    applyFrom position values compute state = compute state (values.map first) := by
  simp only [applyFrom, lengths_eq_nil.2 scalars]

/-- The first nodes of values without a vector are a row. -/
theorem isRow_first (scalars : ∀ nodes, .vector nodes ∉ values) :
    IsRow values 0 (values.map first) := by
  rw [IsRow, List.map_map]
  refine List.map_congr_left fun value member => item?_zero ?_
  rintro nodes rfl
  exact absurd member (scalars nodes)

/-- The operator is called on the rows where the vectors have one length. -/
theorem applyFrom_of_agree (vector : ∃ nodes, .vector nodes ∈ values)
    (agree : Agree values length) : applyFrom position values compute state =
      ((collectFrom compute state (rows length values)).1.map .vector,
        (collectFrom compute state (rows length values)).2) := by
  cases found : lengths values with
  | nil => exact absurd vector (not_exists.2 (lengths_eq_nil.1 found))
  | cons first others =>
    have same := found ▸ agree_iff.1 agree
    obtain rfl := same first List.mem_cons_self
    have none : others.find? (· != first) = none := List.find?_eq_none.2 fun found member => by
      simp [same found (List.mem_cons_of_mem _ member)]
    simp only [applyFrom, found, none]

/-- Vectors disagree, or there are none, or they have one length. -/
theorem disagree_or_agree (values : List Value) :
    (∃ length other, Disagree values length other) ∨ (∀ nodes, .vector nodes ∉ values) ∨
      (∃ nodes, .vector nodes ∈ values) ∧ ∃ length, Agree values length := by
  cases found : lengths values with
  | nil => exact .inr (.inl (lengths_eq_nil.1 found))
  | cons length others =>
    cases differs : others.find? (· != length) with
    | some other => exact .inl ⟨length, other, disagree_iff.2 ⟨others, found, differs⟩⟩
    | none =>
      obtain ⟨nodes, member, -⟩ := mem_lengths.1 (found ▸ List.mem_cons_self)
      refine .inr (.inr ⟨⟨nodes, member⟩, length, agree_iff.2 fun n inside => ?_⟩)
      rcases List.mem_cons.1 (found ▸ inside) with same | behind
      · exact same
      · simpa using List.find?_eq_none.1 differs n behind

/-- What is made of values is what the broadcast computes. -/
theorem applyFrom_of_makes (makes : Makes position values compute state answer) :
    applyFrom position values compute state = answer := by
  cases makes with
  | incompatible disagree => exact applyFrom_of_disagree disagree
  | once scalars isRow =>
    rw [applyFrom_of_scalars scalars, (isRow_first scalars).unique isRow]
  | all vector agree areRows calls =>
    rw [applyFrom_of_agree vector agree, (areRows_rows agree).unique areRows, calls.collectFrom]
    rfl
  | stopped vector agree areRows calls failed =>
    rw [applyFrom_of_agree vector agree, (areRows_rows agree).unique areRows,
      calls.collectFrom_stopped failed]
    rfl

/-- Something is made of any values. -/
theorem exists_makes (position : Nat) (values : List Value)
    (compute : σ → List Node → Except EvalError Value × σ) (state : σ) :
    ∃ answer, Makes position values compute state answer := by
  rcases disagree_or_agree values with ⟨_, _, disagree⟩ | scalars | ⟨vector, length, agree⟩
  · exact ⟨_, .incompatible disagree⟩
  · exact ⟨_, .once scalars (isRow_first scalars)⟩
  · have areRows := areRows_rows agree
    rcases calls_or_stopped compute state (rows length values) with ⟨_, _, calls⟩ |
      ⟨_, _, _, _, _, _, _, split, calls, failed⟩
    · exact ⟨_, .all vector agree areRows calls⟩
    · exact ⟨_, .stopped vector agree (split ▸ areRows) calls failed⟩

/-- An operator is only ever called on rows with a node for each value. -/
theorem applyFrom_congr {compute' : σ → List Node → Except EvalError Value × σ}
    (same : ∀ state row, row.length = values.length → compute state row = compute' state row) :
    applyFrom position values compute state = applyFrom position values compute' state := by
  rcases disagree_or_agree values with ⟨_, _, disagree⟩ | scalars | ⟨vector, length, agree⟩
  · rw [applyFrom_of_disagree disagree, applyFrom_of_disagree disagree]
  · rw [applyFrom_of_scalars scalars, applyFrom_of_scalars scalars]
    exact same state _ (List.length_map _)
  · rw [applyFrom_of_agree vector agree, applyFrom_of_agree vector agree,
      collectFrom_congr fun state row member => same state row (length_of_mem_rows member)]

/-- Broadcasting an operator, with or without a state, makes of the values what the rows tell: an
error for vectors of different lengths, one call without a vector, and otherwise a call for each row
in order up to the first that fails. It is called on nothing but rows with a node for each value. -/
theorem makes_iff_applyFrom (position : Nat) (values : List Value)
    (compute : σ → List Node → Except EvalError Value × σ) (state : σ) :
    (∀ answer, Makes position values compute state answer ↔
      applyFrom position values compute state = answer) ∧
    (∀ number row, IsRow values number row → row.length = values.length) ∧
    (∀ compute' : σ → List Node → Except EvalError Value × σ,
      (∀ state row, row.length = values.length → compute state row = compute' state row) →
      applyFrom position values compute state = applyFrom position values compute' state) ∧
    ∀ stateless : List Node → Except EvalError Value,
      applyFrom position values (fun state row => (stateless row, state)) state =
        (apply position values stateless, state) := by
  refine ⟨fun answer => ⟨applyFrom_of_makes, ?_⟩, fun _ _ => length_of_isRow,
    fun _ => applyFrom_congr, fun stateless => apply_eq_applyFrom position values stateless state⟩
  rintro rfl
  obtain ⟨answer, makes⟩ := exists_makes position values compute state
  exact applyFrom_of_makes makes ▸ makes

/-- An operator that notes its rows and fails on null is called on two rows of three, and a vector
of another length keeps it from being called at all. -/
theorem makes_iff_applyFrom_noting :
    let note (seen : List (List Node)) (row : List Node) :
        Except EvalError Value × List (List Node) :=
      (match row with
        | [_, .null, _] => .error (.nullValue 7)
        | _ => .ok (.vector row), seen ++ [row])
    let long : Value := .vector [.boolean true, .null, .boolean false]
    Makes 4 [.single (.string "x"), long, .absent] note [] (.error (.nullValue 7),
        [[.string "x", .boolean true, .null], [.string "x", .null, .null]]) ∧
      Makes 4 [.absent, long, .single .null, long, .vector [.null]] note []
        (.error (.runtime 4 (.incompatibleSizes 3 1)), []) := by
  intro note long
  have failing := makes_iff_applyFrom 4 [.single (.string "x"), long, .absent] note []
  have uncalled :=
    makes_iff_applyFrom 4 [.absent, long, .single .null, long, .vector [.null]] note []
  exact ⟨(failing.1 _).2 rfl, (uncalled.1 _).2 rfl⟩

end

end PathQuery.Broadcast
