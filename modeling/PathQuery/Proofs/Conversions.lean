import PathQuery.Proofs.Origin
import PathQuery.Proofs.Shape
/-!
# Results as plain values

An expression has a plain value exactly where its result is one node of the kind that is asked for.
A null is told from the other nodes, which are all of the wrong kind: a missing node is, and so is
a vector of any length, which counts as an array even if it holds one node only. An error of the
evaluation stays what it is. It is never that of a null, so that error always speaks of the result.
-/
namespace PathQuery

/-! ## Conversions of a kind -/

namespace Coercion

variable {α : Type} {c : Coercion α} {kind : Kind}

/-- The conversion has values for the nodes of a kind, all of them and no others, and none for
null. -/
structure Converts (c : Coercion α) (kind : Kind) : Prop where
  /-- The kind is the one that its errors name. -/
  expected : c.expected = kind
  /-- Null is of another kind. -/
  notNull : kind ≠ .null
  /-- A node has a value if it is of the kind, and only then. -/
  isSome_iff : ∀ node, (c.lenient? node).isSome = true ↔ node.kind = kind

/-- Numbers have a value in 32 bits. -/
theorem int_converts : int.Converts .number :=
  ⟨rfl, by decide, fun node => by cases node <;> simp [int, Node.int?, Node.kind]⟩

/-- Numbers have a value in 64 bits. -/
theorem long_converts : long.Converts .number :=
  ⟨rfl, by decide, fun node => by cases node <;> simp [long, Node.long?, Node.kind]⟩

/-- Numbers have a floating-point value. -/
theorem double_converts : double.Converts .number :=
  ⟨rfl, by decide, fun node => by cases node <;> simp [double, Node.double?, Node.kind]⟩

/-- Texts have a value as texts. -/
theorem string_converts : string.Converts .string :=
  ⟨rfl, by decide, fun node => by cases node <;> simp [string, Node.string?, Node.kind]⟩

/-- What the strict conversion to a kind makes of a node. -/
inductive Strictly (c : Coercion α) (kind : Kind) (position : Nat) (label : String) :
    Node → Except EvalError α → Prop where
  /-- A node of the kind has its value. -/
  | value {node : Node} {value : α} (fits : node.kind = kind)
    (found : c.lenient? node = some value) : Strictly c kind position label node (.ok value)
  /-- Null is an error of its own. -/
  | null : Strictly c kind position label .null (.error (.nullValue position))
  /-- Any other node is of the wrong kind. -/
  | other {node : Node} (noNull : node ≠ .null) (differs : node.kind ≠ kind) :
    Strictly c kind position label node (.error (.typeMismatch position kind node label))

/-- Only null is of the kind of null. -/
theorem isNull_iff {node : Node} : node.isNull = true ↔ node = .null := by
  cases node <;> simp [Node.isNull, Node.kind]

/-- The strict conversion makes one of these of every node. -/
theorem Converts.strictly (converts : c.Converts kind) (position : Nat) (label : String)
    (node : Node) : Strictly c kind position label node (c.strict position label node) := by
  by_cases null : node.isNull = true
  · obtain rfl := isNull_iff.1 null
    exact .null
  · have noNull : node ≠ .null := fun same => null (isNull_iff.2 same)
    have of_kind := converts.isSome_iff node
    unfold strict nullable
    rw [if_neg null]
    cases found : c.lenient? node with
    | some value => exact .value (of_kind.1 (by rw [found]; rfl)) found
    | none =>
      have differs : node.kind ≠ kind := fun fits => by
        have some := of_kind.2 fits
        rw [found] at some
        cases some
      rw [converts.expected]
      exact .other noNull differs

variable {position : Nat} {label : String} {node : Node}

/-- The strict conversion has the value that a node has, and no other. -/
theorem Converts.strict_eq_ok_iff (converts : c.Converts kind) {plain : α} :
    c.strict position label node = .ok plain ↔ c.lenient? node = some plain := by
  have some_iff := converts.isSome_iff node
  have made := converts.strictly position label node
  generalize c.strict position label node = answer at made
  cases made with
  | value fits found => rw [found, Except.ok.injEq, Option.some.injEq]
  | null =>
    refine ⟨nofun, fun found => absurd (some_iff.1 ?_) converts.notNull.symm⟩
    rw [found]
    rfl
  | other noNull differs =>
    refine ⟨nofun, fun found => absurd (some_iff.1 ?_) differs⟩
    rw [found]
    rfl

/-- The strict conversion finds a null where there is one, and only there. -/
theorem Converts.strict_eq_nullValue_iff (converts : c.Converts kind) :
    (∃ p, c.strict position label node = .error (.nullValue p)) ↔ node = .null := by
  have made := converts.strictly position label node
  generalize c.strict position label node = answer at made
  cases made with
  | value fits found =>
    refine ⟨nofun, ?_⟩
    rintro rfl
    exact absurd fits.symm converts.notNull
  | null => exact ⟨fun _ => rfl, fun _ => ⟨position, rfl⟩⟩
  | other noNull differs => exact ⟨nofun, fun same => absurd same noNull⟩

/-- The strict conversion finds a node of another kind wrong, unless it is null. -/
theorem Converts.strict_of_other (converts : c.Converts kind) (noNull : node ≠ .null)
    (differs : node.kind ≠ kind) :
    c.strict position label node = .error (.typeMismatch position kind node label) := by
  have made := converts.strictly position label node
  generalize c.strict position label node = answer at made
  cases made with
  | value fits found => exact absurd fits differs
  | null => exact absurd rfl noNull
  | other => rfl

end Coercion

namespace Expr

variable {α : Type} {document : Node} {e : Expr} {c : Coercion α} {kind : Kind} {label : String}
  {value : Value} {error : EvalError}

/-- A result is converted as the node that it stands for. -/
theorem evalAs_of_eval (evaluated : e.eval document = .ok value) :
    e.evalAs c label document = c.strict e.position label value.toNode := by
  rw [evalAs, evaluated]

/-- An error is not converted. -/
theorem evalAs_of_error (failed : e.eval document = .error error) :
    e.evalAs c label document = .error error := by
  rw [evalAs, failed]

/-- Evaluation never fails for a null. -/
theorem eval_ne_nullValue (p : Nat) : e.eval document ≠ .error (.nullValue p) := by
  intro failed
  obtain ⟨part, -, raises⟩ := exists_raises_of_eval failed
  cases raises

/-- A result that stands for a node of another kind than an array is that node. -/
theorem eq_single_of_toNode {node : Node} (evaluated : e.eval document = .ok value)
    (same : value.toNode = node) (noArray : node.kind ≠ .array) : value = .single node := by
  subst same
  cases value with
  | absent => cases shaped_of_eval evaluated
  | single node => rfl
  | vector nodes => exact absurd rfl noArray

/-- What an expression answers on a document when its result is asked for as a plain value of a
kind. -/
structure Typed (e : Expr) (document : Node) (label : String) (kind : Kind) (c : Coercion α) :
    Prop where
  /-- There is a value where the result is one node of the kind, and only there. -/
  ok_iff : (∃ plain, e.evalAs c label document = .ok plain) ↔
    ∃ node, e.eval document = .ok (.single node) ∧ node.kind = kind
  /-- It is the value of that node. -/
  value : ∀ node plain, e.eval document = .ok (.single node) →
    (e.evalAs c label document = .ok plain ↔ c.lenient? node = some plain)
  /-- There is an error for null where the result is null, and only there. -/
  null_iff : (∃ p, e.evalAs c label document = .error (.nullValue p)) ↔
    e.eval document = .ok (.single .null)
  /-- Any other result is of the wrong kind, and the error holds all of it. -/
  mismatch : ∀ value, e.eval document = .ok value → value ≠ .single .null →
    (∀ node, value = .single node → node.kind ≠ kind) → e.evalAs c label document =
      .error (.typeMismatch e.position kind value.toNode label)
  /-- So is a vector, whatever it holds. -/
  vector : ∀ nodes, e.eval document = .ok (.vector nodes) → e.evalAs c label document =
    .error (.typeMismatch e.position kind (.array nodes) label)
  /-- And so is a missing node. -/
  missing : e.eval document = .ok (.single .missing) → e.evalAs c label document =
    .error (.typeMismatch e.position kind .missing label)
  /-- An error stays as it is. -/
  error : ∀ error, e.eval document = .error error → e.evalAs c label document = .error error

/-- Where a conversion has values for the nodes of a kind, other than that of arrays and of missing
nodes, results are answered like this. -/
theorem typed (converts : c.Converts kind) (noArray : kind ≠ .array) (noMissing : kind ≠ .missing)
    (e : Expr) (document : Node) (label : String) : e.Typed document label kind c := by
  have mismatch : ∀ value, e.eval document = .ok value → value.toNode ≠ .null →
      value.toNode.kind ≠ kind → e.evalAs c label document =
        .error (.typeMismatch e.position kind value.toNode label) := by
    intro value evaluated noNull differs
    rw [evalAs_of_eval evaluated, converts.strict_of_other noNull differs]
  constructor
  case ok_iff =>
    constructor
    · rintro ⟨plain, converted⟩
      cases evaluated : e.eval document with
      | error error => cases (evalAs_of_error evaluated).symm.trans converted
      | ok value =>
        rw [evalAs_of_eval evaluated, converts.strict_eq_ok_iff] at converted
        have fits : value.toNode.kind = kind := (converts.isSome_iff _).1 (by rw [converted]; rfl)
        have single := eq_single_of_toNode evaluated rfl (fits.symm ▸ noArray)
        exact ⟨value.toNode, congrArg Except.ok single, fits⟩
    · rintro ⟨node, evaluated, fits⟩
      obtain ⟨plain, found⟩ := Option.isSome_iff_exists.1 ((converts.isSome_iff node).2 fits)
      rw [evalAs_of_eval evaluated]
      exact ⟨plain, converts.strict_eq_ok_iff.2 found⟩
  case value =>
    intro node plain evaluated
    rw [evalAs_of_eval evaluated]
    exact converts.strict_eq_ok_iff
  case null_iff =>
    constructor
    · rintro ⟨p, converted⟩
      cases evaluated : e.eval document with
      | error error =>
        rw [evalAs_of_error evaluated] at converted
        have failed := evaluated.trans (congrArg Except.error (Except.error.inj converted))
        exact absurd failed (eval_ne_nullValue p)
      | ok value =>
        rw [evalAs_of_eval evaluated] at converted
        have null := converts.strict_eq_nullValue_iff.1 ⟨p, converted⟩
        exact congrArg Except.ok (eq_single_of_toNode evaluated null nofun)
    · intro evaluated
      rw [evalAs_of_eval evaluated]
      exact converts.strict_eq_nullValue_iff.2 rfl
  case mismatch =>
    intro value evaluated noNull others
    refine mismatch value evaluated (fun null => ?_) fun fits => ?_
    · exact noNull (eq_single_of_toNode evaluated null nofun)
    · exact others _ (eq_single_of_toNode evaluated rfl (fits.symm ▸ noArray)) fits
  case vector => exact fun nodes evaluated => mismatch _ evaluated nofun noArray.symm
  case missing => exact fun evaluated => mismatch _ evaluated nofun noMissing.symm
  case error => exact fun error failed => evalAs_of_error failed

/-- As an integer, as a floating-point number and as a text an expression has a plain value exactly
where its result is one node that is a number or a text; everything else is an error that tells a
null, a result of another kind and an error of the evaluation apart. As a truth value an expression
fails exactly where its evaluation fails. -/
theorem typed_results (e : Expr) (document : Node) (label : String) :
    e.Typed document label .number .int ∧ e.Typed document label .number .long ∧
      e.Typed document label .number .double ∧ e.Typed document label .string .string ∧
      ∀ error, e.evalAsBoolean document = .error error ↔ e.eval document = .error error := by
  refine ⟨typed Coercion.int_converts nofun nofun e document label,
    typed Coercion.long_converts nofun nofun e document label,
    typed Coercion.double_converts nofun nofun e document label,
    typed Coercion.string_converts nofun nofun e document label, fun error => ?_⟩
  unfold evalAsBoolean
  cases e.eval document with
  | error other => rw [Except.map, Except.error.injEq, Except.error.injEq]
  | ok value => exact ⟨nofun, nofun⟩

/-- A vector of one number is no number. -/
example : (descent 0 (.root 0) (some "x")).evalAs .int "the limit" (.object [("x", .integer 1)]) =
    .error (.typeMismatch 0 .number (.array [.integer 1]) "the limit") := rfl

end Expr

end PathQuery
