import PathQuery.Proofs.Coverage
import PathQuery.Proofs.NormalNesting
/-!
# Where errors point

Every part of an expression that was read from a text carries the offset of a token of that text,
and only tokens of some kinds introduce parts of its kind. Evaluation points its errors at a part
that can raise them: at a step, or at a combination of vectors. So an error can be shown at a
character of the text. A conversion of the result points at the whole expression.
-/
namespace PathQuery

open Grammar (Primary StepAt Path Combination Derives NameOrNothing constant?)

/-! ## Tokens that introduce expressions -/

namespace Token

/-- Whether a path can start from the document at the token. -/
def startsAtDocument : Token → Bool
  | .dollar | .identifier _ | .star | .dotDot => true
  | _ => false

/-- Whether a field can be selected at the token. -/
def selectsField : Token → Bool
  | .dot | .leftBracket | .identifier _ => true
  | _ => false

/-- Whether the children can be selected at the token. -/
def selectsChildren : Token → Bool
  | .dot | .leftBracket | .star => true
  | _ => false

/-- The token can introduce the expression. A constant comes from its own token, or it is the name
of a field and comes from the token that selects the field. -/
def Introduces (token : Token) : Expr → Prop
  | .root _ => token.startsAtDocument = true
  | .literal _ value =>
    constant? token = some value ∨ token.selectsField = true ∧ ∃ name, value = .string name
  | .field _ _ _ => token.selectsField = true
  | .index _ _ _ => token = .dot
  | .wildcard _ _ => token.selectsChildren = true
  | .descent _ _ _ => token = .dotDot
  | .boolean _ op _ _ => token = Parser.operator op

/-- The end of a text introduces nothing. -/
theorem Introduces.ne_endOfInput {token : Token} {e : Expr} (introduces : token.Introduces e) :
    token ≠ .endOfInput := by
  rintro rfl
  cases e with
  | literal p value =>
    rcases introduces with said | ⟨selects, -⟩
    · cases said
    · cases selects
  | boolean p op left right => cases op <;> cases introduces
  | root | field | index | wildcard | descent => cases introduces

end Token

namespace Expr

/-- The expression and all expressions inside it, those in computed keys included. -/
def parts : Expr → List Expr
  | .root p => [.root p]
  | .literal p value => [.literal p value]
  | .field p object key => .field p object key :: (object.parts ++ key.parts)
  | .index p object n => .index p object n :: object.parts
  | .wildcard p object => .wildcard p object :: object.parts
  | .descent p object name => .descent p object name :: object.parts
  | .boolean p op left right => .boolean p op left right :: (left.parts ++ right.parts)

/-- An expression is a part of itself. -/
theorem mem_parts_self (e : Expr) : e ∈ e.parts := by
  cases e <;> exact List.mem_cons_self

/-- The expression carries the offset of one of the tokens, and that token can introduce it. -/
def IntroducedIn (e : Expr) (tokens : List Located) : Prop :=
  ∃ found ∈ tokens, found.position = e.position ∧ found.token.Introduces e

/-- Every part of the expression is introduced by one of the tokens. -/
def TracesTo (e : Expr) (tokens : List Located) : Prop :=
  ∀ part ∈ e.parts, part.IntroducedIn tokens

variable {e object key left right : Expr} {tokens more : List Located}

/-- What is traced to some tokens is traced to more. -/
theorem TracesTo.mono (traces : e.TracesTo tokens) (subset : tokens ⊆ more) : e.TracesTo more := by
  intro part member
  obtain ⟨found, inside, same, introduces⟩ := traces part member
  exact ⟨found, subset inside, same, introduces⟩

/-- A part and what is inside it are traced together. -/
theorem tracesTo_of_parts {inner : List Expr} (parts : e.parts = e :: inner)
    (own : e.IntroducedIn tokens) (inside : ∀ part ∈ inner, part.IntroducedIn tokens) :
    e.TracesTo tokens := by
  rw [TracesTo, parts]
  exact List.forall_mem_cons.2 ⟨own, inside⟩

/-- A field is traced with its object and its key. -/
theorem TracesTo.field {p : Nat} (own : (field p object key).IntroducedIn tokens)
    (before : object.TracesTo tokens) (ofKey : key.TracesTo tokens) :
    (field p object key).TracesTo tokens :=
  tracesTo_of_parts rfl own (List.forall_mem_append.2 ⟨before, ofKey⟩)

/-- A field under a name is traced with its object: the token that selects it brings the name. -/
theorem TracesTo.named {p : Nat} {name : String} {token : Token} (first : ⟨token, p⟩ ∈ tokens)
    (selects : token.selectsField = true) (before : object.TracesTo tokens) :
    (named p object name).TracesTo tokens :=
  .field ⟨_, first, rfl, selects⟩ before
    (tracesTo_of_parts rfl ⟨_, first, rfl, .inr ⟨selects, name, rfl⟩⟩ nofun)

/-- The document is traced to a token at which a path can start. -/
theorem tracesTo_root {p : Nat} {token : Token} (first : ⟨token, p⟩ ∈ tokens)
    (starts : token.startsAtDocument = true) : (root p).TracesTo tokens :=
  tracesTo_of_parts rfl ⟨_, first, rfl, starts⟩ nofun

/-- The children of an object are traced with it. -/
theorem TracesTo.wildcard {p : Nat} {token : Token} (first : ⟨token, p⟩ ∈ tokens)
    (selects : token.selectsChildren = true) (before : object.TracesTo tokens) :
    (wildcard p object).TracesTo tokens :=
  tracesTo_of_parts rfl ⟨_, first, rfl, selects⟩ before

/-- A descent from an object is traced with it. -/
theorem TracesTo.descent {p : Nat} {name : Option String} (first : ⟨.dotDot, p⟩ ∈ tokens)
    (before : object.TracesTo tokens) : (descent p object name).TracesTo tokens :=
  tracesTo_of_parts rfl ⟨_, first, rfl, rfl⟩ before

end Expr

namespace Grammar

variable {Nested Operand : List Located → Expr → Prop} {s t : List Located} {e object : Expr}

/-- The start of a path is traced to its tokens. -/
theorem Primary.tracesTo (nested : ∀ s e, Nested s e → e.TracesTo s) (start : Primary Nested s e) :
    e.TracesTo s := by
  cases start with
  | root p => exact Expr.tracesTo_root List.mem_cons_self rfl
  | name name p =>
    exact .named List.mem_cons_self rfl (Expr.tracesTo_root List.mem_cons_self rfl)
  | star p => exact .wildcard List.mem_cons_self rfl (Expr.tracesTo_root List.mem_cons_self rfl)
  | descent p found =>
    exact .descent List.mem_cons_self (Expr.tracesTo_root List.mem_cons_self rfl)
  | literal p found =>
    exact Expr.tracesTo_of_parts rfl ⟨_, List.mem_cons_self, rfl, .inl found⟩ nofun
  | group p q inner =>
    exact (nested _ _ inner).mono fun _ member =>
      List.mem_cons_of_mem _ (List.mem_append_left _ member)

/-- Behind an object a step is traced to its own tokens. -/
theorem StepAt.tracesTo (nested : ∀ s e, Nested s e → e.TracesTo s) {p : Nat} {step : Step}
    (found : StepAt Nested p t step) (before : object.TracesTo s) :
    (step.apply p object).TracesTo (s ++ t) := by
  have earlier : object.TracesTo (s ++ t) := before.mono (List.subset_append_left s t)
  have here : ∀ {first : Located} {later : List Located}, t = first :: later → first ∈ s ++ t :=
    fun same => List.mem_append_right _ (same ▸ List.mem_cons_self)
  cases found with
  | field p name => exact .named (here rfl) rfl earlier
  | index n p q => exact Expr.tracesTo_of_parts rfl ⟨_, here rfl, rfl, rfl⟩ earlier
  | wildcard p q => exact .wildcard (here rfl) rfl earlier
  | descent p name => exact .descent (here rfl) earlier
  | starInBrackets p q r => exact .wildcard (here rfl) rfl earlier
  | nameInBrackets name p q r => exact .named (here rfl) rfl earlier
  | key p r inner other =>
    refine .field ⟨_, here rfl, rfl, rfl⟩ earlier ((nested _ _ inner).mono fun _ member => ?_)
    exact List.mem_append_right _ (List.mem_cons_of_mem _ (List.mem_append_left _ member))

/-- A path is traced to its tokens. -/
theorem Path.tracesTo (nested : ∀ s e, Nested s e → e.TracesTo s) (path : Path Nested s e) :
    e.TracesTo s := by
  induction path with
  | primary start => exact start.tracesTo nested
  | step p _ last before => exact last.tracesTo nested before

/-- A combination is traced to its tokens. -/
theorem Combination.tracesTo {op : BoolOp} (operand : ∀ s e, Operand s e → e.TracesTo s)
    (combination : Combination op Operand s e) : e.TracesTo s := by
  induction combination with
  | operand only => exact operand _ _ only
  | @combine s t left right p _ last before =>
    have sign : ⟨Parser.operator op, p⟩ ∈ s ++ ⟨Parser.operator op, p⟩ :: t :=
      List.mem_append_right _ List.mem_cons_self
    refine Expr.tracesTo_of_parts rfl ⟨_, sign, rfl, rfl⟩ (List.forall_mem_append.2 ⟨?_, ?_⟩)
    · exact before.mono (List.subset_append_left _ _)
    · exact (operand t right last).mono fun _ member =>
        List.mem_append_right _ (List.mem_cons_of_mem _ member)

/-- What tokens derive is traced to them. -/
theorem Derives.tracesTo {levels : Nat} (derived : Derives levels s e) : e.TracesTo s := by
  induction levels generalizing s e with
  | zero => exact derived.elim
  | succ levels deeper =>
    have path : ∀ s e, Path (Derives levels) s e → e.TracesTo s :=
      fun _ _ path => path.tracesTo fun _ _ => deeper
    exact Combination.tracesTo (fun _ _ conjunction => conjunction.tracesTo path) derived

end Grammar

/-! ## Errors of evaluation -/

namespace Broadcast

variable {position : Nat} {values : List Value} {e : EvalError}

/-- Rows that cannot be collected have one that fails. -/
theorem error_of_collect {α : Type} {compute : α → Except EvalError Value} {rows : List α}
    (failed : collect compute rows = .error e) : ∃ row, compute row = .error e := by
  induction rows with
  | nil => cases failed
  | cons row later ih =>
    simp only [collect] at failed
    split at failed
    · next first =>
      obtain rfl := Except.error.inj failed
      exact ⟨row, first⟩
    · split at failed
      · next rest => exact ih (rest.trans failed)
      · cases failed

/-- An operator fails on one of the rows, or because vectors have different lengths. -/
theorem error_of_apply {compute : List Node → Except EvalError Value}
    (failed : apply position values compute = .error e) :
    (∃ row, compute row = .error e) ∨
      ∃ first other, e = .runtime position (.incompatibleSizes first other) := by
  unfold apply at failed
  split at failed
  · exact .inl ⟨_, failed⟩
  · split at failed
    · exact .inr ⟨_, _, (Except.error.inj failed).symm⟩
    · exact .inl (error_of_collect (error_of_map failed))

/-- An operator on one node fails on one of the nodes. -/
theorem error_of_onEach {value : Value} {compute : Node → Except EvalError Value}
    (failed : onEach position value compute = .error e) : ∃ node, compute node = .error e := by
  cases value with
  | absent | single => exact ⟨_, failed⟩
  | vector nodes =>
    rw [onEach_vector] at failed
    exact error_of_collect (error_of_map failed)

end Broadcast

namespace Expr

/-- Whether a fault is one of the expression itself: the kind of a step or a combination tells what
can go wrong there. -/
def canRaise : Expr → RuntimeFault → Bool
  | .field _ _ _, .nameOnOther _ | .field _ _ _, .keyOnOther _ | .field _ _ _, .beyondLast _ _
  | .field _ _ _, .beforeFirst _ _ | .index _ _ _, .indexOnOther _
  | .wildcard _ _, .wildcardOnOther _ | .boolean _ _ _ _, .incompatibleSizes _ _ => true
  | _, _ => false

/-- The error is one of the expression itself, and not of an expression inside it. -/
inductive Raises (document : Node) : Expr → EvalError → Prop where
  /-- A step or a combination cannot be computed. -/
  | fault {e : Expr} {fault : RuntimeFault} (able : e.canRaise fault = true) :
    Raises document e (.runtime e.position fault)
  /-- A computed key is neither a text nor a number. -/
  | key {p : Nat} {object key : Expr} {found : Value} (evaluated : key.eval document = .ok found)
    (noText : found.toNode.string? = none) (noNumber : found.toNode.number? = none) :
    Raises document (.field p object key)
      (.typeMismatch p .number found.toNode "the index of the array")

variable {document node : Node} {p : Nat} {object : Expr} {e : EvalError}

/-- What is no number has no index. -/
theorem number?_of_keyIndex? {key : Node} (noIndex : key.keyIndex? = none) :
    key.number? = none := by
  cases key with
  | integer | float => cases noIndex
  | null | boolean | string | array | object | missing => rfl

/-- A lookup under a key that fails is an error of the field. -/
theorem raises_of_byKey {key : Expr} {found : Value} (evaluated : key.eval document = .ok found)
    (failed : Select.byKey p found.toNode node = .error e) :
    (field p object key).Raises document e := by
  have own : ∀ {fault : RuntimeFault}, (field p object key).canRaise fault = true →
      EvalError.runtime p fault = e → (field p object key).Raises document e := by
    rintro fault able rfl
    exact .fault able
  unfold Select.byKey at failed
  split at failed
  · split at failed
    · cases failed
    · exact own rfl (Except.error.inj failed)
  · split at failed
    · dsimp only at failed
      split at failed
      · exact own rfl (Except.error.inj failed)
      · split at failed
        · exact own rfl (Except.error.inj failed)
        · cases failed
    · exact own rfl (Except.error.inj failed)
  · next noText noIndex =>
    obtain rfl := Except.error.inj failed
    exact .key evaluated noText (number?_of_keyIndex? noIndex)

/-- A lookup at an index that fails is an error of the step. -/
theorem raises_of_byIndex {n : Int64} (failed : Select.byIndex p n.toInt node = .error e) :
    (index p object n).Raises document e := by
  unfold Select.byIndex at failed
  split at failed
  · cases failed
  · obtain rfl := Except.error.inj failed
    exact .fault rfl

/-- A wildcard that fails is an error of the step. -/
theorem raises_of_children (failed : Select.children p node = .error e) :
    (wildcard p object).Raises document e := by
  unfold Select.children at failed
  split at failed
  · cases failed
  · cases failed
  · obtain rfl := Except.error.inj failed
    exact .fault rfl

/-- An error of the expression itself is one of its parts. -/
theorem Raises.exists_part {q : Expr} (raises : q.Raises document e) :
    ∃ part ∈ q.parts, part.Raises document e :=
  ⟨q, q.mem_parts_self, raises⟩

/-- An error of some expressions is one of more of them. -/
theorem exists_raises_mono {few many : List Expr} (subset : few ⊆ many)
    (raised : ∃ part ∈ few, part.Raises document e) : ∃ part ∈ many, part.Raises document e := by
  obtain ⟨part, member, raises⟩ := raised
  exact ⟨part, subset member, raises⟩

/-- Every error of evaluation is one of a part of the expression. -/
theorem exists_raises_of_eval {q : Expr} (failed : q.eval document = .error e) :
    ∃ part ∈ q.parts, part.Raises document e := by
  induction q with
  | root | literal => cases failed
  | field p object key ofObject ofKey =>
    have ofParts : object.parts ++ key.parts ⊆ (field p object key).parts :=
      List.subset_cons_self _ _
    simp only [eval] at failed
    split at failed
    · next stopped =>
      have raised := ofObject (stopped.trans failed)
      exact exists_raises_mono (List.Subset.trans (List.subset_append_left _ _) ofParts) raised
    · cases failed
    · split at failed
      · next stopped =>
        have raised := ofKey (stopped.trans failed)
        exact exists_raises_mono (List.Subset.trans (List.subset_append_right _ _) ofParts) raised
      · next found evaluated =>
        obtain ⟨node, stopped⟩ := Broadcast.error_of_onEach failed
        exact (raises_of_byKey evaluated (error_of_map stopped)).exists_part
  | index p object n ofObject =>
    simp only [eval] at failed
    split at failed
    · next stopped =>
      exact exists_raises_mono (List.subset_cons_self _ _) (ofObject (stopped.trans failed))
    · obtain ⟨node, stopped⟩ := Broadcast.error_of_onEach failed
      exact (raises_of_byIndex (error_of_map stopped)).exists_part
  | wildcard p object ofObject =>
    simp only [eval] at failed
    split at failed
    · next stopped =>
      exact exists_raises_mono (List.subset_cons_self _ _) (ofObject (stopped.trans failed))
    · obtain ⟨node, stopped⟩ := Broadcast.error_of_onEach failed
      exact (raises_of_children (error_of_map stopped)).exists_part
  | descent p object name ofObject =>
    simp only [eval] at failed
    split at failed
    · next stopped =>
      exact exists_raises_mono (List.subset_cons_self _ _) (ofObject (stopped.trans failed))
    · -- a descent fails on no node
      obtain ⟨node, stopped⟩ := Broadcast.error_of_onEach failed
      cases stopped
  | boolean p op left right ofLeft ofRight =>
    have ofParts : left.parts ++ right.parts ⊆ (boolean p op left right).parts :=
      List.subset_cons_self _ _
    simp only [eval] at failed
    split at failed
    · next stopped =>
      have raised := ofLeft (stopped.trans failed)
      exact exists_raises_mono (List.Subset.trans (List.subset_append_left _ _) ofParts) raised
    · split at failed
      · cases failed
      · split at failed
        · next stopped =>
          have raised := ofRight (stopped.trans failed)
          exact exists_raises_mono (List.Subset.trans (List.subset_append_right _ _) ofParts) raised
        · rcases Broadcast.error_of_apply failed with ⟨row, stopped⟩ | ⟨first, other, rfl⟩
          · cases stopped
          · have raises : (boolean p op left right).Raises document
                (.runtime p (.incompatibleSizes first other)) := .fault rfl
            exact raises.exists_part

/-! ## Errors of conversions -/

/-- A conversion points its errors at the expression that asks for it. -/
theorem position_of_strict {α : Type} {c : Coercion α} {label : String}
    (failed : c.strict p label node = .error e) : e.position = p := by
  unfold Coercion.strict Coercion.nullable at failed
  split at failed
  · cases failed
  · obtain rfl := Except.error.inj failed
    rfl
  · next error stopped =>
    obtain rfl := Except.error.inj failed
    split at stopped
    · cases stopped
    · split at stopped
      · cases stopped
      · obtain rfl := Except.error.inj stopped
        rfl

/-- Every part of an expression that was read from a text carries the offset of a token that can
introduce it, and so one of a character of the text. Evaluation points its errors at parts that can
raise them; taking the result as a truth value adds no error, and converting it adds only errors at
the whole expression. -/
theorem introduced_and_raised_of_ofText {text : String} {e : Expr} (read : ofText text = .ok e) :
    (∃ s, TokenStream.ofText text = .ok s ∧ ∀ part ∈ e.parts, part.position < text.length ∧
      ∃ found ∈ s.tokens, found.token ≠ .endOfInput ∧ found.position = part.position ∧
        found.token.Introduces part) ∧
    ∀ document error,
      (e.eval document = .error error → ∃ part ∈ e.parts, part.Raises document error) ∧
      (e.evalAsBoolean document = .error error → e.eval document = .error error) ∧
      ∀ {α : Type} (c : Coercion α) (label : String), e.evalAs c label document = .error error →
        e.eval document = .error error ∨
          (∃ value, e.eval document = .ok value) ∧ error.position = e.position := by
  obtain ⟨s, cut, derived⟩ := exists_derives_of_ofText read
  refine ⟨⟨s, cut, fun part member => ?_⟩, fun document error => ⟨exists_raises_of_eval,
    error_of_map, fun c label failed => ?_⟩⟩
  · obtain ⟨found, inside, same, introduces⟩ := derived.tracesTo part member
    have bound := TokenStream.position_lt_of_ofText cut inside
    exact ⟨same ▸ bound, found, inside, introduces.ne_endOfInput, same, introduces⟩
  · unfold evalAs at failed
    split at failed
    · next value evaluated => exact .inr ⟨⟨value, evaluated⟩, position_of_strict failed⟩
    · next stopped => exact .inl (stopped.trans (congrArg Except.error (Except.error.inj failed)))

/-- A truth value as a computed key is an error at the bracket; a null under a computed key is one
there only where a number is asked for. -/
theorem introduced_and_raised_of_computed_key :
    let e := field 3 (named 1 (.root 0) "a") (named 5 (.root 4) "k")
    let document : Node := .object [("a", .array [.integer 1]), ("k", .boolean true)]
    let other : Node := .object [("a", .object [("x", .null)]), ("k", .string "x")]
    let error : EvalError := .typeMismatch 3 .number (.boolean true) "the index of the array"
    ofText "$.a[$.k]" = .ok e ∧ (∀ part ∈ e.parts, part.position < 8) ∧
      e.eval document = .error error ∧ (∃ part ∈ e.parts, part.Raises document error) ∧
      e.evalAs .long "the limit" other = .error (.nullValue 3) ∧
      ∃ value, e.eval other = .ok value := by
  intro e document other error
  let s : TokenStream := ⟨[⟨.dollar, 0⟩, ⟨.dot, 1⟩, ⟨.identifier "a", 2⟩, ⟨.leftBracket, 3⟩,
    ⟨.dollar, 4⟩, ⟨.dot, 5⟩, ⟨.identifier "k", 6⟩, ⟨.rightBracket, 7⟩], 8⟩
  have cut : TokenStream.ofText "$.a[$.k]" = .ok s :=
    TokenStream.ofText_of_toOption (by decide +kernel)
  have read : ofText "$.a[$.k]" = .ok e := by
    have key : Derives 1 [⟨.dollar, 4⟩, ⟨.dot, 5⟩, ⟨.identifier "k", 6⟩]
        (named 5 (.root 4) "k") :=
      .operand (.operand (.step 5 (.primary (.root 4)) (.field 5 (.plain "k" 6))))
    have several : ¬ Grammar.Lone [⟨.dollar, 4⟩, ⟨.dot, 5⟩, ⟨.identifier "k", 6⟩] := by
      rintro ⟨_, same, _⟩
      cases same
    have object : Path (Derives 1) [⟨.dollar, 0⟩, ⟨.dot, 1⟩, ⟨.identifier "a", 2⟩]
        (named 1 (.root 0) "a") :=
      .step 1 (.primary (.root 0)) (.field 1 (.plain "a" 2))
    have derived : Derives 2 s.tokens e :=
      .operand (.operand (.step 3 object (.key 3 7 key several)))
    simp only [ofText, cut]
    exact (Parser.readWhole_ok_iff 8).2 (derived.mono (by decide))
  have failed : e.eval document = .error error := by rfl
  have converted : e.evalAs .long "the limit" other = .error (.nullValue 3) := by rfl
  obtain ⟨⟨_, -, introduced⟩, raised⟩ := introduced_and_raised_of_ofText read
  refine ⟨read, fun part member => (introduced part member).1, failed,
    (raised document error).1 failed, converted, ?_⟩
  rcases (raised other _).2.2 .long "the limit" converted with stopped | ⟨evaluated, -⟩
  · cases stopped
  · exact evaluated

end Expr

end PathQuery
