import PathQuery.Proofs.Nesting
import PathQuery.Proofs.Phrases
/-!
# Reading the normal form

The normal form of an expression is read as that expression, up to its places. What has to be known
of a constant is only that its own text is read as it; this is so of every constant but missing
nodes, containers, and those floating-point numbers whose digits say another number. What can stop
reading is the limit of nesting alone, and only where the normal form is nested deeper.
-/
namespace PathQuery

open Grammar Token

/-- The text of the constant is read as it. -/
def Node.Rereadable : Node → Prop
  | .null | .boolean _ | .integer _ | .string _ => True
  | .float x => ReadsBack x
  | .missing | .array _ | .object _ => False

namespace Expr

/-- The text of every constant in the expression is read as it. -/
def Rereadable : Expr → Prop
  | .root _ => True
  | .literal _ value => value.Rereadable
  | .field _ object key => object.Rereadable ∧ key.Rereadable
  | .index _ object _ | .wildcard _ object | .descent _ object _ => object.Rereadable
  | .boolean _ _ left right => left.Rereadable ∧ right.Rereadable

/-! ## The depth of the normal form -/

/-- How deep expressions are nested in a text that may stand in parentheses. -/
def groupedDepth (needed : Bool) (depth : Nat) : Nat := if needed then depth + 1 else depth

/-- How deep expressions are nested in the brackets of a key, whose own depth is given. -/
def keyDepth (depth : Nat) : Expr → Nat
  | .literal _ (.string name) => if isPlainName name then 0 else depth + 2
  | .literal _ (.integer _) => 1
  | _ => depth + 2

/-- How deep expressions are nested in the normal form, the whole one not included. -/
def depth : Expr → Nat
  | .root _ | .literal _ _ => 0
  | .field _ object key =>
    max (groupedDepth object.groupedAsObject object.depth) (keyDepth key.depth key)
  | .index _ object _ | .wildcard _ object | .descent _ object _ =>
    groupedDepth object.groupedAsObject object.depth
  | .boolean _ op left right =>
    max (groupedDepth (left.groupedOnLeft op) left.depth)
      (groupedDepth (right.groupedOnRight op) right.depth)

/-- How deep expressions are nested in the normal form, the whole one included. -/
def nesting (e : Expr) : Nat := e.depth + 1

/-! ## What the normal form says -/

/-- The phrase of an operand of a combinator that has no parentheses. -/
def Operand (levels : Nat) : BoolOp → List Located → Expr → Prop
  | .and => Path (Derives levels)
  | .or => Combination .and (Path (Derives levels))

/-- The phrase of the normal form of an expression: operands of its combinator, or a path. -/
def Phrase (levels : Nat) : Expr → List Located → Expr → Prop
  | .boolean _ op _ _ => Combination op (Operand levels op)
  | _ => Path (Derives levels)

section

variable {levels : Nat} {op : BoolOp} {e f : Expr} {s : List Located}

/-- A path is an operand of every combinator. -/
theorem Operand.of_path (path : Path (Derives levels) s f) : Operand levels op s f := by
  cases op with
  | and => exact path
  | or => exact .operand path

/-- Operands are guarded. -/
theorem Operand.guarded (operand : Operand levels op s f) : Guarded s := by
  cases op with
  | and => exact Path.guarded operand
  | or => exact Combination.guarded (fun _ _ => Path.guarded) operand

/-- The normal form of an expression is an expression. -/
theorem Phrase.derives (phrase : e.Phrase levels s f) : Derives (levels + 1) s f := by
  cases e with
  | boolean _ op _ _ =>
    cases op with
    | and => exact .operand phrase
    | or => exact phrase
  | _ => exact .operand (.operand phrase)

/-- An object that needs no parentheses is a path. -/
theorem Phrase.object (phrase : e.Phrase levels s f) (loose : e.groupedAsObject = false) :
    Path (Derives levels) s f := by
  cases e with
  | boolean => cases loose
  | _ => exact phrase

/-- A left operand that needs no parentheses goes on with the operands of its combinator. -/
theorem Phrase.left (phrase : e.Phrase levels s f) (loose : e.groupedOnLeft op = false) :
    Combination op (Operand levels op) s f := by
  cases e with
  | boolean _ inner _ _ =>
    cases op with
    | and =>
      cases inner with
      | and => exact phrase
      | or => cases loose
    | or =>
      cases inner with
      | and => exact .operand phrase
      | or => exact phrase
  | _ => exact .operand (Operand.of_path phrase)

/-- A right operand that needs no parentheses is an operand. -/
theorem Phrase.right (phrase : e.Phrase levels s f) (loose : e.groupedOnRight op = false) :
    Operand levels op s f := by
  cases e with
  | boolean _ inner _ _ =>
    cases op with
    | and => cases loose
    | or =>
      cases inner with
      | and => exact phrase
      | or => cases loose
  | _ => exact Operand.of_path phrase

end

/-- Whether a character goes on with the normal form: it continues a name, or is a point behind a
number. -/
def goesOn (e : Expr) (c : Char) : Bool := continuesName c || (e.groupedAsObject && c == '.')

/-- What does not go on with a normal form does not continue a name. -/
theorem continuesName_of_goesOn {e : Expr} {c : Char} (ends : e.goesOn c = false) :
    continuesName c = false :=
  (Bool.or_eq_false_iff.1 ends).1

/-- What neither continues a name nor is a point goes on with no normal form. -/
theorem goesOn_eq_false {e : Expr} {c : Char} (noName : continuesName c = false)
    (noPoint : (c == '.') = false) : e.goesOn c = false := by
  rw [goesOn, noName, noPoint, Bool.and_false, Bool.or_false]

/-- The normal form of an expression says another expression, at every level of nesting that holds
the normal form. -/
def ReadsAs (e f : Expr) : Prop :=
  ∀ levels, e.depth ≤ levels → Says (e.Phrase levels) e.write e.goesOn f

/-- The normal form of an expression says it, at every level of nesting that holds it. -/
def Readable (e : Expr) : Prop :=
  ∀ levels, e.depth ≤ levels → Says (e.Phrase levels) e.write e.goesOn e.unplaced

section

variable {levels : Nat} {e f : Expr}

/-- A readable expression reads as itself. -/
theorem Readable.readsAs (readable : e.Readable) : e.ReadsAs e.unplaced := readable

/-- The normal form, in parentheses where it has to be, says any phrase that paths are and that it
is itself without them. -/
theorem ReadsAs.grouped {needed : Bool} {Target : List Located → Expr → Prop}
    (readable : e.ReadsAs f) (deep : groupedDepth needed e.depth ≤ levels)
    (paths : ∀ s f, Path (Derives levels) s f → Target s f)
    (loose : needed = false → ∀ s f, e.Phrase levels s f → Target s f) :
    Says Target (grouped needed e.write) (fun c => !needed && e.goesOn c) f := by
  cases needed with
  | false =>
    exact (readable levels deep).widen fun s => loose rfl s _
  | true =>
    obtain ⟨fewer, rfl⟩ : ∃ fewer, levels = fewer + 1 := ⟨levels - 1, by
      simp only [groupedDepth, if_true] at deep
      omega⟩
    have inner := (readable fewer (Nat.le_of_succ_le_succ deep)).widen fun s => Phrase.derives
    have group := (inner.group (goesOn_eq_false rfl rfl)).widen fun s start =>
      paths s _ (.primary start.1)
    exact group.mono fun _ _ => rfl

/-- The normal form of an object says a path. -/
theorem ReadsAs.object (readable : e.ReadsAs f)
    (deep : groupedDepth e.groupedAsObject e.depth ≤ levels) :
    Says (Path (Derives levels)) (Expr.grouped e.groupedAsObject e.write) continuesName f := by
  refine (readable.grouped deep (fun _ _ path => path) fun loose _ _ phrase =>
    phrase.object loose).mono fun c ends => ?_
  cases loose : e.groupedAsObject <;> simp [goesOn, loose, ends]

end

/-! ## Constants and keys -/

/-- The text of a constant spells a token of it. -/
theorem spells_constant {p : Nat} {value : Node} (known : value.Rereadable) :
    ∃ token, constant? token = some value ∧
      Spells (value.write .compact 0) [token] (literal p value).goesOn := by
  have word : ∀ c, (literal p value).goesOn c = false → continuesName c = false :=
    fun _ => continuesName_of_goesOn
  cases value with
  | null =>
    have spells : Spells ['n', 'u', 'l', 'l'] [.null] continuesName :=
      spells_word rfl (List.all_eq_true.1 rfl)
    exact ⟨.null, rfl, spells.mono word⟩
  | boolean b =>
    cases b with
    | true =>
      have spells : Spells ['t', 'r', 'u', 'e'] [.boolean true] continuesName :=
        spells_word rfl (List.all_eq_true.1 rfl)
      exact ⟨.boolean true, rfl, spells.mono word⟩
    | false =>
      have spells : Spells ['f', 'a', 'l', 's', 'e'] [.boolean false] continuesName :=
        spells_word rfl (List.all_eq_true.1 rfl)
      exact ⟨.boolean false, rfl, spells.mono word⟩
  | integer n =>
    refine ⟨.integer n, rfl, (spells_integer n).mono fun c ends => ?_⟩
    refine continuesNumber_eq_false (word c ends) fun _ => ?_
    simpa [goesOn, groupedAsObject, word c ends] using ends
  | float x =>
    refine ⟨.float x, rfl, (spells_float known).mono fun c ends => ?_⟩
    refine continuesNumber_eq_false (word c ends) fun _ => ?_
    simpa [goesOn, groupedAsObject, word c ends] using ends
  | string text =>
    have spells := spells_quoted text.toList
    rw [String.ofList_toList] at spells
    exact ⟨.string text, rfl, spells.mono fun _ _ => rfl⟩
  | missing | array | object => exact known.elim

/-- The normal form of a constant says it. -/
theorem readable_literal {p : Nat} {value : Node} (known : value.Rereadable) :
    (literal p value).Readable := by
  intro levels _
  obtain ⟨token, found, spells⟩ := spells_constant (p := p) known
  exact (Says.constant spells found).widen fun _ start => .primary start

/-- A key that has no short form is nested in brackets and parentheses. -/
theorem keyDepth_of_long {key : Expr} (long : key.shortKey? = none) (depth : Nat) :
    keyDepth depth key = depth + 2 := by
  unfold shortKey? at long
  split at long
  · split at long
    · cases long
    · next other => exact if_neg other
  · cases long
  · next noString noInteger =>
    unfold keyDepth
    split
    · next p name => exact absurd rfl (noString p name)
    · next p n => exact absurd rfl (noInteger p n)
    · rfl

/-- The text of a key behind its object. -/
def keyText (key : Expr) : List Char :=
  key.shortKey?.getD ('[' :: '(' :: (key.write ++ [')', ']']))

/-- The text of a key says a step that looks up another key, at every level of nesting that holds
the text. -/
def KeyReadsAs (key g : Expr) : Prop :=
  ∀ levels, keyDepth key.depth key ≤ levels →
    ∃ step, (∀ object, Step.apply 0 object step = .field 0 object g) ∧
      Says (StepAt (Derives levels) 0) key.keyText continuesName step

/-- A key without a short form reads as its normal form does. -/
theorem ReadsAs.longKey {key g : Expr} (long : key.shortKey? = none) (reads : key.ReadsAs g) :
    key.KeyReadsAs g := by
  intro levels deep
  rw [keyDepth_of_long long] at deep
  obtain ⟨outer, rfl⟩ : ∃ outer, levels = outer + 2 := ⟨levels - 2, by omega⟩
  have inner := (reads outer (by omega)).widen fun s => Phrase.derives
  have group : Says (fun s k => Derives (outer + 2) s k ∧ ¬ Lone s) _ nothing g :=
    (inner.group (goesOn_eq_false rfl rfl)).widen fun s start =>
      ⟨.operand (.operand (.primary start.1)), start.2⟩
  have bracketed : Says (StepAt (Derives (outer + 2)) 0) _ continuesName (.key g) :=
    (group.key rfl).mono fun _ _ => rfl
  exact ⟨.key g, fun _ => rfl, by simpa [keyText, long] using bracketed⟩

/-- A key with a short form reads as itself. -/
theorem keyReadsAs_of_short {key : Expr} {text : List Char} (short : key.shortKey? = some text) :
    key.KeyReadsAs key.unplaced := by
  intro levels deep
  rw [keyText, short, Option.getD_some]
  unfold shortKey? at short
  split at short
  · next p name =>
    split at short
    · next plain =>
      obtain rfl := Option.some.inj short
      exact ⟨.field name, fun _ => rfl, says_field plain⟩
    · cases short
  · next p n =>
    obtain rfl := Option.some.inj short
    obtain ⟨outer, rfl⟩ : ∃ outer, levels = outer + 1 := ⟨levels - 1, by
      simp only [keyDepth] at deep
      omega⟩
    have number : Says (fun s k => Derives (outer + 1) s k ∧ ¬ Lone s)
        (Decimal.integerText n.toInt) (continuesNumber true) (.literal 0 (.integer n)) :=
      ⟨[.integer n], spells_integer n, .operand (.operand (.primary (.literal 0 rfl))), by
        rintro ⟨first, same, alone⟩
        obtain ⟨rfl, -⟩ := List.cons.inj same
        cases alone⟩
    exact ⟨.key (.literal 0 (.integer n)), fun _ => rfl, (number.key rfl).mono fun _ _ => rfl⟩
  · cases short

/-- A readable key reads as itself. -/
theorem Readable.key {key : Expr} (readable : key.Readable) : key.KeyReadsAs key.unplaced := by
  cases short : key.shortKey? with
  | none => exact readable.readsAs.longKey short
  | some text => exact keyReadsAs_of_short short

/-- The text of a key starts with a point or a bracket, so it never goes on with a name. -/
theorem ends_keyText (key : Expr) (rest : List Char) :
    Ends continuesName (key.keyText ++ rest) := by
  unfold keyText
  fun_cases shortKey? key with
  | case1 | case2 | case3 | case4 => exact ends_cons.2 rfl

/-! ## Whole expressions -/

section

variable {p : Nat} {object key left right f g : Expr}

/-- A key behind an object reads as the two read. -/
theorem ReadsAs.field (objectReads : object.ReadsAs f) (keyReads : key.KeyReadsAs g) :
    (field p object key).ReadsAs (.field 0 f g) := by
  intro levels deep
  obtain ⟨deepObject, deepKey⟩ := Nat.max_le.1 deep
  have path := objectReads.object deepObject
  obtain ⟨step, applied, last⟩ := keyReads levels deepKey
  -- a plain name is a key without brackets, so which step it is depends on the key
  have whole := path.step last (ends_keyText key)
  rw [applied] at whole
  exact whole.mono fun _ => continuesName_of_goesOn

/-- An index behind an object reads as it behind what the object reads as. -/
theorem ReadsAs.index (objectReads : object.ReadsAs f) (n : Int64) :
    (index p object n).ReadsAs (.index 0 f n) := by
  intro levels deep
  have path := objectReads.object deep
  exact (path.step (says_index n) fun _ => ends_cons.2 rfl).mono fun _ => continuesName_of_goesOn

/-- A wildcard behind an object reads as it behind what the object reads as. -/
theorem ReadsAs.wildcard (objectReads : object.ReadsAs f) :
    (wildcard p object).ReadsAs (.wildcard 0 f) := by
  intro levels deep
  have path := objectReads.object deep
  exact (path.step says_wildcard fun _ => ends_cons.2 rfl).mono fun _ _ => rfl

/-- A descent behind an object reads as it behind what the object reads as. -/
theorem ReadsAs.descent (objectReads : object.ReadsAs f) (name : Option String) :
    (descent p object name).ReadsAs (.descent 0 f name) := by
  intro levels deep
  have path := objectReads.object deep
  exact (path.step (says_descent name) fun _ => ends_cons.2 rfl).mono fun _ =>
    continuesName_of_goesOn

/-- A combination reads as the combination of what its operands read as. -/
theorem ReadsAs.boolean {op : BoolOp} (leftReads : left.ReadsAs f) (rightReads : right.ReadsAs g) :
    (boolean p op left right).ReadsAs (.boolean 0 op f g) := by
  intro levels deep
  obtain ⟨deepLeft, deepRight⟩ := Nat.max_le.1 deep
  have first : Says (Combination op (Operand levels op)) _ _ f :=
    leftReads.grouped deepLeft (fun _ _ path => .operand (Operand.of_path path))
      fun loose _ _ phrase => phrase.left loose
  have second : Says (Operand levels op) _ _ g :=
    rightReads.grouped deepRight (fun _ _ path => Operand.of_path path)
      fun loose _ _ phrase => phrase.right loose
  have blank : (!left.groupedOnLeft op && left.goesOn ' ') = false := by
    rw [goesOn_eq_false rfl rfl, Bool.and_false]
  refine (first.combine second blank fun _ _ => Operand.guarded).mono fun c ends => ?_
  have noPoint : (c == '.') = false := by
    simpa [goesOn, groupedAsObject, continuesName_of_goesOn ends] using ends
  simp only [goesOn_eq_false (continuesName_of_goesOn ends) noPoint, Bool.and_false]

end

/-- The normal form of an expression says it, if every constant in it is read as itself. -/
theorem readable {e : Expr} (known : e.Rereadable) : e.Readable := by
  induction e with
  | root p =>
    intro levels _
    exact (says_root.widen fun _ start => .primary start).mono fun _ _ => rfl
  | literal p value => exact readable_literal known
  | field p object key ihObject ihKey =>
    exact (ihObject known.1).readsAs.field (ihKey known.2).key
  | index p object n ih => exact (ih known).readsAs.index n
  | wildcard p object ih => exact (ih known).readsAs.wildcard
  | descent p object name ih => exact (ih known).readsAs.descent name
  | boolean p op left right ihLeft ihRight =>
    exact (ihLeft known.1).readsAs.boolean (ihRight known.2).readsAs

/-- The tokens of a normal form derive what it reads as, up to places. -/
theorem ReadsAs.tokens {e g : Expr} (reads : e.ReadsAs g) :
    ∃ s f, TokenStream.ofText e.normal = .ok s ∧ Derives e.nesting s.tokens f ∧
      f.unplaced = g.unplaced := by
  obtain ⟨tokens, spells, phrase⟩ := reads e.depth (Nat.le_refl _)
  have front : (Lexer.ofText e.normal).rest = e.write ++ [] := by simp [Lexer.ofText, normal]
  obtain ⟨after, run, stands, -⟩ := spells _ [] front rfl ends_nil
  obtain ⟨last, ended⟩ := Lexer.next_of_nil stands
  obtain ⟨s, read, same⟩ := Lexer.tokens_of_yields run ended
  rw [← map_token_atStart tokens] at same
  obtain ⟨f, derived, equal⟩ := Derives.placeFree _ phrase.derives same
  exact ⟨s, f, read, derived, equal⟩

/-- The tokens of the normal form derive the expression, up to its places. -/
theorem tokens_normal {e : Expr} (known : e.Rereadable) :
    ∃ s f, TokenStream.ofText e.normal = .ok s ∧ Derives e.nesting s.tokens f ∧
      f.unplaced = e.unplaced := by
  obtain ⟨s, f, read, derived, equal⟩ := (readable known).readsAs.tokens
  exact ⟨s, f, read, derived, equal.trans e.unplaced_unplaced⟩

/-- The normal form of an expression is read as that expression up to its places, with the same
vector type and the same normal form, unless it is nested deeper than the limit. -/
theorem ofText_normal (e : Expr) (known : e.Rereadable) :
    (∃ f, ofText e.normal = .ok f ∧ f.unplaced = e.unplaced ∧ f.isVector = e.isVector ∧
      f.normal = e.normal) ∨
    nestingLimit < e.nesting ∧ ∃ p, ofText e.normal = .error (.tooDeep p) := by
  obtain ⟨s, f, tokens, derived, equal⟩ := tokens_normal known
  have parsed : ofText e.normal = s.parse.1 := by simp only [ofText, tokens]
  rw [parsed]
  rcases Parser.readWhole_of_derives s.finish nestingLimit derived with read | ⟨deep, stopped⟩
  · exact .inl ⟨f, read, equal, isVector_of_unplaced_eq equal, normal_of_unplaced_eq equal⟩
  · exact .inr ⟨deep, stopped⟩

/-- A combination with a number before a descent, a keyword as a name and a negative index. -/
theorem ofText_normal_fraction :
    ReadsBack 2.5 ∧ ∃ f, ofText "(2.5).. && ($[(\"or\")] || $.-3)" = .ok f ∧ f.unplaced =
      .boolean 0 .and (.descent 0 (.literal 0 (.float 2.5)) none)
        (.boolean 0 .or (.named 0 (.root 0) "or") (.index 0 (.root 0) (-3))) := by
  have back : ReadsBack 2.5 := by decide +kernel
  let e : Expr := .boolean 7 .and (.descent 5 (.literal 1 (.float 2.5)) none)
    (.boolean 20 .or (.named 12 (.root 11) "or") (.index 24 (.root 23) (-3)))
  have known : e.Rereadable := ⟨back, ⟨trivial, trivial⟩, trivial⟩
  have text : e.normal = "(2.5).. && ($[(\"or\")] || $.-3)" := by decide +kernel
  rcases ofText_normal e known with ⟨f, read, equal, -⟩ | ⟨deep, -⟩
  · exact ⟨back, f, text ▸ read, equal⟩
  · exact absurd deep (by decide)

end Expr

end PathQuery
