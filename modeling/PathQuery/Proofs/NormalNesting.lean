import PathQuery.Proofs.RoundTrip
import PathQuery.Proofs.Provenance
/-!
# The nesting of the normal form

The normal form puts parentheses where a text may do without them: around a computed key, and so
around a name that is no plain one, and around a number to which a step applies. So it may be nested
deeper than the text it was made from, but never more than twice as deep and one. The nesting limit
stops it only where it is itself nested deeper than the limit. Digits of a floating-point number
may say no number of a path, but that is a fault of another kind, which is found before.
-/
namespace PathQuery

open Grammar Token

namespace Lexer

/-! ## Faults in a text -/

variable {l after : Lexer} {e : LexError}

/-- A fault behind some tokens is the fault of the text. -/
theorem Yields.tokens_error {expected : List Token} (run : l.Yields expected after)
    (fault : after.tokens = .error e) : l.tokens = .error e := by
  induction expected generalizing l with
  | nil =>
    obtain rfl : after = l := run
    exact fault
  | cons token later ih =>
    obtain ⟨inside, p, mid, read, further⟩ := run
    exact tokens_of_fault_behind read inside (ih further)

end Lexer

namespace Token

/-- There is a fault in front of a lexer at the text, unless what follows goes on with it. -/
def Faults (text : List Char) (goesOn : Char → Bool) : Prop :=
  ∀ (l : Lexer) (rest : List Char), l.rest = text ++ rest → l.afterDot = false →
    Ends goesOn rest → ∃ e, l.tokens = .error e

variable {text later : List Char} {tokens : List Token} {goesOn fewer : Char → Bool} {c : Char}

/-- A text has the same fault when more characters are kept from following it. -/
theorem Faults.mono (faults : Faults text fewer) (more : ∀ c, goesOn c = false → fewer c = false) :
    Faults text goesOn :=
  fun l rest front noDot ends => faults l rest front noDot (ends.mono more)

/-- A text with a fault has it in front of another text. -/
theorem Faults.append (faults : Faults text fewer) (apart : ∀ rest, Ends fewer (later ++ rest)) :
    Faults (text ++ later) goesOn := by
  intro l rest front noDot _
  rw [List.append_assoc] at front
  exact faults l _ front noDot (apart rest)

/-- A text has its fault behind a text that spells tokens. -/
theorem Spells.append_faults (spells : Spells text tokens fewer) (faults : Faults later goesOn)
    (apart : ∀ rest, Ends fewer (later ++ rest)) : Faults (text ++ later) goesOn := by
  intro l rest front noDot ends
  rw [List.append_assoc] at front
  obtain ⟨mid, run, stands, noDot⟩ := spells l _ front noDot (apart rest)
  obtain ⟨e, fault⟩ := faults mid rest stands noDot ends
  exact ⟨e, run.tokens_error fault⟩

/-- A text has its fault behind a blank. -/
theorem Faults.blank (faults : Faults text goesOn) (blank : Text.isBlank c = true) :
    Faults (c :: text) goesOn := by
  intro l rest front noDot ends
  have behind : (l.advance 1).rest = text ++ rest := by simp [Lexer.advance, front]
  obtain ⟨e, fault⟩ := faults (l.advance 1) rest behind noDot ends
  exact ⟨e, (Lexer.tokens_eq_of_skipBlank_eq (Lexer.skipBlank_blank front blank)).trans fault⟩

/-- What is a fault to scan is a fault in front of a lexer. -/
theorem faults_of_scan (starts : Text.isBlank c = false)
    (scanned : ∀ rest, Ends goesOn rest →
      ∃ fault offset width, scan true (c :: text ++ rest) = .fault fault offset width) :
    Faults (c :: text) goesOn := by
  intro l rest front noDot ends
  obtain ⟨fault, offset, width, found⟩ := scanned rest ends
  have atStart : l.skipBlank = l := Lexer.skipBlank_of_ends (front ▸ ends_cons.2 starts)
  have read : l.next = (.error ⟨fault, l.position + offset⟩, l.advance width) := by
    simp only [Lexer.next, atStart, front, noDot, Bool.not_false, found]
  exact ⟨_, Lexer.tokens_of_fault read⟩

/-- The text of a number spells a constant, or it is a fault. -/
theorem spells_or_faults_numeralText {n : Numeral} (plain : Plain n) :
    (∃ token value, constant? token = some value ∧
      Spells (numeralText n) [token] (continuesNumber true)) ∨
    Faults (numeralText n) (continuesNumber true) := by
  cases found : scanOfNumeral n with
  | token token width =>
    obtain ⟨value, said⟩ : ∃ value, constant? token = some value := by
      unfold scanOfNumeral at found
      repeat' split at found
      all_goals cases found
      all_goals exact ⟨_, rfl⟩
    exact .inl ⟨token, value, said, spells_numeralText plain found⟩
  | fault fault offset width =>
    right
    have nonempty : numeralText n ≠ [] := by simp [numeralText, plain.nonempty]
    obtain ⟨c, text, same⟩ := List.exists_cons_of_ne_nil nonempty
    have positional := Decimal.isPositional_of_mem_numeralText plain (same ▸ List.mem_cons_self)
    rw [same]
    refine faults_of_scan (Decimal.not_isBlank_of_isPositional positional) fun rest ends =>
      ⟨fault, offset, width, ?_⟩
    rw [← same, scan_numeralText plain (fun _ => rfl) ends, found]

end Token

/-- The node is a constant that a text can hold. -/
def Node.IsConstant (value : Node) : Prop := ∃ token, constant? token = some value

namespace Expr

/-- Every constant in the expression is one that a text can hold. -/
def Written (e : Expr) : Prop := ∀ constant ∈ e.constants, constant.IsConstant

/-! ## Written expressions -/

section

variable {p : Nat} {object key left right : Expr} {value : Node}

/-- A written constant is written. -/
theorem written_literal (known : value.IsConstant) : (literal p value).Written :=
  fun _ member => List.mem_singleton.1 member ▸ known

/-- A key behind an object is written when both are. -/
theorem Written.field (ofObject : object.Written) (ofKey : key.Written) :
    (field p object key).Written :=
  fun constant member => (List.mem_append.1 member).elim (ofObject constant) (ofKey constant)

/-- A name behind a written object is written. -/
theorem Written.named (ofObject : object.Written) (name : String) :
    (named p object name).Written :=
  ofObject.field (written_literal ⟨.string name, rfl⟩)

/-- A combination is written when both operands are. -/
theorem Written.boolean {op : BoolOp} (ofLeft : left.Written) (ofRight : right.Written) :
    (boolean p op left right).Written :=
  fun constant member => (List.mem_append.1 member).elim (ofLeft constant) (ofRight constant)

end

/-! ## What the normal form of a written expression says -/

section

variable {p : Nat} {e object key left right : Expr} {value : Node}

/-- The text of a constant reads as a constant, or it is a fault. -/
theorem readsAs_or_faults_literal (known : value.IsConstant) :
    (∃ f, (literal p value).ReadsAs f) ∨
      Faults (literal p value).write (literal p value).goesOn := by
  have itself : value.Rereadable → ∃ f, (literal p value).ReadsAs f :=
    fun same => ⟨_, (readable_literal same).readsAs⟩
  have number : ∀ c, (literal p value).groupedAsObject = true →
      (literal p value).goesOn c = false → continuesNumber true c = false := by
    intro c loose ends
    refine continuesNumber_eq_false (continuesName_of_goesOn ends) fun _ => ?_
    simpa [goesOn, loose, continuesName_of_goesOn ends] using ends
  cases value with
  | null | boolean | integer | string => exact .inl (itself trivial)
  | float x =>
    cases finite : (Binary.ofFloat x).isFinite with
    | true =>
      -- digits without a fraction can say a whole number that is out of range
      obtain ⟨n, plain, same⟩ := Decimal.exists_numeralText_floatText finite
      have either := spells_or_faults_numeralText plain
      rw [same] at either
      rcases either with ⟨token, constant, said, spells⟩ | faults
      · refine .inl ⟨.literal 0 constant, fun levels _ => ?_⟩
        exact (Says.constant (spells.mono fun c => number c rfl) said).widen fun _ start =>
          .primary start
      · exact .inr (faults.mono fun c => number c rfl)
    | false =>
      have word : Spells ['n', 'u', 'l', 'l'] [.null] continuesName :=
        spells_word rfl (List.all_eq_true.1 rfl)
      rw [← Decimal.floatText_of_not_finite finite] at word
      refine .inl ⟨.literal 0 .null, fun levels _ => ?_⟩
      exact (Says.constant (word.mono fun _ => continuesName_of_goesOn) rfl).widen fun _ start =>
        .primary start
  | missing | array | object =>
    obtain ⟨token, found⟩ := known
    cases token <;> cases found

/-- In parentheses a text has its fault, too. -/
theorem faults_grouped {needed : Bool} (faults : Faults e.write e.goesOn) :
    Faults (grouped needed e.write) fun c => !needed && e.goesOn c := by
  cases needed with
  | false => exact faults
  | true =>
    have opened : Spells ['('] [.leftParen] nothing := spells_single rfl rfl
    have content : Faults (e.write ++ [')']) nothing :=
      faults.append fun _ => ends_cons.2 (goesOn_eq_false rfl rfl)
    exact (opened.append_faults content fun _ _ _ => rfl).mono fun _ _ => rfl

/-- A key that has a fault in its normal form has it behind an object, too. -/
theorem faults_keyText (long : key.shortKey? = none) (faults : Faults key.write key.goesOn) :
    Faults key.keyText nothing := by
  have opened : Spells ['['] [.leftBracket] nothing := spells_single rfl rfl
  have paren : Spells ['('] [.leftParen] nothing := spells_single rfl rfl
  have content : Faults (key.write ++ [')', ']']) nothing :=
    faults.append fun _ => ends_cons.2 (goesOn_eq_false rfl rfl)
  have group := paren.append_faults content fun _ _ _ => rfl
  have whole := opened.append_faults group fun _ _ _ => rfl
  rw [keyText, long]
  exact whole

/-- Behind an object with a fault comes nothing but its fault. -/
theorem faults_object {text : List Char} {goesOn : Char → Bool}
    (faults : Faults object.write object.goesOn)
    (apart : ∀ rest, Ends continuesName (text ++ rest)) :
    Faults (grouped object.groupedAsObject object.write ++ text) goesOn := by
  refine (faults_grouped faults).append fun rest => (apart rest).mono fun c ends => ?_
  cases loose : object.groupedAsObject <;> simp [Expr.goesOn, loose, ends]

/-- A left operand has its fault in the combination. -/
theorem faults_left {op : BoolOp} {goesOn : Char → Bool} (faults : Faults left.write left.goesOn) :
    Faults (boolean p op left right).write goesOn := by
  have blank : (!left.groupedOnLeft op && left.goesOn ' ') = false := by
    rw [goesOn_eq_false rfl rfl, Bool.and_false]
  rw [write, List.append_assoc]
  exact (faults_grouped faults).append fun _ => ends_cons.2 blank

/-- A right operand has its fault in the combination, if the left one has none. -/
theorem faults_right {op : BoolOp} {f : Expr} (reads : left.ReadsAs f)
    (faults : Faults right.write right.goesOn) :
    Faults (boolean p op left right).write (boolean p op left right).goesOn := by
  obtain ⟨tokens, spells, -⟩ : Says (fun _ _ => True) _ _ f :=
    reads.grouped (Nat.le_refl (groupedDepth (left.groupedOnLeft op) left.depth))
      (fun _ _ _ => trivial) fun _ _ _ _ => trivial
  have blank : (!left.groupedOnLeft op && left.goesOn ' ') = false := by
    rw [goesOn_eq_false rfl rfl, Bool.and_false]
  have sign : Spells (' ' :: op.sign.toList) [Parser.operator op] nothing :=
    (spells_operator op).blank rfl
  have operand : Faults (grouped (right.groupedOnRight op) right.write)
      (boolean p op left right).goesOn := (faults_grouped faults).mono fun c ends => by
    have noPoint : (c == '.') = false := by
      simpa [Expr.goesOn, groupedAsObject, continuesName_of_goesOn ends] using ends
    rw [goesOn_eq_false (continuesName_of_goesOn ends) noPoint, Bool.and_false]
  have behind := sign.append_faults (operand.blank (c := ' ') rfl) fun _ _ _ => rfl
  have whole := spells.append_faults behind fun _ => ends_cons.2 blank
  simpa [write] using whole

/-- The normal form of an expression whose constants are written reads as some expression, or it
has a fault. -/
theorem readsAs_or_faults (known : e.Written) :
    (∃ f, e.ReadsAs f) ∨ Faults e.write e.goesOn := by
  have closed : ∀ {rest : List Char} {c : Char}, continuesName c = false →
      Ends continuesName (c :: rest) := fun stops => ends_cons.2 stops
  induction e with
  | root p => exact .inl ⟨_, (readable (e := .root p) trivial).readsAs⟩
  | literal p value => exact readsAs_or_faults_literal (known value List.mem_cons_self)
  | field p object key ihObject ihKey =>
    have own := fun constant member => known constant (List.mem_append_left _ member)
    have inside := fun constant member => known constant (List.mem_append_right _ member)
    rcases ihObject own with ⟨f, objectReads⟩ | faults
    · obtain keyReads | faults : (∃ g, key.KeyReadsAs g) ∨ Faults key.keyText nothing := by
        cases short : key.shortKey? with
        | some text => exact .inl ⟨_, keyReadsAs_of_short short⟩
        | none =>
          rcases ihKey inside with ⟨g, reads⟩ | faults
          · exact .inl ⟨g, reads.longKey short⟩
          · exact .inr (faults_keyText short faults)
      · obtain ⟨g, keyReads⟩ := keyReads
        exact .inl ⟨_, objectReads.field keyReads⟩
      · obtain ⟨tokens, spells, -⟩ := objectReads.object (Nat.le_refl _)
        exact .inr ((spells.append_faults faults (ends_keyText key)).mono fun _ _ => rfl)
    · exact .inr (faults_object faults (ends_keyText key))
  | index p object n ih =>
    rcases ih known with ⟨f, reads⟩ | faults
    · exact .inl ⟨_, reads.index n⟩
    · exact .inr (faults_object faults fun _ => closed rfl)
  | wildcard p object ih =>
    rcases ih known with ⟨f, reads⟩ | faults
    · exact .inl ⟨_, reads.wildcard⟩
    · exact .inr (faults_object faults fun _ => closed rfl)
  | descent p object name ih =>
    rcases ih known with ⟨f, reads⟩ | faults
    · exact .inl ⟨_, reads.descent name⟩
    · exact .inr (faults_object faults fun _ => closed rfl)
  | boolean p op left right ihLeft ihRight =>
    have own := fun constant member => known constant (List.mem_append_left _ member)
    have inside := fun constant member => known constant (List.mem_append_right _ member)
    rcases ihLeft own with ⟨f, leftReads⟩ | faults
    · rcases ihRight inside with ⟨g, rightReads⟩ | faults
      · exact .inl ⟨_, leftReads.boolean rightReads⟩
      · exact .inr (faults_right leftReads faults)
    · exact .inr (faults_left faults)

end

/-- What has a fault in its normal form has no tokens there. -/
theorem tokens_error_of_faults {e : Expr} (faults : Faults e.write e.goesOn) :
    ∃ fault, TokenStream.ofText e.normal = .error fault := by
  have front : (Lexer.ofText e.normal).rest = e.write ++ [] := by simp [Lexer.ofText, normal]
  exact faults _ [] front rfl ends_nil

end Expr

namespace Grammar

/-! ## What derived expressions hold -/

variable {Nested : List Located → Expr → Prop} {P : Expr → Prop} {s : List Located} {e : Expr}

/-- A step to a computed key comes from tokens of that key. -/
theorem StepAt.exists_nested {p : Nat} {key : Expr} (found : StepAt Nested p s (.key key)) :
    ∃ t, Nested t key := by
  cases found with
  | key p r inner other => exact ⟨_, inner⟩

/-- What holds of the starts of paths and is kept by steps holds of paths. -/
theorem Path.forall_of_step (start : ∀ s e, Primary Nested s e → P e)
    (step : ∀ (p : Nat) (object : Expr) (step : Step), P object →
      (∀ key, step = .key key → ∃ t, Nested t key) → P (step.apply p object))
    (path : Path Nested s e) : P e := by
  induction path with
  | primary only => exact start _ _ only
  | step p _ last before =>
    refine step p _ _ before fun key same => ?_
    subst same
    exact last.exists_nested

/-- What holds of operands and is kept when one is combined holds of combinations. -/
theorem Combination.forall_of_combine {op : BoolOp} (operand : ∀ s e, Nested s e → P e)
    (combine : ∀ (p : Nat) (left right : Expr), P left → (∃ t, Nested t right) →
      P (.boolean p op left right))
    (combination : Combination op Nested s e) : P e := by
  induction combination with
  | operand only => exact operand _ _ only
  | combine p _ last before => exact combine p _ _ before ⟨_, last⟩

/-- A path is written when the expressions nested in it are. -/
theorem Path.written (nested : ∀ s e, Nested s e → e.Written) (path : Path Nested s e) :
    e.Written := by
  have document : ∀ p, (Expr.root p).Written := fun _ => nofun
  refine path.forall_of_step (P := Expr.Written) ?_ ?_
  · intro s e start
    cases start with
    | root p => exact document p
    | star p => exact document p
    | descent p found => exact document p
    | name name p => exact (document p).named name
    | literal p found => exact Expr.written_literal ⟨_, found⟩
    | group p q inner => exact nested _ _ inner
  · intro p object step before keys
    cases step with
    | key key =>
      obtain ⟨t, inner⟩ := keys key rfl
      exact before.field (nested t key inner)
    | field name => exact before.named name
    | index | wildcard | descent => exact before

/-- A combination is written when its operands are. -/
theorem Combination.written {op : BoolOp} (operand : ∀ s e, Nested s e → e.Written)
    (combination : Combination op Nested s e) : e.Written :=
  combination.forall_of_combine (P := Expr.Written) operand
    fun _ _ right first ⟨t, last⟩ => first.boolean (operand t right last)

/-- What tokens derive is written. -/
theorem Derives.written {levels : Nat} (derived : Derives levels s e) : e.Written := by
  induction levels generalizing s e with
  | zero => exact derived.elim
  | succ levels deeper =>
    have path : ∀ s e, Path (Derives levels) s e → e.Written :=
      fun _ _ path => path.written fun _ _ => deeper
    exact Combination.written (fun _ _ conjunction => conjunction.written path) derived

end Grammar

namespace Expr

/-! ## How deep the normal form is nested -/

/-- Fewer parentheses are nested less deep. -/
theorem groupedDepth_mono {few many : Bool} (fewer : few = true → many = true) (depth : Nat) :
    groupedDepth few depth ≤ groupedDepth many depth := by
  cases few with
  | false => cases many <;> simp [groupedDepth]
  | true =>
    obtain rfl := fewer rfl
    exact Nat.le_refl _

/-- Parentheses are one level deeper than what stands in them. -/
theorem groupedDepth_le (needed : Bool) (depth : Nat) : groupedDepth needed depth ≤ depth + 1 := by
  cases needed <;> simp [groupedDepth]

/-- What stands in parentheses is nested no deeper than these. -/
theorem le_groupedDepth (needed : Bool) (depth : Nat) : depth ≤ groupedDepth needed depth := by
  cases needed <;> simp [groupedDepth]

/-- The brackets of a key are at most two levels deeper than the key. -/
theorem keyDepth_le (depth : Nat) (key : Expr) : keyDepth depth key ≤ depth + 2 := by
  unfold keyDepth
  split
  · split <;> omega
  · omega
  · omega

/-- A key behind an object is nested no deeper than the object and the brackets of the key. -/
theorem depth_field_le (p : Nat) {bound : Nat} {object key : Expr}
    (ofObject : groupedDepth object.groupedAsObject object.depth ≤ bound)
    (ofKey : key.depth + 2 ≤ bound) : (field p object key).depth ≤ bound :=
  Nat.max_le.2 ⟨ofObject, Nat.le_trans (keyDepth_le _ _) ofKey⟩

/-- A name behind an object is nested no deeper than the object, or two levels deep. -/
theorem depth_named_le (p : Nat) (name : String) {bound : Nat} {object : Expr}
    (ofObject : groupedDepth object.groupedAsObject object.depth ≤ bound) (two : 2 ≤ bound) :
    (named p object name).depth ≤ bound :=
  depth_field_le p ofObject two

/-- Only a combination stands in parentheses as an operand, and it does as an object, too. -/
theorem groupedAsObject_of_groupedOnRight {op : BoolOp} {e : Expr}
    (needed : e.groupedOnRight op = true) : e.groupedAsObject = true := by
  cases e with
  | boolean => rfl
  | _ => cases needed

section

variable {Nested : List Located → Expr → Prop} {s : List Located} {e : Expr} {bound : Nat}

/-- If the expressions nested in a path leave two levels, the path leaves one where it has to stand
in parentheses as an object. -/
theorem depth_le_of_path (nested : ∀ s e, Nested s e → e.depth + 2 ≤ bound) (two : 2 ≤ bound)
    (path : Path Nested s e) : groupedDepth e.groupedAsObject e.depth ≤ bound := by
  refine path.forall_of_step
    (P := fun e => groupedDepth e.groupedAsObject e.depth ≤ bound) ?_ ?_
  · intro s e start
    cases start with
    | root | star | descent => exact Nat.zero_le _
    | name name p =>
      have document : groupedDepth (root p).groupedAsObject (root p).depth ≤ bound := Nat.zero_le _
      exact depth_named_le p name document two
    | literal p found => exact Nat.le_trans (groupedDepth_le _ 0) (by omega)
    | group p q inner =>
      have shallow := nested _ _ inner
      exact Nat.le_trans (groupedDepth_le _ _) (by omega)
  · intro p object step before keys
    cases step with
    | key key =>
      obtain ⟨t, inner⟩ := keys key rfl
      exact depth_field_le p before (nested t key inner)
    | field name => exact depth_named_le p name before two
    | index | wildcard | descent => exact before

/-- An operand that leaves a level for parentheses as an object leaves one as a right operand. -/
theorem depth_le_on_right {op : BoolOp}
    (asObject : groupedDepth e.groupedAsObject e.depth ≤ bound) :
    groupedDepth (e.groupedOnRight op) e.depth ≤ bound :=
  Nat.le_trans (groupedDepth_mono groupedAsObject_of_groupedOnRight _) asObject

/-- A conjunction of paths leaves a level only where it is a path that has to stand in
parentheses. -/
theorem depth_le_of_conjunction
    (operand : ∀ s e, Nested s e → groupedDepth e.groupedAsObject e.depth ≤ bound)
    (conjunction : Combination .and Nested s e) :
    groupedDepth (e.groupedOnRight .or) e.depth ≤ bound := by
  refine conjunction.forall_of_combine
    (P := fun e => groupedDepth (e.groupedOnRight .or) e.depth ≤ bound)
    (fun s e found => depth_le_on_right (operand s e found)) ?_
  rintro p left right first ⟨t, last⟩
  refine Nat.max_le.2 ⟨?_, depth_le_on_right (operand t right last)⟩
  cases left <;> exact first

/-- A disjunction of conjunctions stays within the levels of its operands. -/
theorem depth_le_of_disjunction
    (operand : ∀ s e, Nested s e → groupedDepth (e.groupedOnRight .or) e.depth ≤ bound)
    (disjunction : Combination .or Nested s e) : e.depth ≤ bound := by
  refine disjunction.forall_of_combine (P := fun e => e.depth ≤ bound)
    (fun s e found => Nat.le_trans (le_groupedDepth _ _) (operand s e found)) ?_
  rintro p left right first ⟨t, last⟩
  refine Nat.max_le.2 ⟨?_, operand t right last⟩
  cases left <;> exact first

end

/-- The normal form of what tokens derive is nested at most twice as deep as the tokens. -/
theorem depth_le_of_derives {levels : Nat} {s : List Located} {e : Expr}
    (derived : Derives levels s e) : e.depth ≤ 2 * levels := by
  induction levels generalizing s e with
  | zero => exact derived.elim
  | succ levels deeper =>
    -- one level of the tokens pays for two of the normal form, the most that a computed key takes
    have nested : ∀ s e, Derives levels s e → e.depth + 2 ≤ 2 * (levels + 1) :=
      fun _ _ inner => Nat.add_le_add_right (deeper inner) 2
    have path : ∀ s e, Path (Derives levels) s e →
        groupedDepth e.groupedAsObject e.depth ≤ 2 * (levels + 1) :=
      fun _ _ path => depth_le_of_path nested (by omega) path
    exact depth_le_of_disjunction (fun _ _ found => depth_le_of_conjunction path found) derived

/-! ## Reading the normal form of a text -/

/-- What a text is read as is derived from its tokens. -/
theorem exists_derives_of_ofText {text : String} {e : Expr} (read : ofText text = .ok e) :
    ∃ s, TokenStream.ofText text = .ok s ∧ Derives nestingLimit s.tokens e := by
  cases scanned : TokenStream.ofText text with
  | error fault =>
    simp only [ofText, scanned] at read
    cases read
  | ok s =>
    simp only [ofText, scanned] at read
    exact ⟨s, rfl, (Parser.readWhole_ok_iff s.finish).1 read⟩

/-- The nesting limit stops the normal form of a text only where its tokens derive an expression
deeper than the limit. -/
theorem nestingLimit_lt_of_tooDeep {text : String} {e : Expr} {p : Nat}
    (read : ofText text = .ok e) (stopped : ofText e.normal = .error (.tooDeep p)) :
    nestingLimit < e.nesting ∧
      ∃ s f, TokenStream.ofText e.normal = .ok s ∧ Derives e.nesting s.tokens f := by
  obtain ⟨s, -, derived⟩ := exists_derives_of_ofText read
  rcases readsAs_or_faults derived.written with ⟨f, reads⟩ | faults
  · obtain ⟨s, g, tokens, derived, -⟩ := reads.tokens
    simp only [ofText, tokens] at stopped
    rcases Parser.readWhole_of_derives s.finish nestingLimit derived with read | ⟨deep, -⟩
    · cases read.symm.trans stopped
    · exact ⟨deep, s, g, tokens, derived⟩
  · obtain ⟨fault, tokens⟩ := tokens_error_of_faults faults
    simp only [ofText, tokens] at stopped
    cases stopped

/-- The nesting limit stops the normal form of what was read from a text only where the normal form
is itself nested deeper than the limit. It is nested at most twice as deep as the text and one, so
that of a text nested at most 127 deep it is never stopped. -/
theorem ofText_normal_tooDeep {text : String} {e : Expr} (read : ofText text = .ok e) :
    (∀ p, ofText e.normal = .error (.tooDeep p) → nestingLimit < e.nesting ∧
      ∃ s f, TokenStream.ofText e.normal = .ok s ∧ Derives e.nesting s.tokens f) ∧
    ∀ levels s, TokenStream.ofText text = .ok s → Derives levels s.tokens e →
      e.nesting ≤ 2 * levels + 1 ∧
      (levels ≤ 127 → ∀ p, ofText e.normal ≠ .error (.tooDeep p)) := by
  refine ⟨fun p => nestingLimit_lt_of_tooDeep read, fun levels s _ derived => ?_⟩
  have shallow : e.nesting ≤ 2 * levels + 1 := Nat.succ_le_succ (depth_le_of_derives derived)
  refine ⟨shallow, fun few p stopped => ?_⟩
  obtain ⟨deep, -⟩ := nestingLimit_lt_of_tooDeep read stopped
  have limit : nestingLimit = 256 := rfl
  omega

/-- A keyword as a name in a computed key is nested two levels deep, and five in the normal form. -/
theorem ofText_normal_tooDeep_keyword :
    ∃ e, ofText "$[$.\"or\"]" = .ok e ∧ e.normal = "$[($[(\"or\")])]" ∧ e.nesting = 2 * 2 + 1 ∧
      ∀ p, ofText e.normal ≠ .error (.tooDeep p) := by
  let e : Expr := .field 1 (.root 0) (.named 3 (.root 2) "or")
  let s : TokenStream := ⟨[⟨.dollar, 0⟩, ⟨.leftBracket, 1⟩, ⟨.dollar, 2⟩, ⟨.dot, 3⟩,
    ⟨.string "or", 4⟩, ⟨.rightBracket, 8⟩], 9⟩
  have tokens : TokenStream.ofText "$[$.\"or\"]" = .ok s := by
    have scanned : (TokenStream.ofText "$[$.\"or\"]").toOption = some s := by decide +kernel
    cases found : TokenStream.ofText "$[$.\"or\"]" with
    | error fault => cases found ▸ scanned
    | ok t =>
      rw [found] at scanned
      exact congrArg Except.ok (Option.some.inj scanned)
  have derived : Derives 2 s.tokens e := by
    have key : Derives 1 [⟨.dollar, 2⟩, ⟨.dot, 3⟩, ⟨.string "or", 4⟩] (.named 3 (.root 2) "or") :=
      .operand (.operand (.step 3 (.primary (.root 2)) (.field 3 (.quoted "or" 4))))
    have several : ¬Lone [⟨.dollar, 2⟩, ⟨.dot, 3⟩, ⟨.string "or", 4⟩] := by
      rintro ⟨_, same, _⟩
      cases same
    exact .operand (.operand (.step 1 (.primary (.root 0)) (.key 1 8 key several)))
  have read : ofText "$[$.\"or\"]" = .ok e := by
    simp only [ofText, tokens]
    exact (Parser.readWhole_ok_iff 9).2 (derived.mono (by decide))
  obtain ⟨-, bounded⟩ := ofText_normal_tooDeep read
  refine ⟨e, read, by decide +kernel, by decide +kernel, ?_⟩
  exact (bounded 2 s tokens derived).2 (by decide)

/-- The expression of a text that is given by its characters. -/
def ofChars (cs : List Char) : Except ParseError Expr :=
  match (Lexer.mk cs 0 false).tokens with
  | .ok s => s.parse.1
  | .error e => .error (.lexical e)

/-- A text is read from its characters. -/
theorem ofText_ofList (cs : List Char) : ofText (String.ofList cs) = ofChars cs := by
  rw [ofText, TokenStream.ofText, Lexer.ofText, String.toList_ofList]
  rfl

/-- A keyword as a name in 127 computed keys within each other. -/
def nestedKeys : List Char :=
  (List.replicate 127 ['$', '[']).flatten ++ ['$', '.', '"', 'o', 'r', '"']
    ++ List.replicate 127 ']'

/-- Of a text nested 128 deep the normal form can be nested too deep to be read. -/
theorem ofText_normal_nestedKeys :
    ∃ e, ofText (String.ofList nestedKeys) = .ok e ∧ ofText e.normal = .error (.tooDeep 384) := by
  have stopped : (match ofChars nestedKeys with
      | .ok e => match ofChars e.write with
        | .error (.tooDeep p) => p == 384
        | _ => false
      | .error _ => false) = true := by decide +kernel
  rw [ofText_ofList]
  split at stopped
  · next e read =>
    refine ⟨e, read, ?_⟩
    rw [normal, ofText_ofList]
    split at stopped
    · next again => rw [again, beq_iff_eq.1 stopped]
    · cases stopped
  · cases stopped

end Expr

end PathQuery
