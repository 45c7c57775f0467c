import PathQuery.Proofs.Exchange
import PathQuery.Proofs.JsonReader
/-!
# Reading rendered documents

A document that was written in either layout obeys the standard grammar, so every library of the
standard kind reads it, and the value that it reads is turned into what JSON can say of the
document. What has to be known is that the document is not nested too deep for such a library, and
that the digits of each floating-point number say that number to it.
-/
namespace PathQuery

open Token (Strict numeralText numeralOfInt)

/-! ## Numbers -/

namespace JsonText

/-- A number without a zero before other whole digits obeys the grammar. -/
theorem number_numeralText {n : Numeral} (strict : Strict n) : Number (numeralText n) n := by
  obtain ⟨negative, whole, fraction, exponent⟩ := n
  obtain ⟨⟨nonempty, wholeDigits, fractionDigits, noExponent⟩, leading⟩ := strict
  obtain rfl : exponent = none := noExponent
  have fractional : Fraction (if fraction = [] then [] else '.' :: fraction) fraction := by
    split
    · next none =>
      subst none
      exact .none
    · next some => exact .some ⟨some, fractionDigits⟩
  have number : Number ((if negative then ['-'] else []) ++ (whole ++ (_ ++ []))) _ :=
    .parts ⟨nonempty, wholeDigits⟩ leading fractional .none
  rw [List.append_nil, ← List.append_assoc] at number
  exact number

/-- A character is written as one item, which stands for it. -/
theorem item_writeChar (c : Char) : Item (Quoted.writeChar c) c := by
  have way := Quoted.written_writeChar c
  generalize Quoted.writeChar c = written at way ⊢
  cases way with
  | @short e letter =>
    have listed : (e, c) ∈ escapes := by cases letter <;> simp [escapes]
    exact .short listed
  | code control =>
    have small := Quoted.toNat_lt_of_isControl control
    have digits := Token.hexValue?_hexWord (Nat.lt_trans small (by decide))
    have item : Item ('\\' :: 'u' :: Text.hexWord c.toNat) (Char.ofNat c.toNat) :=
      .unit digits (.inl small)
    rwa [Char.ofNat_toNat] at item
  | plain noQuote noBackslash other =>
    have printable : 0x20 ≤ c.toNat := by
      simp only [Quoted.isControl, Bool.or_eq_false_iff, decide_eq_false_iff_not] at other
      exact Nat.not_lt.1 other.1
    exact .plain noQuote noBackslash printable

/-- A written text obeys the grammar. -/
theorem quoted_write (text : String) : Quoted (Quoted.write text.toList) text := by
  have items : ∀ cs : List Char, Token.Row Item (cs.flatMap Quoted.writeChar) cs := by
    intro cs
    induction cs with
    | nil => exact .nil
    | cons c later ih => exact .cons (item_writeChar c) ih
  have quoted := Quoted.row (items text.toList)
  rwa [String.ofList_toList] at quoted

end JsonText

/-- A whole number is written as an integer of 64 bits where it fits these. -/
theorem Numeral.integer?_numeralOfInt (value : Int) :
    (numeralOfInt value).integer? = int64? value := by
  have whole := Token.wholeValue_numeralOfInt value
  have noMinusZero : ¬((numeralOfInt value).negative = true ∧
      (numeralOfInt value).wholeValue = 0) := by
    rw [whole]
    simp only [numeralOfInt, decide_eq_true_eq]
    omega
  rw [integer?, if_pos ⟨rfl, rfl, noMinusZero⟩, whole]

namespace JsonLibrary

variable {N : Type} {library : JsonLibrary N}

/-- A number alone is a document: what the library has for it. -/
theorem Standard.document?_numeralText (standard : library.Standard) {n : Numeral}
    (strict : Strict n) : library.document? (String.ofList (numeralText n)) =
      (library.number? n).map fun number => (JsonValue.number number).toNode library.numbers := by
  have number := JsonText.Scalar.number (JsonText.number_numeralText strict)
  have said := JsonText.says_of_value (JsonText.value_of_scalar number 127)
  rw [document?, standard.read said, JsonValue.resolve?, Option.map_map]
  rfl

/-- The text of a floating-point number is read back as that number. -/
def Restores (library : JsonLibrary N) (x : Float) : Prop :=
  library.document? (Node.float x).compact = some (.float x)

/-- Reading the text tells whether it is read back. -/
instance (library : JsonLibrary N) (x : Float) : Decidable (library.Restores x) :=
  match read : library.document? (Node.float x).compact with
  | some (.float y) => decidable_of_iff (y = x) (by simp [Restores, read])
  | some .null | some (.boolean _) | some (.integer _) | some (.string _) | some (.array _)
  | some (.object _) | some .missing | none => isFalse (by simp [Restores, read])

end JsonLibrary

namespace Node

/-! ## Well-formed documents -/

mutual

/-- How deep containers are nested in a node, the node included. -/
def nesting : Node → Nat
  | .array elements => nestingOfElements elements + 1
  | .object members => nestingOfMembers members + 1
  | .null | .boolean _ | .integer _ | .float _ | .string _ | .missing => 0

/-- How deep containers are nested in elements. -/
def nestingOfElements : List Node → Nat
  | [] => 0
  | element :: rest => max (nesting element) (nestingOfElements rest)

/-- How deep containers are nested in the values of members. -/
def nestingOfMembers : List (String × Node) → Nat
  | [] => 0
  | (_, value) :: rest => max (nesting value) (nestingOfMembers rest)

end

/-- The library reads the text of a floating-point number back as that number, if it is finite;
other nodes are none. -/
def HasLegibleNumber {N : Type} (library : JsonLibrary N) : Node → Prop
  | float x => (Binary.ofFloat x).isFinite = true → library.Restores x
  | _ => True

variable {n part : Node}

/-- An element is nested no deeper than all of them. -/
theorem nesting_le_nestingOfElements {elements : List Node} (member : part ∈ elements) :
    part.nesting ≤ nestingOfElements elements := by
  induction elements with
  | nil => cases member
  | cons first later ih =>
    rw [nestingOfElements]
    rcases List.mem_cons.1 member with rfl | inside
    · exact Nat.le_max_left _ _
    · exact Nat.le_trans (ih inside) (Nat.le_max_right _ _)

/-- Members are nested as deep as their values. -/
theorem nestingOfMembers_eq (members : List (String × Node)) :
    nestingOfMembers members = nestingOfElements (Members.values members) := by
  induction members with
  | nil => rfl
  | cons member later ih => exact congrArg (max member.2.nesting) ih

/-- A child is nested less deep than its node. -/
theorem nesting_lt_of_mem_children (member : part ∈ n.children) : part.nesting < n.nesting := by
  cases n with
  | array elements => exact Nat.lt_succ_of_le (nesting_le_nestingOfElements member)
  | object members =>
    rw [nesting, nestingOfMembers_eq]
    exact Nat.lt_succ_of_le (nesting_le_nestingOfElements member)
  | null | boolean | integer | float | string | missing => cases member

end Node

namespace JsonLibrary

open Node (HasOrderedKeys HasLegibleNumber writeElements writeMembers expressibleElements
  expressibleMembers)
open JsonText (Blank Spaced Separated Member Scalar blank_nil)

variable {N : Type} {library : JsonLibrary N}

/-! ## Texts that say a node -/

/-- The text obeys the grammar, nested up to the depth, and the library has a value for it whose
node is the given one. -/
def Conveys (library : JsonLibrary N) (depth : Nat) (text : List Char) (n : Node) : Prop :=
  ∃ tree value, JsonText.Value depth text tree ∧ tree.resolve? library.number? = some value ∧
    value.toNode library.numbers = n

section

variable {depth : Nat}

/-- A value without parts and without numbers conveys its node. -/
theorem conveys_scalar {text : List Char} {tree : JsonValue Numeral} {value : JsonValue N}
    (scalar : Scalar text tree) (resolved : tree.resolve? library.number? = some value) :
    library.Conveys depth text (value.toNode library.numbers) :=
  ⟨tree, value, JsonText.value_of_scalar scalar depth, resolved, rfl⟩

/-- A number that the library has conveys its node. -/
theorem conveys_number {n : Numeral} {number : N} (strict : Strict n)
    (found : library.number? n = some number) :
    library.Conveys depth (numeralText n)
      ((JsonValue.number number).toNode library.numbers) :=
  conveys_scalar (.number (JsonText.number_numeralText strict))
    (by rw [JsonValue.resolve?, found, Option.map_some])

/-- An integer is conveyed by its digits. -/
theorem Standard.conveys_integer (standard : library.Standard) (n : Int64) :
    library.Conveys depth (Decimal.integerText n.toInt) (.integer n) := by
  have written : (numeralOfInt n.toInt).integer? = some n := by
    rw [Numeral.integer?_numeralOfInt, Token.int64?_toInt]
  obtain ⟨number, found⟩ := standard.integer written
  have kind := standard.kind found
  have conveys : library.Conveys depth _ _ :=
    conveys_number (Decimal.strict_numeralOfInt n.toInt) found
  rw [Token.numeralText_numeralOfInt] at conveys
  simpa only [JsonValue.toNode, kind, written] using conveys

/-- A finite number is conveyed by its digits, if it is read back from them. -/
theorem Standard.conveys_float (standard : library.Standard) {x : Float}
    (finite : (Binary.ofFloat x).isFinite = true) (back : library.Restores x) :
    library.Conveys depth (floatText x) (.float x) := by
  obtain ⟨n, strict, text⟩ := Decimal.exists_strict_floatText finite
  have written : (Node.float x).compact = String.ofList (numeralText n) := congrArg _ text.symm
  rw [Restores, written, standard.document?_numeralText strict] at back
  obtain ⟨number, found, node⟩ := Option.map_eq_some_iff.1 back
  rw [← text, ← node]
  exact conveys_number strict found

/-- A text is conveyed by its quoted form. -/
theorem conveys_string (text : String) :
    library.Conveys depth (Quoted.write text.toList) (.string text) := by
  have quoted := JsonText.quoted_write text
  exact conveys_scalar (.string quoted) rfl

end

/-! ## Containers -/

section

variable {layout : Layout} {level depth : Nat} {last : List Char}

/-- The space between the parts of a container is blank. -/
theorem blank_newline (layout : Layout) (level : Nat) : Blank (layout.newline level) := by
  cases layout with
  | compact => exact blank_nil
  | indented =>
    refine List.forall_mem_cons.2 ⟨.inr (.inr (.inl rfl)), fun c member => .inl ?_⟩
    exact (List.mem_replicate.1 member).2

/-- What stands between a key and its value is a colon with blanks behind it. -/
theorem exists_colon (layout : Layout) : ∃ blanks, layout.colon = ':' :: blanks ∧ Blank blanks := by
  cases layout with
  | compact => exact ⟨[], rfl, blank_nil⟩
  | indented => exact ⟨[' '], rfl, List.forall_mem_singleton.2 (.inl rfl)⟩

/-- Elements with space before each and commas between them are separated, and the library has a
value for each. -/
theorem separated_writeElements {elements : List Node} {first : Node}
    (head : library.Conveys depth (first.write layout level) first.expressible)
    (each : ∀ element ∈ elements,
      library.Conveys depth (element.write layout level) element.expressible)
    (blank : Blank last) :
    ∃ trees values, Separated (Spaced (JsonText.Value depth)) (layout.newline level ++
        (first.write layout level ++ (writeElements layout level elements ++ last))) trees ∧
      JsonValue.resolveElements? library.number? trees = some values ∧
      JsonValue.toNodeElements library.numbers values =
        expressibleElements (first :: elements) := by
  induction elements generalizing first with
  | nil =>
    obtain ⟨tree, value, said, resolved, node⟩ := head
    refine ⟨[tree], [value], .single (.around (blank_newline layout level) said blank), ?_, ?_⟩
    · simp only [JsonValue.resolveElements?, resolved, Option.bind_some, Option.map_some]
    · simp only [JsonValue.toNodeElements, expressibleElements, node]
  | cons element rest ih =>
    obtain ⟨tree, value, said, resolved, node⟩ := head
    obtain ⟨next, each⟩ := List.forall_mem_cons.1 each
    obtain ⟨trees, values, parts, found, nodes⟩ := ih next each
    refine ⟨tree :: trees, value :: values, ?_, ?_, ?_⟩
    · have whole := Separated.more (.around (blank_newline layout level) said blank_nil) parts
      simpa [writeElements] using whole
    · simp only [JsonValue.resolveElements?, resolved, found, Option.bind_some, Option.map_some]
    · rw [JsonValue.toNodeElements, node, nodes, ← expressibleElements]

/-- A key, a colon and a value are a member. -/
theorem member_write (layout : Layout) (level : Nat) (key : String) {text : List Char}
    {tree : JsonValue Numeral} (said : JsonText.Value depth text tree) (blank : Blank last) :
    Member (JsonText.Value depth) (layout.newline level ++
      (Quoted.write key.toList ++ (layout.colon ++ (text ++ last)))) (key, tree) := by
  obtain ⟨blanks, colon, blankColon⟩ := exists_colon layout
  have named := Spaced.around (blank_newline layout level) (JsonText.quoted_write key) blank_nil
  have member := Member.keyed named (.around blankColon said blank)
  simpa [colon] using member

/-- Members with space before each and commas between them are separated, and the library has a
value for each. -/
theorem separated_writeMembers {members : List (String × Node)} (key : String) {first : Node}
    (head : library.Conveys depth (first.write layout level) first.expressible)
    (each : ∀ value ∈ Members.values members,
      library.Conveys depth (value.write layout level) value.expressible)
    (blank : Blank last) :
    ∃ trees values, Separated (Member (JsonText.Value depth)) (layout.newline level ++
        (Quoted.write key.toList ++ (layout.colon ++ (first.write layout level ++
          (writeMembers layout level members ++ last))))) trees ∧
      JsonValue.resolveMembers? library.number? trees = some values ∧
      JsonValue.toNodeMembers library.numbers values =
        expressibleMembers ((key, first) :: members) := by
  induction members generalizing key first with
  | nil =>
    obtain ⟨tree, value, said, resolved, node⟩ := head
    refine ⟨[(key, tree)], [(key, value)], .single (member_write layout level key said blank),
      ?_, ?_⟩
    · simp only [JsonValue.resolveMembers?, resolved, Option.bind_some, Option.map_some]
    · simp only [JsonValue.toNodeMembers, expressibleMembers, node]
  | cons member rest ih =>
    obtain ⟨other, content⟩ := member
    obtain ⟨tree, value, said, resolved, node⟩ := head
    obtain ⟨next, each⟩ := List.forall_mem_cons.1 each
    obtain ⟨trees, values, parts, found, nodes⟩ := ih other next each
    refine ⟨(key, tree) :: trees, (key, value) :: values, ?_, ?_, ?_⟩
    · have whole := Separated.more (member_write layout level key said blank_nil) parts
      simpa [writeMembers] using whole
    · simp only [JsonValue.resolveMembers?, resolved, found, Option.bind_some, Option.map_some]
    · rw [JsonValue.toNodeMembers, node, nodes, ← expressibleMembers]

end

/-- An object is conveyed by the members that the library has for its own, if its keys are in
order. -/
theorem toNode_object {members : Members Node} (ordered : members.Ordered)
    {values : Members (JsonValue N)}
    (nodes : JsonValue.toNodeMembers library.numbers values = expressibleMembers members) :
    (JsonValue.object (Members.ofEntries values)).toNode library.numbers =
      .object (expressibleMembers members) := by
  have after : Members.Ordered (expressibleMembers members) := by
    rw [Node.expressibleMembers_eq]
    exact Members.ordered_mapValues.2 ordered
  have before : Members.Ordered values := by
    rw [← nodes, Node.toNodeMembers_eq] at after
    exact Members.ordered_mapValues.1 after
  rw [JsonValue.toNode, before.ofEntries_eq, nodes, Node.ofEntries, after.ofEntries_eq]

/-- What JSON can say of a node is conveyed by its text in either layout and at any level, if it is
not nested deeper than the depth. -/
theorem Standard.conveys_write (standard : library.Standard) (layout : Layout) {n : Node}
    (ordered : n.Everywhere HasOrderedKeys) (legible : n.Everywhere (HasLegibleNumber library))
    (level : Nat) {depth : Nat} (shallow : n.nesting ≤ depth) :
    library.Conveys depth (n.write layout level) n.expressible := by
  induction n using Node.induction_children generalizing level depth with
  | step n ih =>
    obtain ⟨own, ordered⟩ := Node.everywhere_iff.1 ordered
    obtain ⟨number, legible⟩ := Node.everywhere_iff.1 legible
    have inside : ∀ {depth}, n.nesting ≤ depth + 1 → ∀ child ∈ n.children,
        library.Conveys depth (child.write layout (level + 1)) child.expressible :=
      fun shallow child member => ih child member (ordered child member) (legible child member)
        (level + 1) (by
          have less := Node.nesting_lt_of_mem_children member
          omega)
    cases n with
    | null | missing => exact conveys_scalar .null rfl
    | boolean b =>
      cases b with
      | true => exact conveys_scalar .true rfl
      | false => exact conveys_scalar .false rfl
    | integer n => exact standard.conveys_integer n
    | float x =>
      cases finite : (Binary.ofFloat x).isFinite with
      | true =>
        rw [Node.write, Node.expressible, if_pos finite]
        exact standard.conveys_float finite (number finite)
      | false =>
        rw [Node.write, Node.expressible, if_neg (Bool.eq_false_iff.1 finite),
          Decimal.floatText_of_not_finite finite]
        exact conveys_scalar .null rfl
    | string text => exact conveys_string text
    | array elements =>
      obtain ⟨depth, rfl⟩ : ∃ inner, depth = inner + 1 := by
        rw [Node.nesting] at shallow
        exact Nat.exists_eq_add_one.2 (Nat.zero_lt_of_lt shallow)
      cases elements with
      | nil =>
        exact ⟨_, .array [], .emptyArray blank_nil, rfl, rfl⟩
      | cons first rest =>
        obtain ⟨head, each⟩ := List.forall_mem_cons.1 (inside shallow)
        obtain ⟨trees, values, parts, resolved, nodes⟩ :=
          separated_writeElements head each (blank_newline layout level)
        refine ⟨.array trees, .array values, ?_, ?_, ?_⟩
        · have whole : JsonText.Value (depth + 1) _ _ := .array parts
          simpa [Node.write] using whole
        · rw [JsonValue.resolve?, resolved, Option.map_some]
        · rw [JsonValue.toNode, nodes, Node.expressible]
    | object members =>
      obtain ⟨depth, rfl⟩ : ∃ inner, depth = inner + 1 := by
        rw [Node.nesting] at shallow
        exact Nat.exists_eq_add_one.2 (Nat.zero_lt_of_lt shallow)
      cases members with
      | nil =>
        exact ⟨_, .object [], .emptyObject blank_nil, rfl, rfl⟩
      | cons member rest =>
        obtain ⟨key, first⟩ := member
        obtain ⟨head, each⟩ := List.forall_mem_cons.1 (inside shallow)
        obtain ⟨trees, values, parts, resolved, nodes⟩ :=
          separated_writeMembers key head each (blank_newline layout level)
        refine ⟨.object trees, .object (Members.ofEntries values), ?_, ?_, ?_⟩
        · have whole : JsonText.Value (depth + 1) _ _ := .object parts
          simpa [Node.write] using whole
        · rw [JsonValue.resolve?, resolved, Option.map_some]
        · rw [toNode_object own nodes, Node.expressible]

end JsonLibrary

/-! ## Whole documents -/

namespace Node

variable {N : Type} {library : JsonLibrary N}

/-- Every library of the standard kind reads a document back from its compact and from its indented
text as what JSON can say of it, if it has no more than 127 containers nested and the library reads
its numbers back. -/
theorem document?_render (standard : library.Standard) {n : Node}
    (ordered : n.Everywhere HasOrderedKeys) (shallow : n.nesting ≤ 127)
    (legible : n.Everywhere (HasLegibleNumber library)) :
    library.document? n.compact = some n.expressible ∧
      library.document? n.pretty = some n.expressible := by
  have read : ∀ layout, library.document? (n.render layout) = some n.expressible := by
    intro layout
    obtain ⟨tree, value, said, resolved, node⟩ :=
      standard.conveys_write layout ordered legible 0 shallow
    have whole : JsonText.Says 127 (n.render layout) tree := JsonText.says_of_value said
    rw [JsonLibrary.document?, standard.read whole, resolved, Option.map_some, node]
  exact ⟨read .compact, read .indented⟩

/-- Of two members with one key the last one is read back, and a missing node and an infinity are
read as null. -/
theorem document?_render_entries :
    let n : Node := ofEntries [("b", .missing), ("\"\x7f", .array []),
      ("b", .array [.float 2.5, .float Decimal.infinity, .missing, .integer (-3)])]
    n.Everywhere HasOrderedKeys ∧ n.nesting ≤ 127 ∧
      n.Everywhere (HasLegibleNumber JsonLibrary.nearest) ∧
      n.compact = "\x7b\"\\\"\\u007f\":[],\"b\":[2.5,null,null,-3]\x7d" ∧
      JsonLibrary.nearest.document? n.compact = some (.object [("\"\x7f", .array []),
        ("b", .array [.float 2.5, .null, .null, .integer (-3)])]) := by
  intro n
  have ordered : n.Everywhere HasOrderedKeys := by
    have leaf {node : Node} := everywhere_of_leaf (P := HasOrderedKeys) (n := node)
    refine everywhere_ofEntries (Members.ordered_ofEntries _) ?_
    simp only [List.forall_mem_cons, everywhere_array]
    exact ⟨leaf rfl trivial, ⟨trivial, nofun⟩, ⟨trivial, leaf rfl trivial, leaf rfl trivial,
      leaf rfl trivial, leaf rfl trivial, nofun⟩, nofun⟩
  have shallow : n.nesting ≤ 127 := by decide +kernel
  have legible : n.Everywhere (HasLegibleNumber JsonLibrary.nearest) := by
    have leaf {node : Node} :=
      everywhere_of_leaf (P := HasLegibleNumber JsonLibrary.nearest) (n := node)
    have number : HasLegibleNumber JsonLibrary.nearest (.float 2.5) := fun _ => by decide +kernel
    have infinity : HasLegibleNumber JsonLibrary.nearest (.float Decimal.infinity) :=
      fun finite => by
        revert finite
        decide +kernel
    refine everywhere_ofEntries trivial ?_
    simp only [List.forall_mem_cons, everywhere_array]
    exact ⟨leaf rfl trivial, ⟨trivial, nofun⟩, ⟨trivial, leaf rfl number, leaf rfl infinity,
      leaf rfl trivial, leaf rfl trivial, nofun⟩, nofun⟩
  refine ⟨ordered, shallow, legible, by decide +kernel, ?_⟩
  rw [(document?_render JsonLibrary.standard_nearest ordered shallow legible).1]
  rfl

end Node

end PathQuery
