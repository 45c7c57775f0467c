import PathQuery.Proofs.FloatText
import PathQuery.Proofs.Parts
/-!
# Both layouts of a document

The indented text of a document is its compact text with spaces and line feeds put in between. A
reader that deletes them has to know where quoted texts begin and end: what stands inside of those
belongs to the document. So it follows every quote, and every backslash that may escape one. Each
part of a written document leaves such a reader outside of quoted texts, where it found it, so that
parts put in a row are read one after the other.
-/
namespace PathQuery

namespace Layout

/-- Where a reader of a document stands. -/
inductive Place where
  /-- Outside of quoted texts. -/
  | outside
  /-- Inside of a quoted text. -/
  | inside
  /-- Inside of a quoted text, behind a backslash that escapes the next character. -/
  | escaped
deriving DecidableEq

/-- Where a reader stands behind a character. -/
def Place.after : Place → Char → Place
  | .outside, c => if c = '"' then .inside else .outside
  | .inside, c => if c = '"' then .outside else if c = '\\' then .escaped else .inside
  | .escaped, _ => .inside

/-- Whether a character sets parts of an indented document apart: a space or a line feed. -/
def isSpace (c : Char) : Bool := c = ' ' || c = '\n'

/-- The characters without the spaces and line feeds that stand outside of quoted texts. -/
def squeeze : Place → List Char → List Char
  | _, [] => []
  | place, c :: rest =>
    if place = .outside ∧ isSpace c then squeeze (place.after c) rest
    else c :: squeeze (place.after c) rest

/-- A text without the spaces and line feeds that stand outside of quoted texts. -/
def erase (text : String) : String := String.ofList (squeeze .outside text.toList)

/-! ## Parts in a row -/

/-- Without its spaces the text is the other one, and a reader stands outside of quoted texts behind
it if it did before. -/
def Squeezes (text short : List Char) : Prop :=
  ∀ rest, squeeze .outside (text ++ rest) = short ++ squeeze .outside rest

variable {text short later shortLater : List Char}

/-- Nothing is left as nothing. -/
theorem squeezes_nil : Squeezes [] [] := fun _ => rfl

/-- Two texts in a row are squeezed one after the other. -/
theorem Squeezes.append (first : Squeezes text short) (second : Squeezes later shortLater) :
    Squeezes (text ++ later) (short ++ shortLater) := by
  intro rest
  rw [List.append_assoc, List.append_assoc, first, second]

/-- A space or a line feed in front of a text is left out. -/
theorem Squeezes.space {c : Char} (space : isSpace c = true) (behind : Squeezes text short) :
    Squeezes (c :: text) short := by
  intro rest
  have other : c ≠ '"' := by
    rintro rfl
    cases space
  simp only [List.cons_append, squeeze, space, Place.after, other]
  exact behind rest

/-- Whether a character outside of quoted texts neither opens one nor is a space. -/
def isSolid (c : Char) : Bool := c ≠ '"' && !isSpace c

/-- A character that is no space and no quote is kept in front of a text. -/
theorem Squeezes.solid {c : Char} (solid : isSolid c = true) (behind : Squeezes text short) :
    Squeezes (c :: text) (c :: short) := by
  intro rest
  simp only [isSolid, Bool.and_eq_true, Bool.not_eq_true', decide_eq_true_eq] at solid
  simp only [List.cons_append, squeeze, solid.1, solid.2, Place.after]
  exact congrArg (c :: ·) (behind rest)

/-- Characters that are neither spaces nor quotes are kept. -/
theorem squeezes_solid (solid : ∀ c ∈ text, isSolid c = true) : Squeezes text text := by
  induction text with
  | nil => exact squeezes_nil
  | cons c later ih =>
    obtain ⟨first, others⟩ := List.forall_mem_cons.1 solid
    exact (ih others).solid first

/-! ## Quoted texts -/

/-- Inside of a quoted text a character that is neither quote nor backslash is kept. -/
theorem squeeze_plain {c : Char} (noQuote : c ≠ '"') (noBackslash : c ≠ '\\') (rest : List Char) :
    squeeze .inside (c :: rest) = c :: squeeze .inside rest := by
  simp [squeeze, Place.after, noQuote, noBackslash]

/-- Inside of a quoted text a backslash and the character behind it are kept. -/
theorem squeeze_escape (c : Char) (rest : List Char) :
    squeeze .inside ('\\' :: c :: rest) = '\\' :: c :: squeeze .inside rest := by
  simp [squeeze, Place.after]

/-- A hexadecimal digit is neither quote nor backslash. -/
theorem hexDigit_ne (n : Nat) :
    Text.hexDigit (n % 16) ≠ '"' ∧ Text.hexDigit (n % 16) ≠ '\\' := by
  have every : ∀ m : Fin 16, Text.hexDigit m ≠ '"' ∧ Text.hexDigit m ≠ '\\' := by decide
  exact every ⟨n % 16, Nat.mod_lt n (by decide)⟩

/-- A written character is kept inside of a quoted text, and the text goes on behind it. -/
theorem squeeze_writeChar (c : Char) (rest : List Char) :
    squeeze .inside (Quoted.writeChar c ++ rest) = Quoted.writeChar c ++ squeeze .inside rest := by
  have way := Quoted.written_writeChar c
  generalize Quoted.writeChar c = written at way ⊢
  cases way with
  | @short e letter => exact squeeze_escape e rest
  | code control =>
    simp only [Text.hexWord, List.cons_append, List.nil_append, squeeze_escape,
      squeeze_plain (hexDigit_ne _).1 (hexDigit_ne _).2]
  | plain noQuote noBackslash => exact squeeze_plain noQuote noBackslash rest

/-- Written characters are kept up to the quote that closes them. -/
theorem squeeze_flatMap (text rest : List Char) :
    squeeze .inside (text.flatMap Quoted.writeChar ++ '"' :: rest) =
      text.flatMap Quoted.writeChar ++ '"' :: squeeze .outside rest := by
  induction text with
  | nil => rfl
  | cons c later ih =>
    rw [List.flatMap_cons, List.append_assoc, squeeze_writeChar, ih, List.append_assoc]

/-- A quoted text is kept as it is, whatever it holds. -/
theorem squeezes_quoted (text : List Char) : Squeezes (Quoted.write text) (Quoted.write text) := by
  intro rest
  have content := squeeze_flatMap text rest
  simpa [Quoted.write, squeeze, Place.after, isSpace] using content

/-! ## Documents -/

/-- What stands before a part of an indented document is left out. -/
theorem squeezes_newline (level : Nat) : Squeezes (indented.newline level) [] := by
  have spaces : ∀ count, Squeezes (List.replicate count ' ') [] := by
    intro count
    induction count with
    | zero => exact squeezes_nil
    | succ count ih => exact ih.space rfl
  exact (spaces (2 * level)).space rfl

/-- What stands between a key and its value loses its space. -/
theorem squeezes_colon : Squeezes indented.colon compact.colon :=
  (squeezes_nil.space (c := ' ') rfl).solid (c := ':') rfl

/-- A key in front of a value stays there. -/
theorem squeezes_member (key : String) (value : Squeezes text short) :
    Squeezes (Quoted.write key.toList ++ indented.colon ++ text)
      (Quoted.write key.toList ++ compact.colon ++ short) :=
  ((squeezes_quoted key.toList).append squeezes_colon).append value

variable {level : Nat}

/-- Elements with a comma before each are squeezed one after the other. -/
theorem squeezes_writeElements {elements : List Node}
    (each : ∀ element ∈ elements,
      Squeezes (element.write .indented level) (element.write .compact level)) :
    Squeezes (Node.writeElements .indented level elements)
      (Node.writeElements .compact level elements) := by
  induction elements with
  | nil => exact squeezes_nil
  | cons element rest ih =>
    obtain ⟨first, others⟩ := List.forall_mem_cons.1 each
    have parts := ((squeezes_newline level).append first).append (ih others)
    exact parts.solid (c := ',') rfl

/-- Members with a comma before each are squeezed one after the other. -/
theorem squeezes_writeMembers {members : List (String × Node)}
    (each : ∀ value ∈ Members.values members,
      Squeezes (value.write .indented level) (value.write .compact level)) :
    Squeezes (Node.writeMembers .indented level members)
      (Node.writeMembers .compact level members) := by
  induction members with
  | nil => exact squeezes_nil
  | cons member rest ih =>
    obtain ⟨key, value⟩ := member
    obtain ⟨first, others⟩ := List.forall_mem_cons.1 each
    have parts := ((squeezes_newline level).append (squeezes_member key first)).append (ih others)
    have whole := parts.solid (c := ',') rfl
    simpa [Node.writeMembers, newline] using whole

/-- The end of a container loses what stands before it. -/
theorem squeezes_close (level : Nat) {c : Char} (solid : isSolid c = true) :
    Squeezes (indented.newline level ++ [c]) [c] :=
  (squeezes_newline level).append (squeezes_nil.solid solid)

/-- No character of a number is a space or a quote. -/
theorem isSolid_of_isPositional {c : Char} (positional : Decimal.isPositional c = true) :
    isSolid c = true := by
  have other (d : Char) (none : Decimal.isPositional d = false) : c ≠ d := by
    rintro rfl
    exact Bool.false_ne_true (none.symm.trans positional)
  simp [isSolid, isSpace, other '"' rfl, other ' ' rfl, other '\n' rfl]

/-- The indented text of a node is squeezed to its compact text. -/
theorem squeezes_write (n : Node) (level : Nat) :
    Squeezes (n.write .indented level) (n.write .compact level) := by
  induction n using Node.induction_children generalizing level with
  | step n ih =>
    have inside := fun child member => ih child member (level + 1)
    have word : ∀ {text : List Char}, text.all isSolid = true → Squeezes text text :=
      fun solid => squeezes_solid (List.all_eq_true.1 solid)
    cases n with
    | null | missing => exact word rfl
    | boolean b => cases b <;> exact word rfl
    | integer n =>
      exact squeezes_solid fun c member =>
        isSolid_of_isPositional (Decimal.isPositional_of_mem_integerText member)
    | float x =>
      show Squeezes (floatText x) (floatText x)
      cases finite : (Binary.ofFloat x).isFinite with
      | true =>
        exact squeezes_solid fun c member =>
          isSolid_of_isPositional (Decimal.isPositional_of_mem_floatText finite member)
      | false =>
        rw [Decimal.floatText_of_not_finite finite]
        exact word rfl
    | string text => exact squeezes_quoted text.toList
    | array elements =>
      cases elements with
      | nil => exact word rfl
      | cons first rest =>
        obtain ⟨head, each⟩ := List.forall_mem_cons.1 inside
        have parts := ((squeezes_newline (level + 1)).append head).append
          (squeezes_writeElements each)
        have closed := parts.append (squeezes_close level (c := ']') rfl)
        have whole := closed.solid (c := '[') rfl
        simpa [Node.write, newline] using whole
    | object members =>
      cases members with
      | nil => exact word rfl
      | cons member rest =>
        obtain ⟨key, value⟩ := member
        obtain ⟨head, each⟩ := List.forall_mem_cons.1 inside
        have parts := ((squeezes_newline (level + 1)).append (squeezes_member key head)).append
          (squeezes_writeMembers each)
        have closed := parts.append (squeezes_close level (c := '\x7d') rfl)
        have whole := closed.solid (c := '\x7b') rfl
        simpa [Node.write, newline] using whole

end Layout

/-- Without the spaces and line feeds outside of its quoted texts, the indented text of a document
is the compact one. -/
theorem Node.erase_pretty (n : Node) : Layout.erase n.pretty = n.compact := by
  have squeezed := Layout.squeezes_write n 0 []
  rw [List.append_nil, Layout.squeeze, List.append_nil] at squeezed
  rw [Layout.erase, pretty, render, String.toList_ofList, squeezed, compact, render]

/-- In a nested document a key that looks like the end of a quoted text keeps its spaces, and so do
the space and the escaped line feed of a text, while those between the parts are gone. -/
theorem Node.erase_pretty_nested :
    let n : Node := .object [("\\\" : ", .array [.missing, .array [], .string " a\n\""]),
      ("b", .object [("c", .float 2.0)])]
    n.pretty = "\x7b\n  \"\\\\\\\" : \": [\n    null,\n    [],\n    \" a\\n\\\"\"\n  ],\n" ++
      "  \"b\": \x7b\n    \"c\": 2.0\n  \x7d\n\x7d" ∧
    n.compact = "\x7b\"\\\\\\\" : \":[null,[],\" a\\n\\\"\"],\"b\":\x7b\"c\":2.0\x7d\x7d" ∧
    Layout.erase n.pretty = n.compact := by
  intro n
  exact ⟨by decide +kernel, by decide +kernel, erase_pretty n⟩

end PathQuery
