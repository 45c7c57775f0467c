import PathQuery.Proofs.Lexemes
import PathQuery.Proofs.FiniteNearest
import PathQuery.Proofs.FloatDigits
/-!
# Reading standard text

The reader of documents reads every text of the grammar that is not nested deeper than it allows.
The text of a value is cut into lexemes, and these lead from a place where a value has to come to
the one where it is complete, whatever containers are open around it, as long as they leave room
for those in the value. So the library that the commands run with keeps the promises of a standard
one.
-/
namespace PathQuery

open Token (ends_nil)

namespace Reader

open JsonText (Blank Spaced Separated Member Scalar Quoted)

/-! ## Lexemes in a row -/

/-- Taking the lexemes leads from one state of reading to another. -/
def Leads (before : Progress) (found : List Lexeme) (after : Progress) : Prop :=
  found.foldlM Progress.step before = some after

section

variable {before middle after : Progress} {found further : List Lexeme} {frames around : List Frame}
  {value : JsonValue Numeral}

/-- A lexeme that may come is taken before those behind it. -/
theorem Leads.cons {lexeme : Lexeme} (first : before.step lexeme = some middle)
    (later : Leads middle further after) : Leads before (lexeme :: further) after := by
  rw [Leads, List.foldlM_cons, first]
  exact later

/-- Lexemes in a row are taken one after the other. -/
theorem Leads.append (first : Leads before found middle) (later : Leads middle further after) :
    Leads before (found ++ further) after := by
  rw [Leads, List.foldlM_append, first]
  exact later

/-- The first element of an array is read as any other value: none starts with the end of an
array. -/
theorem Leads.firstElement (leads : Leads ⟨.value, frames⟩ found ⟨.finished value, around⟩) :
    Leads ⟨.firstElement, frames⟩ found ⟨.finished value, around⟩ := by
  cases found with
  | nil => cases leads
  | cons lexeme later =>
    cases lexeme with
    | closeArray => cases leads
    | openArray | openObject | closeObject | comma | colon | text | scalar => exact leads

/-- The first member of an object is read as any other one: none starts with the end of an
object. -/
theorem Leads.firstKey (leads : Leads ⟨.key [], frames⟩ found ⟨.finished value, around⟩) :
    Leads ⟨.firstKey, frames⟩ found ⟨.finished value, around⟩ := by
  cases found with
  | nil => cases leads
  | cons lexeme later =>
    cases lexeme with
    | text => exact leads
    | openArray | closeArray | openObject | closeObject | comma | colon | scalar => cases leads

end

/-! ## Values -/

/-- The text is cut into lexemes that are read as the value, wherever there is room for containers
nested to the depth. -/
def ReadsValue (depth : Nat) (text : List Char) (value : JsonValue Numeral) : Prop :=
  ∃ found, Cuts text found continuesNumeral ∧ ∀ frames : List Frame,
    frames.length + depth ≤ nestingLimit → Leads ⟨.value, frames⟩ found ⟨.finished value, frames⟩

section

variable {depth : Nat} {text : List Char} {value : JsonValue Numeral}
  {Part : List Char → JsonValue Numeral → Prop}

/-- A value without parts is read from a single lexeme. -/
theorem readsValue_scalar (scalar : Scalar text value) : ReadsValue depth text value := by
  cases scalar with
  | null | true | false => exact ⟨_, (cuts_word rfl fun _ => rfl).anywhere, fun _ _ => rfl⟩
  | number number => exact ⟨_, cuts_number number, fun _ _ => rfl⟩
  | string quoted => exact ⟨_, (cuts_quoted quoted).anywhere, fun _ _ => rfl⟩

/-- Blanks around a value change nothing. -/
theorem readsValue_spaced (each : ∀ {text value}, Part text value → ReadsValue depth text value)
    (spaced : Spaced Part text value) : ReadsValue depth text value := by
  cases spaced with
  | around front part back =>
    obtain ⟨found, cuts, leads⟩ := each part
    exact ⟨found, cuts.spaced front back, leads⟩

/-- Behind other parts of an open container the text is cut into lexemes that lead from the one
place to the other, wherever there is room for containers nested to the depth inside of it. -/
def ReadsPart {α : Type} (depth : Nat) (text : List Char) (goesOn : Char → Bool)
    (start finish : List α → List Frame → Progress) : Prop :=
  ∃ found, Cuts text found goesOn ∧ ∀ before (frames : List Frame),
    frames.length + depth < nestingLimit → Leads (start before frames) found (finish before frames)

/-- Parts with commas between them are read one after the other, up to the bracket that closes their
container, if a comma leads from behind each part to where the next one has to come. -/
theorem readsPart_separated {α : Type} {Part : List Char → α → Prop} {parts : List α}
    {coming : List α → List Frame → Progress} {behind : α → List α → List Frame → Progress}
    {bracket : Char} {closing : Lexeme} (container : List α → JsonValue Numeral)
    (each : ∀ {text part}, Part text part →
      ReadsPart depth text continuesNumeral coming (behind part))
    (comma : ∀ part before frames,
      (behind part before frames).step .comma = some (coming (part :: before) frames))
    (close : ∀ part before frames, (behind part before frames).step closing =
      some ⟨.finished (container (part :: before).reverse), frames⟩)
    (cutsClose : Cuts [bracket] [closing] Token.nothing)
    (apart : continuesNumeral bracket = false) (separated : Separated Part text parts) :
    ReadsPart depth (text ++ [bracket]) Token.nothing coming
      fun before frames => ⟨.finished (container (before.reverse ++ parts)), frames⟩ := by
  induction separated with
  | @single text part only =>
    obtain ⟨found, cuts, leads⟩ := each only
    refine ⟨found ++ [closing], cuts.append_apart cutsClose apart, fun before frames room => ?_⟩
    have last := close part before frames
    rw [List.reverse_cons] at last
    exact (leads before frames room).append (.cons last rfl)
  | @more text rest part others first _ ih =>
    obtain ⟨found, cuts, leads⟩ := each first
    obtain ⟨further, cutsOthers, leadsOthers⟩ := ih
    have cutsComma : Cuts [','] [.comma] Token.nothing := cuts_mark rfl rfl
    refine ⟨found ++ .comma :: further, ?_, fun before frames room => ?_⟩
    · rw [List.append_assoc]
      exact cuts.append_apart (cutsComma.append_closed cutsOthers) rfl
    · -- the parts before are kept in reverse, and this one is put in front of them
      have readOthers := leadsOthers (part :: before) frames room
      simp only [List.reverse_cons, List.append_assoc] at readOthers
      exact (leads before frames room).append (.cons (comma part before frames) readOthers)

/-- An element is read as a value in its array. -/
theorem readsPart_element (reads : ReadsValue depth text value) :
    ReadsPart depth text continuesNumeral (fun before frames => ⟨.value, .array before :: frames⟩)
      fun before frames => ⟨.finished value, .array before :: frames⟩ := by
  obtain ⟨found, cuts, leads⟩ := reads
  exact ⟨found, cuts, fun before frames room =>
    leads (.array before :: frames) (by rw [List.length_cons]; omega)⟩

/-- A member is read from a key, a colon and the lexemes of its value. -/
theorem readsPart_member {member : String × JsonValue Numeral}
    (each : ∀ {text value}, Part text value → ReadsValue depth text value)
    (keyed : Member Part text member) :
    ReadsPart depth text continuesNumeral (fun before frames => ⟨.key before, frames⟩)
      fun before frames => ⟨.finished member.2, .object before member.1 :: frames⟩ := by
  cases keyed with
  | @keyed key text name value named valued =>
    obtain ⟨found, cuts, leads⟩ := readsValue_spaced each valued
    have cutsKey : Cuts key [.text name] continuesNumeral := by
      cases named with
      | around front part back => exact (cuts_quoted part).anywhere.spaced front back
    have colon : Cuts [':'] [.colon] Token.nothing := cuts_mark rfl rfl
    refine ⟨.text name :: .colon :: found,
      cutsKey.append_apart (colon.append_closed cuts) rfl, fun before frames room => ?_⟩
    have read := leads (.object before name :: frames) (by rw [List.length_cons]; omega)
    exact .cons rfl (.cons rfl read)

/-- Every value of the grammar is read. -/
theorem readsValue_of_value (said : JsonText.Value depth text value) :
    ReadsValue depth text value := by
  induction depth generalizing text value with
  | zero => exact readsValue_scalar said
  | succ depth ih =>
    have openArray : Cuts ['['] [.openArray] Token.nothing := cuts_mark rfl rfl
    have closeArray : Cuts [']'] [.closeArray] Token.nothing := cuts_mark rfl rfl
    have openObject : Cuts ['\x7b'] [.openObject] Token.nothing := cuts_mark rfl rfl
    have closeObject : Cuts ['\x7d'] [.closeObject] Token.nothing := cuts_mark rfl rfl
    have room : ∀ {frames : List Frame}, frames.length + (depth + 1) ≤ nestingLimit →
        frames.length < nestingLimit := by omega
    cases said with
    | scalar scalar => exact readsValue_scalar scalar
    | emptyArray blank =>
      have inside := (cuts_blank blank).append_closed closeArray
      exact ⟨_, (openArray.append_closed inside).anywhere,
        fun frames shallow => .cons (if_pos (room shallow)) rfl⟩
    | array parts =>
      obtain ⟨found, cuts, leads⟩ := readsPart_separated .array
        (fun part => readsPart_element (readsValue_spaced ih part)) (fun _ _ _ => rfl)
        (fun _ _ _ => rfl) closeArray rfl parts
      refine ⟨_, (openArray.append_closed cuts).anywhere, fun frames shallow => ?_⟩
      exact .cons (if_pos (room shallow)) (leads [] frames (by omega)).firstElement
    | emptyObject blank =>
      have inside := (cuts_blank blank).append_closed closeObject
      exact ⟨_, (openObject.append_closed inside).anywhere,
        fun frames shallow => .cons (if_pos (room shallow)) rfl⟩
    | object parts =>
      obtain ⟨found, cuts, leads⟩ := readsPart_separated .object
        (fun part => readsPart_member ih part) (fun _ _ _ => rfl) (fun _ _ _ => rfl) closeObject rfl
        parts
      refine ⟨_, (openObject.append_closed cuts).anywhere, fun frames shallow => ?_⟩
      exact .cons (if_pos (room shallow)) (leads [] frames (by omega)).firstKey

end

/-- Every text of the grammar is read as the value that it says, if it is nested no deeper than the
reader has room for. -/
theorem value?_of_said {depth : Nat} {text : String} {value : JsonValue Numeral}
    (said : JsonText.Says depth text value) (shallow : depth ≤ nestingLimit) :
    value? text = some value := by
  obtain ⟨found, cuts, leads⟩ := readsValue_spaced readsValue_of_value said
  have all := cuts [] ends_nil
  have read := leads [] (by simpa using shallow)
  rw [List.append_nil, lexemes, Option.map_some, List.append_nil] at all
  rw [Leads] at read
  simp only [value?, all, read, Option.bind_eq_bind, Option.bind_some, Progress.value?]

end Reader

namespace JsonLibrary

/-- A numeral with a fraction has a finite nearest number, if what stands before its point is less
than ten to the sixteenth. -/
theorem isFinite_nearest {n : Numeral} (pointed : JsonText.Digits n.fraction)
    (noExponent : n.exponent = none) (small : Decimal.digitsValue n.whole < 10000000000000000) :
    (Binary.ofFloat n.decimal.nearest).isFinite = true := by
  obtain ⟨places, length⟩ : ∃ places, n.fraction.length = places + 1 :=
    Nat.exists_eq_add_one.2 (List.length_pos_of_ne_nil pointed.nonempty)
  have power : none.getD (0 : Int) - ((places + 1 : Nat) : Int) = .negSucc places := by
    rw [Option.getD_none]
    omega
  have value := Decimal.digitsValue_append n.whole n.fraction
  have behind := Decimal.digitsValue_lt pointed.inside
  rw [length] at value behind
  rw [Numeral.decimal, noExponent, length, power]
  refine Decimal.isFinite_nearest_fraction _ ?_
  rw [value]
  calc 10 ^ (places + 1) * Decimal.digitsValue n.whole + Decimal.digitsValue n.fraction
      < 10 ^ (places + 1) * (Decimal.digitsValue n.whole + 1) := Nat.add_lt_add_left behind _
    _ ≤ 10 ^ (places + 1) * 2 ^ 54 := Nat.mul_le_mul_left _ (by omega)
    _ = 2 ^ 54 * 10 ^ (places + 1) := Nat.mul_comm ..

/-- The library that reads every decimal as the nearest number keeps the promises of a standard
one. -/
theorem standard_nearest : nearest.Standard where
  read {text value} said := by
    have read := Reader.value?_of_said said (Nat.le_refl _)
    simp only [nearest, read, Option.bind_some]
  integer {n value} written := ⟨.inl value, by simp only [nearest, nearestNumber?, written]⟩
  fraction {n} pointed noExponent small := by
    have other : n.integer? = none := if_neg fun whole => pointed.nonempty whole.1
    have finite := isFinite_nearest pointed noExponent small
    exact ⟨.inr n.decimal.nearest, by simp only [nearest, nearestNumber?, other, finite, if_true]⟩
  kind {n number} found := by
    simp only [nearest, nearestNumber?] at found ⊢
    split at found
    · next value written =>
      obtain rfl := Option.some.inj found
      exact written.symm
    · next other =>
      split at found
      · obtain rfl := Option.some.inj found
        exact other.symm
      · cases found

end JsonLibrary

end PathQuery
