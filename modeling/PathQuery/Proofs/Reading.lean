import PathQuery.Proofs.Grammar
/-!
# What the small readers read

A reading succeeds with a value and some tokens left. This module says for each reader below a
nested expression when that happens: the readers take the tokens of a production of the grammar,
and they take all of them unless the next token goes on with the production.
-/
namespace PathQuery.Parser

open Grammar

namespace Reading

variable {α β : Type} {tokens later : List Located}

/-- The reading succeeds with a value and leaves some tokens. -/
def Reads (r : Reading α tokens) (value : α) (rest : List Located) : Prop :=
  r.result = .ok value ∧ r.rest = rest

/-- Seen from earlier tokens a reading reads the same. -/
theorem reads_within {r : Reading α later} (shorter : later.length ≤ tokens.length) {value : α}
    {rest : List Located} : (r.within shorter).Reads value rest ↔ r.Reads value rest := Iff.rfl

/-- Two readings in a row succeed when the first does and then the second. -/
theorem reads_andThen {r : Reading α tokens}
    {next : α → (rest : List Located) → rest.length ≤ tokens.length → Reading β rest} {value : β}
    {rest : List Located} :
    (r.andThen next).Reads value rest ↔
      ∃ first mid, ∃ shorter : mid.length ≤ tokens.length,
        r.Reads first mid ∧ (next first mid shorter).Reads value rest := by
  obtain ⟨result, left, shrinks⟩ := r
  cases result with
  | error e => simp [andThen, Reads]
  | ok first =>
    constructor
    · intro read
      exact ⟨first, left, shrinks, ⟨rfl, rfl⟩, read⟩
    · rintro ⟨_, _, _, ⟨same, rfl⟩, read⟩
      obtain rfl := Except.ok.inj same
      exact read

/-- A second reading goes on where a first one stopped. -/
theorem Reads.andThen {r : Reading α tokens}
    {next : α → (rest : List Located) → rest.length ≤ tokens.length → Reading β rest} {first : α}
    {value : β} {mid rest : List Located} (read : r.Reads first mid)
    (goesOn : ∀ shorter, (next first mid shorter).Reads value rest) :
    (r.andThen next).Reads value rest := by
  have shorter : mid.length ≤ tokens.length := read.2 ▸ r.shrinks
  exact reads_andThen.2 ⟨first, mid, shorter, read, goesOn shorter⟩

end Reading

/-! ## Readers of single tokens -/

variable {finish : Nat} {nested : Reader} {α : Type} {tokens rest : List Located}

/-- Accepting reads the given value and leaves everything. -/
theorem reads_accept {given value : α} :
    (accept given tokens).Reads value rest ↔ given = value ∧ tokens = rest := by
  simp [accept, Reading.Reads]

/-- Refusing reads nothing. -/
theorem not_reads_refuse {expected : Expectation} {value : α} :
    ¬ (refuse finish expected tokens).Reads value rest := by
  simp [refuse, Reading.Reads]

/-- An expected token is read when it comes next. -/
theorem reads_expect {token : Token} {expected : Expectation} {value : Unit} :
    (expect finish token expected tokens).Reads value rest ↔
      ∃ p, tokens = ⟨token, p⟩ :: rest := by
  cases tokens with
  | nil => simp [expect, not_reads_refuse]
  | cons first later =>
    obtain ⟨found, p⟩ := first
    by_cases matching : found = token
    · simp [expect, matching, Reading.Reads]
    · simp [expect, matching, not_reads_refuse]

/-! ## What may follow -/

/-- The next token, if there is one, is none of those that go on. -/
def Stops (continues : Token → Bool) (rest : List Located) : Prop :=
  ∀ first ∈ rest.head?, continues first.token = false

/-- The end of the tokens stops everything. -/
theorem stops_nil (continues : Token → Bool) : Stops continues [] := by
  intro first found
  cases found

/-- The first of some tokens decides whether they stop. -/
theorem stops_cons {continues : Token → Bool} {first : Located} :
    Stops continues (first :: rest) ↔ continues first.token = false := by
  simp [Stops]

/-- Whether a token goes on with a path. -/
def continuesPath (token : Token) : Bool := isName token || opensStep token

/-- Tokens that stop a path are no name. -/
theorem Stops.name (stops : Stops continuesPath rest) : Stops isName rest :=
  fun first found => (Bool.or_eq_false_iff.1 (stops first found)).1

/-- Tokens that stop a path introduce no step. -/
theorem Stops.step (stops : Stops continuesPath rest) : Stops opensStep rest :=
  fun first found => (Bool.or_eq_false_iff.1 (stops first found)).2

/-! ## Names -/

/-- Where no name comes, none is taken. -/
theorem readName_eq_accept (stops : Stops isName rest) : readName rest = accept none rest := by
  unfold readName
  split
  · exact absurd (stops_cons.1 stops) (nomatch ·)
  · exact absurd (stops_cons.1 stops) (nomatch ·)
  · rfl

/-- A name that is read is one of the grammar. -/
theorem nameOrNothing_of_reads {name : Option String} (read : (readName tokens).Reads name rest) :
    ∃ s, tokens = s ++ rest ∧ NameOrNothing s name := by
  unfold readName at read
  split at read
  · next found p later =>
    obtain ⟨same, rfl⟩ := read
    obtain rfl := Except.ok.inj same
    exact ⟨_, rfl, .name (.plain found p)⟩
  · next found p later =>
    obtain ⟨same, rfl⟩ := read
    obtain rfl := Except.ok.inj same
    exact ⟨_, rfl, .name (.quoted found p)⟩
  · obtain ⟨rfl, rfl⟩ := reads_accept.1 read
    exact ⟨[], rfl, .nothing⟩

/-- A name of the grammar is read, and nothing only where no name comes. -/
theorem reads_name {s : List Located} {name : Option String} (found : NameOrNothing s name)
    (stops : Stops isName rest) : (readName (s ++ rest)).Reads name rest := by
  cases found with
  | name found => cases found <;> exact ⟨rfl, rfl⟩
  | nothing =>
    rw [List.nil_append, readName_eq_accept stops]
    exact reads_accept.2 ⟨rfl, rfl⟩

/-! ## Brackets -/

/-- Brackets around anything but a lone `*` or name are read as a computed key. -/
theorem readBracketed_eq_nested (other : ∀ first second later, tokens = first :: second :: later →
      standsAlone first.token = true → second.token ≠ .rightBracket) :
    readBracketed finish nested tokens =
      (nested tokens).andThen fun key rest _ =>
        (expect finish .rightBracket .rightBracket rest).andThen fun _ rest _ =>
          accept (.key key) rest := by
  unfold readBracketed
  split
  · exact absurd rfl (other _ _ _ rfl rfl)
  · exact absurd rfl (other _ _ _ rfl rfl)
  · rfl

end PathQuery.Parser
