/-!
# Members of an object

The members of an object are pairs of a key and a value in increasing order of their keys, by
code point. Putting a member keeps that order and replaces the value that the key had before, so
that of members with one key the last one put is the one that is found.
-/
namespace PathQuery

variable {α : Type}

/-- Pairs of a key and a value. -/
abbrev Members (α : Type) := List (String × α)

namespace Members

/-- The keys stand in strictly increasing order. -/
def Ordered (members : Members α) : Prop := (members.map Prod.fst).Pairwise (· < ·)

/-- Puts a value under a key, in place of the value that stands there. -/
def put (key : String) (value : α) : Members α → Members α
  | [] => [(key, value)]
  | (k, v) :: rest =>
    if key < k then (key, value) :: (k, v) :: rest
    else if key = k then (key, value) :: rest
    else (k, v) :: put key value rest

/-- The members put from a list of pairs, one after the other. -/
def ofEntries (entries : List (String × α)) : Members α :=
  entries.foldl (fun members entry => put entry.1 entry.2 members) []

/-- The value under a key. -/
def find? (key : String) : Members α → Option α
  | [] => none
  | (k, v) :: rest => if key = k then some v else find? key rest

/-- The values in the order of their keys. -/
def values (members : Members α) : List α := members.map Prod.snd

/-- A value just put is found under its key. -/
theorem find?_put_self (key : String) (value : α) (members : Members α) :
    find? key (put key value members) = some value := by
  induction members with
  | nil => simp [put, find?]
  | cons head rest ih =>
    obtain ⟨k, v⟩ := head
    simp only [put]
    split
    · simp [find?]
    · split
      · simp [find?]
      · next differs => simp [find?, differs, ih]

/-- Putting a value changes nothing under the other keys. -/
theorem find?_put_of_ne {key other : String} (differs : other ≠ key) (value : α)
    (members : Members α) : find? other (put key value members) = find? other members := by
  induction members with
  | nil => simp [put, find?, differs]
  | cons head rest ih =>
    obtain ⟨k, v⟩ := head
    simp only [put]
    split
    · simp [find?, differs]
    · split
      · next same => subst same; simp [find?, differs]
      · simp [find?, ih]

/-- A put adds no other key than its own. -/
theorem mem_keys_put {key other : String} {value : α} {members : Members α}
    (found : other ∈ (put key value members).map Prod.fst) :
    other = key ∨ other ∈ members.map Prod.fst := by
  induction members with
  | nil => simpa [put] using found
  | cons head later ih =>
    obtain ⟨k, v⟩ := head
    simp only [put] at found
    split at found
    · simpa using found
    · split at found
      · simp only [List.map_cons, List.mem_cons] at found ⊢
        exact found.imp id .inr
      · simp only [List.map_cons, List.mem_cons] at found ⊢
        rcases found with rfl | inside
        · exact .inr (.inl rfl)
        · exact (ih inside).imp id .inr

/-- A put keeps the order of the keys. -/
theorem ordered_put {members : Members α} (ordered : members.Ordered) (key : String) (value : α) :
    (put key value members).Ordered := by
  induction members with
  | nil => simp [put, Ordered]
  | cons head later ih =>
    obtain ⟨k, v⟩ := head
    simp only [Ordered, List.map_cons, List.pairwise_cons] at ordered
    simp only [put]
    split
    · next less =>
      simp only [Ordered, List.map_cons, List.pairwise_cons, List.mem_cons]
      refine ⟨?_, ordered⟩
      rintro other (rfl | inside)
      · exact less
      · exact String.lt_trans less (ordered.1 other inside)
    · next notLess =>
      split
      · next same => subst same; exact List.pairwise_cons.2 ordered
      · next differs =>
        have less : k < key := Classical.byContradiction fun notMore =>
          differs (String.le_antisymm (String.not_lt.1 notMore) (String.not_lt.1 notLess))
        refine List.pairwise_cons.2 ⟨fun other inside => ?_, ih ordered.2⟩
        rcases mem_keys_put inside with rfl | old
        · exact less
        · exact ordered.1 other old

/-- Members put one after the other stand in the order of their keys. -/
theorem ordered_ofEntries (entries : List (String × α)) : (ofEntries entries).Ordered := by
  have general : ∀ members : Members α, members.Ordered →
      (entries.foldl (fun members entry => put entry.1 entry.2 members) members).Ordered := by
    induction entries with
    | nil => exact fun _ ordered => ordered
    | cons entry later ih =>
      exact fun members ordered => ih _ (ordered_put ordered entry.1 entry.2)
  exact general [] List.Pairwise.nil

end Members

end PathQuery
