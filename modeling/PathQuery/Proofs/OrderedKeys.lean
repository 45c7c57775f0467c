import PathQuery.Proofs.Parts
/-!
# Keys in order

An object is well-formed if its keys stand in order. Members in order are the ones that are made of
them as entries, and they stay in order when their values are replaced.
-/
namespace PathQuery

namespace Members

variable {α β : Type}

/-- A member whose key is behind all others is put behind them. -/
theorem put_of_forall_lt {members : Members α} {key : String} {value : α}
    (behind : ∀ k ∈ members.map Prod.fst, k < key) :
    put key value members = members ++ [(key, value)] := by
  induction members with
  | nil => rfl
  | cons head later ih =>
    obtain ⟨k, v⟩ := head
    obtain ⟨less, behind⟩ := List.forall_mem_cons.1 behind
    have notBefore : ¬key < k := fun before => String.lt_irrefl k (String.lt_trans less before)
    have other : key ≠ k := by
      rintro rfl
      exact String.lt_irrefl key less
    rw [put, if_neg notBefore, if_neg other, ih behind, List.cons_append]

/-- A put adds no other member than its own. -/
theorem mem_put {key : String} {value : α} {members : Members α} {entry : String × α}
    (found : entry ∈ put key value members) : entry = (key, value) ∨ entry ∈ members := by
  induction members with
  | nil => exact .inl (List.mem_singleton.1 found)
  | cons head later ih =>
    obtain ⟨k, v⟩ := head
    simp only [put] at found
    split at found
    · exact List.mem_cons.1 found
    · split at found
      · exact (List.mem_cons.1 found).imp id (List.mem_cons_of_mem _)
      · rcases List.mem_cons.1 found with rfl | inside
        · exact .inr List.mem_cons_self
        · exact (ih inside).imp id (List.mem_cons_of_mem _)

/-- The members put from some entries are among these. -/
theorem mem_of_mem_ofEntries {entries : List (String × α)} {entry : String × α}
    (found : entry ∈ ofEntries entries) : entry ∈ entries := by
  have general : ∀ members : Members α,
      entry ∈ entries.foldl (fun members entry => put entry.1 entry.2 members) members →
      entry ∈ members ∨ entry ∈ entries := by
    clear found
    induction entries with
    | nil => exact fun _ found => .inl found
    | cons first later ih =>
      intro members found
      rcases ih _ found with inside | inside
      · exact (mem_put inside).symm.imp id fun same => List.mem_cons.2 (.inl same)
      · exact .inr (List.mem_cons_of_mem _ inside)
  exact (general [] found).resolve_left nofun

/-- In order, the next member is put behind those before it. -/
theorem Ordered.put_next {before later : Members α} {key : String} {value : α}
    (ordered : Ordered (before ++ (key, value) :: later)) :
    put key value before = before ++ [(key, value)] := by
  rw [Ordered, List.map_append, List.pairwise_append] at ordered
  exact put_of_forall_lt fun k member => ordered.2.2 k member key List.mem_cons_self

/-- The members with other values under the same keys. -/
def mapValues (f : α → β) (members : Members α) : Members β :=
  members.map fun member => (member.1, f member.2)

/-- Other values leave the order of the keys as it is. -/
theorem ordered_mapValues {f : α → β} {members : Members α} :
    (members.mapValues f).Ordered ↔ members.Ordered := by
  rw [Ordered, Members.mapValues, List.map_map]
  rfl

/-- The other value is found under the same key. -/
theorem find?_mapValues (f : α → β) (key : String) (members : Members α) :
    find? key (members.mapValues f) = (find? key members).map f := by
  induction members with
  | nil => rfl
  | cons first later ih =>
    rw [mapValues, List.map_cons, find?, find?, ← mapValues, ih]
    split <;> rfl

/-- Members in order are the ones that are made of them as entries. -/
theorem Ordered.ofEntries_eq {members : Members α} (ordered : members.Ordered) :
    ofEntries members = members := by
  have general : ∀ before : Members α, Ordered (before ++ members) →
      members.foldl (fun made entry => put entry.1 entry.2 made) before = before ++ members := by
    clear ordered
    induction members with
    | nil => exact fun before _ => (List.append_nil before).symm
    | cons entry later ih =>
      intro before ordered
      obtain ⟨key, value⟩ := entry
      rw [List.foldl_cons, ordered.put_next, ih _ (by simpa using ordered), List.append_assoc]
      rfl
  exact general [] ordered

end Members

namespace Node

/-- The members of an object stand in the order of their keys; other nodes have none. -/
def HasOrderedKeys : Node → Prop
  | object members => Members.Ordered members
  | _ => True

/-- Every part of an object that is made of entries has a property when the object and every part
of the entries have it. -/
theorem everywhere_ofEntries {P : Node → Prop} {entries : List (String × Node)}
    (own : P (ofEntries entries)) (inside : ∀ entry ∈ entries, entry.2.Everywhere P) :
    (ofEntries entries).Everywhere P := by
  refine everywhere_iff.2 ⟨own, fun value member => ?_⟩
  obtain ⟨entry, found, rfl⟩ := List.mem_map.1 member
  exact inside entry (Members.mem_of_mem_ofEntries found)

end Node

end PathQuery
