import PathQuery.Proofs.Descent
import Mathlib.Data.List.Forall2
import Mathlib.Data.List.Induction
/-!
# Objects from entries

An object is made of entries in any order, and of entries with one key the last one counts. So all
that matters of the entries is the last value of every key: the object holds it under the key, its
keys stand in increasing order, and entries with the same last values make the same object.
-/
namespace PathQuery

namespace Members

variable {α β : Type}

/-- The value that was last paired with a key, if the key occurs. -/
def last? (key : String) (entries : List (String × α)) : Option α :=
  ((entries.filter fun entry => entry.1 = key).map Prod.snd).getLast?

/-- An entry behind others has the last value of its key, and of no other key. -/
theorem last?_concat (key : String) (entries : List (String × α)) (entry : String × α) :
    last? key (entries ++ [entry]) = if entry.1 = key then some entry.2 else last? key entries := by
  unfold last?
  split
  · next same => simp [same]
  · next differs => simp [differs]

/-- The entry behind others is the last one to be put. -/
theorem ofEntries_concat (entries : List (String × α)) (entry : String × α) :
    ofEntries (entries ++ [entry]) = put entry.1 entry.2 (ofEntries entries) := by
  simp [ofEntries]

/-- Of entries, the last value of every key is found under it. -/
theorem find?_ofEntries (key : String) (entries : List (String × α)) :
    find? key (ofEntries entries) = last? key entries := by
  -- the last entry put is the one that decides, so the induction takes entries off the end
  induction entries using List.reverseRec with
  | nil => rfl
  | append_singleton entries entry ih =>
    rw [ofEntries_concat, last?_concat]
    split
    · next same => rw [same, find?_put_self]
    · next differs => rw [find?_put_of_ne (Ne.symm differs), ih]

/-- A value is found under the keys that members have, and under no others. -/
theorem isSome_find?_iff {key : String} {members : Members α} :
    (find? key members).isSome = true ↔ key ∈ members.map Prod.fst := by
  induction members with
  | nil => simp [find?]
  | cons first later ih =>
    obtain ⟨k, v⟩ := first
    by_cases same : key = k
    · simp [find?, same]
    · simp [find?, same, ih]

/-- A key has a last value exactly if it occurs. -/
theorem isSome_last?_iff {key : String} {entries : List (String × α)} :
    (last? key entries).isSome = true ↔ key ∈ entries.map Prod.fst := by
  rw [last?, List.getLast?_isSome, Ne, List.map_eq_nil_iff, List.filter_eq_nil_iff]
  simp

/-- Nothing is found under a key that stands before all others. -/
theorem find?_of_forall_lt {key : String} {members : Members α}
    (before : ∀ k ∈ members.map Prod.fst, key < k) : find? key members = none := by
  rw [← Option.not_isSome_iff_eq_none, isSome_find?_iff]
  exact fun occurs => String.lt_irrefl key (before key occurs)

/-- Under a key that stands before the first of members in order nothing is found. -/
theorem Ordered.not_lt_of_isSome {members : Members α} {key first : String} {value : α}
    (ordered : Ordered ((first, value) :: members))
    (found : (find? key ((first, value) :: members)).isSome = true) : ¬ key < first := by
  intro less
  rcases List.mem_cons.1 (isSome_find?_iff.1 found) with rfl | behind
  · exact String.lt_irrefl _ less
  · exact String.lt_irrefl key
      (String.lt_trans less ((List.pairwise_cons.1 ordered).1 key behind))

/-- Of two related results there is either both or none. -/
theorem isSome_iff_of_rel {R : α → β → Prop} {x : Option α} {y : Option β}
    (related : Option.Rel R x y) : x.isSome = true ↔ y.isSome = true := by
  cases related with
  | some | none => simp

/-- Members in order have the same keys, and values that are related one by one, if what is found
under every key is. -/
theorem Ordered.forall₂ {R : α → β → Prop} {members : Members α} {others : Members β}
    (ordered : members.Ordered) (ordered' : others.Ordered)
    (related : ∀ key, Option.Rel R (find? key members) (find? key others)) :
    List.Forall₂ (fun a b => a.1 = b.1 ∧ R a.2 b.2) members others := by
  induction members generalizing others with
  | nil =>
    cases others with
    | nil => exact .nil
    | cons head rest =>
      have found := related head.1
      simp only [find?, if_true] at found
      cases found
  | cons first later ih =>
    obtain ⟨k, v⟩ := first
    cases others with
    | nil =>
      have found := related k
      simp only [find?, if_true] at found
      cases found
    | cons head rest =>
      obtain ⟨l, w⟩ := head
      -- a first key that stood before the other would be found on one side only
      have here : (find? l ((k, v) :: later)).isSome = true :=
        (isSome_iff_of_rel (related l)).2 (by simp [find?])
      have there : (find? k ((l, w) :: rest)).isSome = true :=
        (isSome_iff_of_rel (related k)).1 (by simp [find?])
      obtain rfl : k = l := String.le_antisymm (String.not_lt.1 (ordered.not_lt_of_isSome here))
        (String.not_lt.1 (ordered'.not_lt_of_isSome there))
      obtain ⟨least, ordered⟩ := List.pairwise_cons.1 ordered
      obtain ⟨least', ordered'⟩ := List.pairwise_cons.1 ordered'
      have values := related k
      simp only [find?, if_true] at values
      refine .cons ⟨rfl, by cases values; assumption⟩ (ih ordered ordered' fun key => ?_)
      by_cases same : key = k
      · rw [same, find?_of_forall_lt least, find?_of_forall_lt least']
        exact .none
      · have behind := related key
        simp only [find?, if_neg same] at behind
        exact behind

/-- Members in order are told by what is found under every key. -/
theorem Ordered.ext {members others : Members α} (ordered : members.Ordered)
    (ordered' : others.Ordered) (same : ∀ key, find? key members = find? key others) :
    members = others := by
  have related : ∀ key, Option.Rel Eq (find? key members) (find? key others) := by
    intro key
    rw [same]
    cases find? key others with
    | none => exact .none
    | some => exact .some rfl
  have pairs := (ordered.forall₂ ordered' related).imp fun _ _ both => Prod.ext both.1 both.2
  rwa [List.forall₂_eq_eq_eq] at pairs

/-- Entries make the same members exactly if every key has the same last value. -/
theorem ofEntries_eq_iff {entries others : List (String × α)} :
    ofEntries entries = ofEntries others ↔ ∀ key, last? key entries = last? key others := by
  constructor
  · intro same key
    rw [← find?_ofEntries, ← find?_ofEntries, same]
  · intro same
    refine (ordered_ofEntries entries).ext (ordered_ofEntries others) fun key => ?_
    rw [find?_ofEntries, find?_ofEntries, same]

end Members

namespace Node

open Members (last?)

/-- A node is the object that holds the last values of the keys of some entries. -/
structure Collects (n : Node) (entries : List (String × Node)) : Prop where
  /-- Its keys are those of the entries, each of them once and in increasing order, with the last
  values. -/
  members : ∃ keys : List String, keys.Pairwise (· < ·) ∧
    (∀ key, key ∈ keys ↔ key ∈ entries.map Prod.fst) ∧
    n = .object (keys.filterMap fun key => (last? key entries).map (key, ·))
  /-- The last value of a key is found under it, and nothing under a key that does not occur. -/
  member : ∀ key, n.member key = (last? key entries).getD .missing
  /-- It has the keys that occur. -/
  hasKey : ∀ key, n.hasKey key = true ↔ key ∈ entries.map Prod.fst

/-- The members made of entries are the last values of the keys in increasing order. -/
theorem exists_keys_ofEntries (entries : List (String × Node)) : ∃ keys : List String,
    keys.Pairwise (· < ·) ∧ (∀ key, key ∈ keys ↔ key ∈ entries.map Prod.fst) ∧
      Members.ofEntries entries = keys.filterMap fun key => (last? key entries).map (key, ·) := by
  have ordered := Members.ordered_ofEntries entries
  refine ⟨(Members.ofEntries entries).map Prod.fst, ordered, fun key => ?_, ?_⟩
  · rw [← Members.isSome_find?_iff, Members.find?_ofEntries, Members.isSome_last?_iff]
  · have found : ∀ member ∈ Members.ofEntries entries,
        (last? member.1 entries).map (member.1, ·) = some member := by
      rintro ⟨key, value⟩ inside
      rw [← Members.find?_ofEntries, (mem_iff_find? ordered).1 inside, Option.map_some]
    rw [List.filterMap_map]
    exact ((List.filterMap_congr found).trans List.filterMap_some).symm

/-- Entries make the object that holds their last values. -/
theorem collects_ofEntries (entries : List (String × Node)) :
    (ofEntries entries).Collects entries where
  members := by
    obtain ⟨keys, ordered, occur, same⟩ := exists_keys_ofEntries entries
    exact ⟨keys, ordered, occur, congrArg object same⟩
  member key := congrArg (Option.getD · missing) (Members.find?_ofEntries key entries)
  hasKey key := by
    rw [hasKey, ofEntries, member?, Members.find?_ofEntries, Members.isSome_last?_iff]

/-- Members with the same keys and equal values are equal. -/
theorem sameMembers_of_forall₂ {members others : List (String × Node)}
    (equal : List.Forall₂ (fun a b => a.1 = b.1 ∧ (a.2 == b.2) = true) members others) :
    sameMembers members others = true := by
  induction equal with
  | nil => rfl
  | @cons first other _ _ both _ ih =>
    obtain ⟨k, a⟩ := first
    obtain ⟨l, b⟩ := other
    obtain ⟨rfl, equal⟩ := both
    simp only [sameMembers, beq_self_eq_true, Bool.true_and, Bool.and_eq_true]
    exact ⟨equal, ih⟩

/-- An object holds the last values of its entries, in the order of the keys. So entries make the
same object exactly if every key has the same last value in both, and equal objects if the last
values are equal. The same objects have the same children and the same text in either layout, and
every expression gives the same result on them. -/
theorem ofEntries_eq_iff_last (entries others : List (String × Node)) :
    (ofEntries entries).Collects entries ∧
    (ofEntries entries = ofEntries others ↔ ∀ key, last? key entries = last? key others) ∧
    ((∀ key, Option.Rel (fun a b => (a == b) = true) (last? key entries) (last? key others)) →
      (ofEntries entries == ofEntries others) = true) ∧
    ((∀ key, last? key entries = last? key others) →
      (ofEntries entries).children = (ofEntries others).children ∧
      (∀ e : Expr, e.eval (ofEntries entries) = e.eval (ofEntries others)) ∧
      ∀ layout, (ofEntries entries).render layout = (ofEntries others).render layout) := by
  have same_iff : ofEntries entries = ofEntries others ↔
      ∀ key, last? key entries = last? key others := by
    rw [← Members.ofEntries_eq_iff, ofEntries, ofEntries, object.injEq]
  refine ⟨collects_ofEntries entries, same_iff, fun related => ?_, fun same => ?_⟩
  · refine sameMembers_of_forall₂ ?_
    refine (Members.ordered_ofEntries entries).forall₂ (R := fun a b => (a == b) = true)
      (Members.ordered_ofEntries others) fun key => ?_
    rw [Members.find?_ofEntries, Members.find?_ofEntries]
    exact related key
  · rw [same_iff.2 same]
    exact ⟨rfl, fun _ => rfl, fun _ => rfl⟩

/-- Lists of entries with keys in different orders, one of them with a key three times, make the
same object, in which the wildcard finds the last values in the order of the keys. Entries with the
two zeros make equal objects. -/
theorem ofEntries_eq_iff_last_repeated :
    let entries := [("b", integer 1), ("a", missing), ("b", null), ("b", string "x")]
    let others := [("b", string "x"), ("a", missing)]
    (∀ key, last? key entries = last? key others) ∧ ofEntries entries = ofEntries others ∧
      (Expr.wildcard 1 (.root 0)).eval (ofEntries entries) =
        .ok (.vector [missing, string "x"]) ∧
      (ofEntries [("a", float 0.0)] == ofEntries [("a", float (-0.0))]) = true := by
  intro entries others
  have same : ∀ key, last? key entries = last? key others := by
    intro key
    by_cases b : "b" = key
    · subst b
      rfl
    · by_cases a : "a" = key
      · subst a
        rfl
      · simp [last?, entries, others, a, b]
  have zeros : ∀ key, Option.Rel (fun a b => (a == b) = true) (last? key [("a", float 0.0)])
      (last? key [("a", float (-0.0))]) := by
    intro key
    by_cases a : "a" = key
    · subst a
      exact .some (by decide +kernel)
    · have none : ∀ value : Node, last? key [("a", value)] = none := fun value => by
        simp [last?, a]
      rw [none, none]
      exact .none
  obtain ⟨-, same_iff, -, observed⟩ := ofEntries_eq_iff_last entries others
  refine ⟨same, same_iff.2 same, ?_, (ofEntries_eq_iff_last _ _).2.2.1 zeros⟩
  rw [(observed same).2.1]
  rfl

end Node

end PathQuery
