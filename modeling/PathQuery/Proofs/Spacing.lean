import PathQuery.Proofs.Moving
import PathQuery.Proofs.Surroundings
/-!
# Blanks between tokens

Blanks can be put in wherever a text is between tokens. The tokens before that place are scanned as
they were: a blank goes on with none of them, so no scan misses what it looked at behind a token.
The lexer skips the blanks, and behind them it knows what it knew before. All that changes are the
places, and with them those of the expression or of the error.
-/
namespace PathQuery

/-- The text with some more characters put in at an offset. -/
def Text.insert (text : String) (p : Nat) (more : String) : String :=
  String.ofList (text.toList.take p ++ (more.toList ++ text.toList.drop p))

/-- Where an offset is moved to when some characters are put in: they stand in front of those that
stood at their place or behind it. -/
def Text.spread (p count : Nat) (position : Nat) : Nat :=
  if position < p then position else position + count

/-- What stands before a place is not moved. -/
theorem Text.spread_of_lt {p count position : Nat} (before : position < p) :
    spread p count position = position :=
  if_pos before

/-- What stands at a place or behind it is moved. -/
theorem Text.spread_of_le {p count position : Nat} (behind : p ≤ position) :
    spread p count position = position + count :=
  if_neg (Nat.not_lt.2 behind)

/-- A blank goes on with no token. -/
theorem Token.continuesToken_of_isBlank {c : Char} (blank : Text.isBlank c = true) :
    continuesToken c = false := by
  have other {d : Char} (visible : Text.isBlank d = false) : c ≠ d := by
    rintro rfl
    exact Bool.false_ne_true (visible.symm.trans blank)
  have noLetter : Text.isAlphabetic c = false := Bool.eq_false_iff.2 fun letter =>
    Bool.false_ne_true ((Text.not_isBlank_of_isAlphabetic letter).symm.trans blank)
  have noNumeral : Text.isNumeric c = false := Bool.eq_false_iff.2 fun numeral =>
    Bool.false_ne_true ((Text.not_isBlank_of_isNumeric numeral).symm.trans blank)
  have noLine : c ≠ '_' := other (by decide)
  have noDash : c ≠ '-' := other (by decide)
  have noPoint : c ≠ '.' := other (by decide)
  simp [continuesToken, continuesName, Text.isAlphanumeric, noLetter, noNumeral, noLine, noDash,
    noPoint]

namespace Lexer

open Token (Ends continuesToken)
open Text (spread)

variable {text front tail blanks : List Char} {p : Nat} {dotted : Bool} {s : TokenStream}

/-! ## Blanks in front of a lexer -/

/-- Blanks in front change nothing but the offset. -/
theorem skipBlank_append (blank : ∀ c ∈ front, Text.isBlank c = true) (tail : List Char) (p : Nat)
    (dotted : Bool) : (Lexer.mk (front ++ tail) p dotted).skipBlank =
      (Lexer.mk tail (p + front.length) dotted).skipBlank := by
  induction front generalizing p with
  | nil => rfl
  | cons c later ih =>
    obtain ⟨first, others⟩ := List.forall_mem_cons.1 blank
    have behind := ih others (p + 1)
    rw [Nat.add_assoc, Nat.add_comm 1] at behind
    exact (skipBlank_blank rfl first).trans behind

/-- Where not only blanks are in front, the lexer stops skipping at another character of these. -/
theorem exists_skipBlank (visible : ¬ ∀ c ∈ front, Text.isBlank c = true) :
    ∃ c cs width, width + (c :: cs).length = front.length ∧
      ∀ tail p dotted, (Lexer.mk (front ++ tail) p dotted).skipBlank =
        ⟨c :: (cs ++ tail), p + width, dotted⟩ := by
  have split : front.takeWhile Text.isBlank ++ front.dropWhile Text.isBlank = front :=
    List.takeWhile_append_dropWhile
  have blank : ∀ c ∈ front.takeWhile Text.isBlank, Text.isBlank c = true :=
    List.all_eq_true.1 List.all_takeWhile
  have stops := Token.ends_dropWhile Text.isBlank front
  generalize front.takeWhile Text.isBlank = blanks at split blank
  cases left : front.dropWhile Text.isBlank with
  | nil =>
    rw [left, List.append_nil] at split
    exact absurd (split ▸ blank) visible
  | cons c cs =>
    rw [left] at split stops
    have starts : Text.isBlank c = false := Token.ends_cons.1 stops
    refine ⟨c, cs, blanks.length, ?_, fun tail p dotted => ?_⟩
    · rw [← split, List.length_append]
    · rw [← split, List.append_assoc, skipBlank_append blank]
      exact skipBlank_of_ends (Token.ends_cons.2 starts)

/-! ## Blanks put in -/

/-- Behind blanks only, all tokens are moved by blanks that are put in. -/
theorem tokens_insert_of_blank (before : ∀ c ∈ front, Text.isBlank c = true)
    (blank : ∀ c ∈ blanks, Text.isBlank c = true)
    (stands : (Lexer.mk (front ++ tail) p dotted).At text)
    (read : (Lexer.mk (front ++ tail) p dotted).tokens = .ok s) :
    (Lexer.mk (front ++ (blanks ++ tail)) p dotted).tokens =
      .ok (s.moved (spread (p + front.length) blanks.length)) := by
  let l : Lexer := ⟨tail, p + front.length, dotted⟩
  have stands : l.At text := by
    have moved := stands.advance (List.prefix_append front tail).length_le
    rwa [advance, List.drop_left] at moved
  have tokens : l.tokens = .ok s :=
    (tokens_eq_of_skipBlank_eq (skipBlank_append before tail p dotted)).symm.trans read
  have place : ∀ found ∈ s.toList, spread (p + front.length) blanks.length found.position =
      found.position + blanks.length := fun found member =>
    Text.spread_of_le ((stands.ascending tokens).1 found member)
  have same : (Lexer.mk (front ++ (blanks ++ tail)) p dotted).skipBlank =
      (l.within blanks.length []).skipBlank := by
    rw [skipBlank_append before, skipBlank_append blank, within, List.append_nil]
  have ended (dotted : Bool) : (Lexer.mk [] (s.finish + blanks.length) dotted).tokens =
      .ok ⟨[], s.finish + blanks.length⟩ := by
    obtain ⟨after, next⟩ := next_of_nil (rfl : (Lexer.mk [] _ dotted).rest = [])
    exact tokens_of_end next
  rw [tokens_eq_of_skipBlank_eq same, tokens_within tokens Token.ends_nil Token.ends_nil ended,
    List.append_nil, TokenStream.moved]
  have finish := place ⟨.endOfInput, s.finish⟩ (List.mem_append_right _ (List.mem_singleton_self _))
  have all : s.tokens.map (·.shift blanks.length) =
      s.tokens.map (·.moved (spread (p + front.length) blanks.length)) := by
    refine List.map_congr_left fun found member => ?_
    rw [Located.shift, Located.moved, place found (List.mem_append_left _ member)]
  rw [all, finish]

/-- A token that ends in front is the next one in front of any text that goes on with no token. -/
theorem next_front {found : Located} (visible : ¬ ∀ c ∈ front, Text.isBlank c = true)
    (read : (Lexer.mk (front ++ tail) p dotted).next.1 = .ok found)
    (apart : p + front.length ≤ found.position ∨
      (Lexer.mk (front ++ tail) p dotted).next.2.position ≤ p + front.length) :
    found.position < p + front.length ∧ ∃ left q, q + left.length = p + front.length ∧
      ∀ other, other = tail ∨ Ends continuesToken other →
        (Lexer.mk (front ++ other) p dotted).next =
          (.ok found, ⟨left ++ other, q, found.token == .dot⟩) := by
  obtain ⟨c, cs, width, total, here⟩ := exists_skipBlank visible
  have answers := answers_next (Lexer.mk (front ++ tail) p dotted)
  generalize (Lexer.mk (front ++ tail) p dotted).next.2 = behind at answers apart
  rw [read] at answers
  cases answers with
  | @token token count scanned within =>
    simp only [here, advance, List.length_cons] at scanned apart total ⊢
    have fits : count ≤ (c :: cs).length := by
      rw [List.length_cons]
      omega
    refine ⟨by omega, (c :: cs).drop count, p + width + count, ?_, fun other follows => ?_⟩
    · simp only [List.length_drop, List.length_cons] at fits ⊢
      omega
    · have scannedOn : Token.scan (!dotted) (Lexer.mk (front ++ other) p dotted).skipBlank.rest =
          .token token count := by
        rw [here]
        rcases follows with rfl | ends
        · exact scanned
        · exact Token.scan_front scanned fits ends
      rw [next_of_scan_skipBlank scannedOn, here, advance, ← List.cons_append,
        List.drop_append_of_le_length fits]

/-- Between tokens, blanks that are put in move the tokens behind and no others. -/
theorem tokens_insert (some : blanks ≠ []) (blank : ∀ c ∈ blanks, Text.isBlank c = true)
    (stands : (Lexer.mk (front ++ tail) p dotted).At text)
    (read : (Lexer.mk (front ++ tail) p dotted).tokens = .ok s)
    (apart : ∀ i found, s.tokens[i]? = .some found → p + front.length ≤ found.position ∨
      ((Lexer.mk (front ++ tail) p dotted).after (i + 1)).position ≤ p + front.length) :
    (Lexer.mk (front ++ (blanks ++ tail)) p dotted).tokens =
      .ok (s.moved (spread (p + front.length) blanks.length)) := by
  have ends : Ends continuesToken (blanks ++ tail) := by
    obtain ⟨c, others, rfl⟩ := List.exists_cons_of_ne_nil some
    exact Token.ends_cons.2 (Token.continuesToken_of_isBlank (blank c List.mem_cons_self))
  obtain ⟨tokens, finish⟩ := s
  -- by induction on the tokens; the first of them ends in front as long as some of it is there
  induction tokens generalizing front p dotted with
  | nil =>
    by_cases before : ∀ c ∈ front, Text.isBlank c = true
    · exact tokens_insert_of_blank before blank stands read
    · obtain ⟨c, cs, width, -, here⟩ := exists_skipBlank before
      have next := next_of_tokens_nil read
      have none := skipBlank_of_end (next ▸ answers_next _)
      rw [here] at none
      cases none
  | cons found later ih =>
    by_cases before : ∀ c ∈ front, Text.isBlank c = true
    · exact tokens_insert_of_blank before blank stands read
    · obtain ⟨next, inside, rest⟩ := next_of_tokens_cons read
      obtain ⟨first, left, q, total, further⟩ := next_front before next (apart 0 found rfl)
      have moved := (stands.answered (answers_next _)).1
      have here := further tail (.inl rfl)
      have behind : ∀ i other, later[i]? = Option.some other → q + left.length ≤ other.position ∨
          ((Lexer.mk (left ++ tail) q (found.token == .dot)).after (i + 1)).position ≤
            q + left.length := by
        intro i other there
        have next := apart (i + 1) other there
        rwa [after, here, ← total] at next
      rw [here] at rest moved
      have others := ih moved rest behind
      rw [total] at others
      rw [tokens_of_next (further _ (.inr ends)) inside others, TokenStream.moved,
        TokenStream.moved, List.map_cons, Located.moved, Text.spread_of_lt first]

end Lexer

/-! ## Places between tokens -/

namespace TokenStream

variable {text : String} {s : TokenStream} {p : Nat}

/-- An offset between the tokens of a text: at one of its ends, or where a token starts or ends. -/
inductive Boundary (text : String) (s : TokenStream) : Nat → Prop where
  /-- The start of the text. -/
  | start : Boundary text s 0
  /-- The end of the text. -/
  | finish : Boundary text s text.length
  /-- In front of a token. -/
  | before {i : Nat} {found : Located} (here : s.tokens[i]? = some found) :
    Boundary text s found.position
  /-- Behind a token. -/
  | behind {i : Nat} {found : Located} (here : s.tokens[i]? = some found) :
    Boundary text s (stop text (i + 1))

/-- The lexer never goes back. -/
theorem stop_mono (text : String) {i j : Nat} (order : i ≤ j) : stop text i ≤ stop text j := by
  induction order with
  | refl => exact Nat.le_refl _
  | @step j _ before =>
    have stands := (Lexer.at_ofText text).after j
    have forward := (stands.answered (Lexer.answers_next _)).2
    have last : stop text (j + 1) = ((Lexer.ofText text).after j).next.2.position := by
      rw [stop, Lexer.after_add]
      rfl
    exact Nat.le_trans before (last ▸ forward)

/-- The lexer never goes beyond the text. -/
theorem stop_le (text : String) (i : Nat) : stop text i ≤ text.length := by
  rw [← String.length_toList]
  exact ((Lexer.at_ofText text).after i).inside

/-- A token stands between two stops of the lexer. -/
theorem stop_le_position (read : ofText text = .ok s) {i : Nat} {found : Located}
    (here : s.tokens[i]? = some found) :
    stop text i ≤ found.position ∧ found.position < stop text (i + 1) := by
  obtain ⟨short, _⟩ := List.getElem?_eq_some_iff.1 here
  have partitions := partitions_of_ofText read
  have next := partitions.answers i found ((List.getElem?_append_left short).trans here)
  exact ⟨Lexer.position_le_of_next next, (partitions.alone i found here).1⟩

/-- A place between tokens is one of the text. -/
theorem Boundary.le_length (boundary : Boundary text s p) (read : ofText text = .ok s) :
    p ≤ text.length := by
  cases boundary with
  | start => exact Nat.zero_le _
  | finish => exact Nat.le_refl _
  | before here => exact Nat.le_trans (Nat.le_of_lt (stop_le_position read here).2) (stop_le text _)
  | behind here => exact stop_le text _

/-- A place between tokens lies in none of them. -/
theorem Boundary.apart (boundary : Boundary text s p) (read : ofText text = .ok s) {i : Nat}
    {found : Located} (here : s.tokens[i]? = some found) :
    p ≤ found.position ∨ stop text (i + 1) ≤ p := by
  obtain ⟨low, high⟩ := stop_le_position read here
  cases boundary with
  | start => exact .inl (Nat.zero_le _)
  | finish => exact .inr (stop_le text _)
  | @before j other there =>
    obtain ⟨lower, higher⟩ := stop_le_position read there
    rcases Nat.lt_trichotomy i j with less | rfl | more
    · exact .inr (Nat.le_trans (stop_mono text less) lower)
    · obtain rfl := Option.some.inj (here.symm.trans there)
      exact .inl (Nat.le_refl _)
    · exact .inl (Nat.le_trans (Nat.le_of_lt higher) (Nat.le_trans (stop_mono text more) low))
  | @behind j other there =>
    rcases Nat.lt_or_ge j i with less | more
    · exact .inl (Nat.le_trans (stop_mono text less) low)
    · exact .inr (stop_mono text (Nat.succ_le_succ more))

/-- Blanks between tokens move the tokens behind them and no others. -/
theorem ofText_insert {blanks : String} (read : ofText text = .ok s)
    (boundary : Boundary text s p) (blank : ∀ c ∈ blanks.toList, Text.isBlank c = true) :
    ofText (Text.insert text p blanks) = .ok (s.moved (Text.spread p blanks.length)) := by
  have front : 0 + (text.toList.take p).length = p := by
    have inside := boundary.le_length read
    rw [← String.length_toList] at inside
    rw [Nat.zero_add, List.length_take, Nat.min_eq_left inside]
  have whole : Lexer.mk (text.toList.take p ++ text.toList.drop p) 0 false = Lexer.ofText text := by
    rw [List.take_append_drop]
    rfl
  rw [ofText, Lexer.ofText, Text.insert, String.toList_ofList]
  by_cases none : blanks.toList = []
  · have still : Text.spread p blanks.length = id := by
      funext position
      rw [← String.length_toList, none, Text.spread]
      exact ite_self position
    have same : s.moved id = s := by
      rw [moved, show (fun found : Located => found.moved id) = id from rfl, List.map_id]
      rfl
    rw [none, List.nil_append, whole, still, same]
    exact read
  · have stands := Lexer.at_ofText text
    have moved := Lexer.tokens_insert none blank (whole ▸ stands) (whole ▸ read) fun i found here =>
      front.symm ▸ whole.symm ▸ boundary.apart read here
    rwa [front, String.length_toList] at moved

/-! ## What blanks leave alone -/

/-- What a text is when blanks are put in at an offset: the same tokens, and the same expression or
error, with the places moved from there on. -/
structure Spaced (text : String) (s : TokenStream) (p : Nat) (blanks : String) : Prop where
  /-- The tokens at the offset or behind it are moved by the number of blanks, and no others. -/
  tokens : ofText (Text.insert text p blanks) = .ok (s.moved (Text.spread p blanks.length))
  /-- An expression is the same up to its places, which are moved as the tokens are. -/
  expr : ∀ e, Expr.ofText text = .ok e →
    Expr.ofText (Text.insert text p blanks) = .ok (e.moved (Text.spread p blanks.length)) ∧
      (e.moved (Text.spread p blanks.length)).unplaced = e.unplaced
  /-- An error is the same at its moved place. -/
  error : ∀ e, Expr.ofText text = .error e →
    Expr.ofText (Text.insert text p blanks) = .error (e.moved (Text.spread p blanks.length))

/-- Between the tokens of a text, and at its ends, blanks can be put in: the tokens are the same
ones, and so is what they are parsed to. -/
theorem spaced_of_boundary {blanks : String} (read : ofText text = .ok s)
    (boundary : Boundary text s p) (blank : ∀ c ∈ blanks.toList, Text.isBlank c = true) :
    s.Spaced text p blanks := by
  have tokens := ofText_insert read boundary blank
  have parsed : Expr.ofText (Text.insert text p blanks) =
      Parser.Reading.movedResult (Text.spread p blanks.length)
        (·.moved (Text.spread p blanks.length)) s.parse.1 := by
    rw [← parse_moved, Expr.ofText, tokens]
  have before : Expr.ofText text = s.parse.1 := by
    rw [Expr.ofText, read]
  refine ⟨tokens, fun e same => ⟨?_, e.unplaced_moved _⟩, fun e same => ?_⟩
  · rw [parsed, ← before, same]
    rfl
  · rw [parsed, ← before, same]
    rfl

/-- Blanks behind the first index keep it an index and move the second; blanks in front of a path
move the error that is behind it. -/
theorem spaced_of_boundary_indices :
    let s : TokenStream := ⟨[⟨.identifier "a", 0⟩, ⟨.dot, 1⟩, ⟨.integer 0, 2⟩, ⟨.dot, 3⟩,
      ⟨.integer 5, 4⟩], 5⟩
    let t : TokenStream := ⟨[⟨.identifier "a", 0⟩, ⟨.identifier "b", 2⟩], 3⟩
    ofText "a.0.5" = .ok s ∧ Boundary "a.0.5" s 3 ∧ ofText "a b" = .ok t ∧
      ofText "a.0 \t.5" = .ok ⟨[⟨.identifier "a", 0⟩, ⟨.dot, 1⟩, ⟨.integer 0, 2⟩, ⟨.dot, 5⟩,
        ⟨.integer 5, 6⟩], 7⟩ ∧
      Expr.ofText "a.0 \t.5" = .ok (.index 5 (.index 1 (.named 0 (.root 0) "a") 0) 5) ∧
      Expr.ofText "a b" = .error (.unexpected .endOfInput ⟨.identifier "b", 2⟩) ∧
      Expr.ofText "  a b" = .error (.unexpected .endOfInput ⟨.identifier "b", 4⟩) := by
  intro s t
  have read : ofText "a.0.5" = .ok s := ofText_of_toOption (by decide +kernel)
  have readNames : ofText "a b" = .ok t := ofText_of_toOption (by decide +kernel)
  have behind : Boundary "a.0.5" s 3 := by
    have place : stop "a.0.5" 3 = 3 := by decide +kernel
    exact place ▸ Boundary.behind (i := 2) rfl
  have spaced : s.Spaced "a.0.5" 3 " \t" := spaced_of_boundary read behind (List.all_eq_true.1 rfl)
  have spacedNames : t.Spaced "a b" 0 "  " :=
    spaced_of_boundary readNames .start (List.all_eq_true.1 rfl)
  have failed : Expr.ofText "a b" = .error (.unexpected .endOfInput ⟨.identifier "b", 2⟩) := by
    rw [Expr.ofText, readNames]
    with_unfolding_all rfl
  have path : Expr.ofText "a.0.5" = .ok (.index 3 (.index 1 (.named 0 (.root 0) "a") 0) 5) := by
    rw [Expr.ofText, read]
    with_unfolding_all rfl
  exact ⟨read, behind, readNames, spaced.tokens, (spaced.expr _ path).1, failed,
    spacedNames.error _ failed⟩

end TokenStream

end PathQuery
