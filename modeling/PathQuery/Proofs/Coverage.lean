import PathQuery.Proofs.Extent
import PathQuery.Proofs.FloatText
/-!
# Tokens and the text they come from

A lexer stands at an offset of its text, and every call moves it on: over blanks, and over the
characters of a token or of a fault. So the tokens of a text take it apart, with nothing but blanks
between them, and each of them is told by its own characters. However often a lexer is asked, and
whatever it answered before, it stays within its text.
-/
namespace PathQuery

/-- The characters of a text from an offset up to another one. -/
def Text.span (text : List Char) (start stop : Nat) : List Char :=
  (text.drop start).take (stop - start)

namespace Lexer

/-- The lexer after it was asked for the next token some times, faults included. -/
def after (l : Lexer) : Nat → Lexer
  | 0 => l
  | count + 1 => l.next.2.after count

/-- Asking goes on where it stopped. -/
theorem after_add (l : Lexer) (first later : Nat) :
    l.after (first + later) = (l.after first).after later := by
  induction first generalizing l with
  | zero => rw [Nat.zero_add, after]
  | succ first ih =>
    rw [Nat.add_right_comm, after, after, ih]

/-! ## One call -/

/-- The lexer stands at its offset of the text. -/
structure At (l : Lexer) (text : List Char) : Prop where
  /-- The offset does not lie behind the text. -/
  inside : l.position ≤ text.length
  /-- The characters from the offset on are left. -/
  rest : l.rest = text.drop l.position

variable {l behind : Lexer} {text : List Char}

/-- The characters before the offset and those that are left are all there are. -/
theorem At.length (stands : l.At text) : l.position + l.rest.length = text.length := by
  have inside := stands.inside
  rw [stands.rest, List.length_drop]
  omega

/-- At the start of a text a lexer stands in it. -/
theorem at_ofText (source : String) : (ofText source).At source.toList :=
  ⟨Nat.zero_le _, rfl⟩

/-- A lexer that moves over characters that are left stands in its text. -/
theorem At.advance (stands : l.At text) {count : Nat} (some : count ≤ l.rest.length) :
    (l.advance count).At text where
  inside := by
    have length := stands.length
    simp only [Lexer.advance]
    omega
  rest := by
    simp only [Lexer.advance]
    rw [stands.rest, List.drop_drop]

/-- Behind the blanks a lexer stands in its text. -/
theorem At.skipBlank (stands : l.At text) : l.skipBlank.At text :=
  stands.advance (List.takeWhile_prefix Text.isBlank).length_le

/-- The characters that a lexer skips are blanks. -/
theorem At.blank_span (stands : l.At text) :
    ∀ c ∈ Text.span text l.position l.skipBlank.position, Text.isBlank c = true := by
  have skipped : Text.span text l.position l.skipBlank.position =
      l.rest.takeWhile Text.isBlank := by
    have width : l.skipBlank.position - l.position = (l.rest.takeWhile Text.isBlank).length :=
      Nat.add_sub_cancel_left ..
    rw [Text.span, width, ← stands.rest]
    exact (List.prefix_iff_eq_take.1 (List.takeWhile_prefix Text.isBlank)).symm
  rw [skipped]
  exact List.all_eq_true.1 List.all_takeWhile

/-- Where a lexer stops skipping there is no blank. -/
theorem ends_skipBlank (l : Lexer) : Token.Ends Text.isBlank l.skipBlank.rest := by
  have left : l.skipBlank.rest = l.rest.dropWhile Text.isBlank := by
    have dropped : (l.rest.takeWhile Text.isBlank ++ l.rest.dropWhile Text.isBlank).drop
        (l.rest.takeWhile Text.isBlank).length = l.rest.dropWhile Text.isBlank := List.drop_left
    rwa [List.takeWhile_append_dropWhile] at dropped
  exact left ▸ Token.ends_dropWhile Text.isBlank l.rest

/-- What a lexer can answer, and where it stands then: behind the blanks, and behind the characters
that it took for a token or read before it found a fault. -/
inductive Answers (l : Lexer) : Except LexError Located → Lexer → Prop where
  /-- A token. -/
  | token {token : Token} {width : Nat}
    (scanned : Token.scan (!l.afterDot) l.skipBlank.rest = .token token width)
    (within : width ≤ l.skipBlank.rest.length) :
    Answers l (.ok ⟨token, l.skipBlank.position⟩)
      ⟨(l.skipBlank.advance width).rest, (l.skipBlank.advance width).position, token == .dot⟩
  /-- A fault at one of the characters. -/
  | fault {fault : LexFault} {offset width : Nat}
    (scanned : Token.scan (!l.afterDot) l.skipBlank.rest = .fault fault offset width)
    (before : offset < l.skipBlank.rest.length) (within : width ≤ l.skipBlank.rest.length) :
    Answers l (.error ⟨fault, l.skipBlank.position + offset⟩) (l.skipBlank.advance width)

/-- Every call is answered in one of these ways. -/
theorem answers_next (l : Lexer) : l.Answers l.next.1 l.next.2 := by
  have within : (Token.scan (!l.skipBlank.afterDot) l.skipBlank.rest).Within
      l.skipBlank.rest.length := Token.scan_within ..
  unfold next
  dsimp only
  split
  · next token width scanned =>
    rw [scanned] at within
    exact .token scanned within
  · next fault offset width scanned =>
    rw [scanned] at within
    exact .fault scanned within.1 within.2

variable {answer : Except LexError Located}

/-- Behind an answer a lexer stands in its text, and not before where it stood. -/
theorem At.answered (stands : l.At text) (answers : l.Answers answer behind) :
    behind.At text ∧ l.position ≤ behind.position := by
  have skipped : l.position ≤ l.skipBlank.position := Nat.le_add_right ..
  cases answers with
  | @token token width scanned within =>
    have moved := stands.skipBlank.advance within
    exact ⟨⟨moved.inside, moved.rest⟩, Nat.le_trans skipped (Nat.le_add_right ..)⟩
  | fault scanned before within =>
    exact ⟨stands.skipBlank.advance within, Nat.le_trans skipped (Nat.le_add_right ..)⟩

/-- A fault is one of a character of the text. -/
theorem At.fault_lt (stands : l.At text) {e : LexError} (answers : l.Answers (.error e) behind) :
    e.position < text.length := by
  have length := stands.skipBlank.length
  cases answers with
  | fault scanned before within =>
    dsimp only
    omega

/-- However often it was asked before, a lexer stands in its text. -/
theorem At.after (stands : l.At text) (count : Nat) : (l.after count).At text := by
  induction count generalizing l with
  | zero => exact stands
  | succ count ih => exact ih (stands.answered l.answers_next).1

/-! ## The end of the text -/

/-- Where only blanks are left, the end is answered at the length of the text, and nothing is left
then. -/
theorem At.ended (stands : l.At text) (none : l.skipBlank.rest = []) :
    l.next.1 = .ok ⟨.endOfInput, text.length⟩ ∧ l.next.2.rest = [] := by
  have length := stands.skipBlank.length
  rw [none, List.length_nil, Nat.add_zero] at length
  simp [next, none, Token.scan, length, Lexer.advance]

/-- Once the end was answered it is answered again and again. -/
theorem At.ended_after (stands : l.At text) (none : l.skipBlank.rest = []) (count : Nat) :
    (l.after count).next.1 = .ok ⟨.endOfInput, text.length⟩ := by
  induction count generalizing l with
  | zero => exact (stands.ended none).1
  | succ count ih =>
    have left := (stands.ended none).2
    refine ih (stands.answered l.answers_next).1 ?_
    rw [skipBlank_of_ends (left ▸ Token.ends_nil), left]

/-- The end is answered only where nothing but blanks is left. -/
theorem skipBlank_of_end {p : Nat} (answers : l.Answers (.ok ⟨.endOfInput, p⟩) behind) :
    l.skipBlank.rest = [] := by
  cases answers with
  | token scanned within => exact Token.eq_nil_of_scan_endOfInput scanned

/-- What a lexer at some place keeps to, whatever it answered before: it never goes back nor beyond
the text, its faults are at characters of the text, and the end stays the end. -/
structure Orderly (l : Lexer) (length : Nat) : Prop where
  /-- It stands within the text. -/
  inside : l.position ≤ length
  /-- It never goes back. -/
  forward : l.position ≤ l.next.2.position
  /-- A fault is one of a character. -/
  fault : ∀ e, l.next.1 = .error e → e.position < length
  /-- Behind the end there is only the end. -/
  ended : ∀ p, l.next.1 = .ok ⟨.endOfInput, p⟩ →
    ∀ count, (l.after count).next.1 = .ok ⟨.endOfInput, length⟩

/-- A lexer that stands in its text is orderly. -/
theorem At.orderly (stands : l.At text) : l.Orderly text.length where
  inside := stands.inside
  forward := (stands.answered l.answers_next).2
  fault _ read := stands.fault_lt (read ▸ l.answers_next)
  ended _ read := stands.ended_after (skipBlank_of_end (read ▸ l.answers_next))

/-! ## Tokens by their own characters -/

variable {found : Located}

/-- The characters of a token, alone, have that token only. -/
theorem tokens_of_lexeme {pointed : Bool} {c : Char} {rest : List Char} {token : Token}
    {width : Nat} (starts : Text.isBlank c = false)
    (scanned : Token.scan pointed (c :: rest) = .token token width) :
    (Lexer.mk ((c :: rest).take width) 0 false).tokens = .ok ⟨[⟨token, 0⟩], width⟩ := by
  have some : 0 < width := Token.scan_width_pos scanned
  have within : width ≤ (c :: rest).length := by
    have bounds := Token.scan_within pointed (c :: rest)
    rwa [scanned] at bounds
  obtain ⟨n, rfl⟩ : ∃ n, width = n + 1 := Nat.exists_eq_add_one.2 some
  rw [List.take_succ_cons]
  have length : (c :: rest.take n).length = n + 1 := by
    simp only [List.length_cons, List.length_take] at within ⊢
    omega
  have alone : Token.scan true (c :: rest.take n ++ []) =
      .token token (c :: rest.take n).length := by
    rw [List.append_nil, length, ← List.take_succ_cons]
    exact Token.scan_take scanned
  let l : Lexer := ⟨c :: rest.take n, 0, false⟩
  obtain ⟨behind, read, nothing, -⟩ := next_of_scan (l := l) (List.append_nil _).symm starts alone
  have stands : l.At (c :: rest.take n) := ⟨Nat.zero_le _, rfl⟩
  have last : behind.position = n + 1 := by
    have moved := stands.answered l.answers_next
    rw [read] at moved
    have total := moved.1.length
    rw [nothing, length] at total
    exact total
  obtain ⟨_, ended⟩ := next_of_nil nothing
  rw [last] at ended
  exact tokens_of_next read (Token.ne_endOfInput_of_scan scanned) (tokens_of_end ended)

/-- A token takes characters, and these have that token only. -/
theorem At.alone (stands : l.At text) (answers : l.Answers (.ok found) behind)
    (inside : found.token ≠ .endOfInput) :
    found.position < behind.position ∧
      TokenStream.ofText (String.ofList (Text.span text found.position behind.position)) =
        .ok ⟨[⟨found.token, 0⟩], behind.position - found.position⟩ := by
  have starts := l.ends_skipBlank
  cases answers with
  | @token token width scanned within =>
    have some := Token.scan_endOfInput scanned inside
    obtain ⟨c, rest, front⟩ := List.exists_cons_of_ne_nil some
    rw [front] at scanned starts
    have span : Text.span text l.skipBlank.position (l.skipBlank.position + width) =
        (c :: rest).take width := by
      rw [Text.span, ← stands.skipBlank.rest, front, Nat.add_sub_cancel_left]
    have alone := tokens_of_lexeme (Token.ends_cons.1 starts) scanned
    refine ⟨Nat.lt_add_of_pos_right (Token.scan_width_pos scanned), ?_⟩
    simp only [Lexer.advance]
    rw [span, Nat.add_sub_cancel_left, TokenStream.ofText, ofText, String.toList_ofList]
    exact alone

/-! ## The tokens of a text -/

/-- Where a text has no tokens, the end comes next. -/
theorem next_of_tokens_nil {finish : Nat} (read : l.tokens = .ok ⟨[], finish⟩) :
    l.next.1 = .ok ⟨.endOfInput, finish⟩ := by
  rcases next_of_tokens read with ⟨_, next, -⟩ | ⟨_, _, _, -, -, -, same⟩
  · rw [next]
  · cases congrArg TokenStream.tokens same

/-- The first token of a text comes next, and the others behind it. -/
theorem next_of_tokens_cons {later : List Located} {finish : Nat}
    (read : l.tokens = .ok ⟨found :: later, finish⟩) :
    l.next.1 = .ok found ∧ found.token ≠ .endOfInput ∧ l.next.2.tokens = .ok ⟨later, finish⟩ := by
  rcases next_of_tokens read with ⟨_, -, none⟩ | ⟨first, mid, others, next, inside, rest, same⟩
  · cases none
  · obtain ⟨tokens, ended⟩ := others
    cases same
    rw [next]
    exact ⟨rfl, inside, rest⟩

variable {s : TokenStream}

/-- The tokens of a text and its end are the answers of a lexer in order. -/
theorem answer_of_tokens (read : l.tokens = .ok s) {i : Nat} (here : s.toList[i]? = some found) :
    (l.after i).next.1 = .ok found := by
  obtain ⟨tokens, finish⟩ := s
  induction tokens generalizing l i with
  | nil =>
    cases i with
    | zero =>
      obtain rfl := Option.some.inj here
      exact next_of_tokens_nil read
    | succ i => cases here
  | cons first later ih =>
    obtain ⟨next, -, rest⟩ := next_of_tokens_cons read
    cases i with
    | zero =>
      obtain rfl := Option.some.inj here
      exact next
    | succ i =>
      have further : (l.next.2.after i).next.1 = .ok found := ih rest here
      exact further

/-- No token of a text but the last is its end. -/
theorem inside_of_tokens (read : l.tokens = .ok s) (member : found ∈ s.tokens) :
    found.token ≠ .endOfInput := by
  obtain ⟨tokens, finish⟩ := s
  induction tokens generalizing l with
  | nil => cases member
  | cons first later ih =>
    obtain ⟨-, inside, rest⟩ := next_of_tokens_cons read
    rcases List.mem_cons.1 member with rfl | behind
    · exact inside
    · exact ih rest behind

/-- The next token starts where the lexer stops skipping. -/
theorem position_of_next (next : l.next.1 = .ok found) : found.position = l.skipBlank.position := by
  have answers := l.answers_next
  generalize l.next.2 = behind at answers
  rw [next] at answers
  cases answers
  rfl

/-- The next token does not stand before the lexer. -/
theorem position_le_of_next (next : l.next.1 = .ok found) : l.position ≤ found.position := by
  rw [position_of_next next]
  exact Nat.le_add_right ..

/-- The tokens of a text and its end stand behind the lexer, each behind the one before. -/
theorem At.ascending (stands : l.At text) (read : l.tokens = .ok s) :
    (∀ found ∈ s.toList, l.position ≤ found.position) ∧
      s.toList.Pairwise fun first second => first.position < second.position := by
  obtain ⟨tokens, finish⟩ := s
  induction tokens generalizing l with
  | nil =>
    have first := position_le_of_next (next_of_tokens_nil read)
    exact ⟨List.forall_mem_singleton.2 first, List.pairwise_singleton ..⟩
  | cons first later ih =>
    obtain ⟨next, inside, rest⟩ := next_of_tokens_cons read
    have taken : first.position < l.next.2.position :=
      (stands.alone (next ▸ l.answers_next) inside).1
    obtain ⟨behind, ordered⟩ := ih (stands.answered l.answers_next).1 rest
    have apart : ∀ found ∈ TokenStream.toList ⟨later, finish⟩, first.position < found.position :=
      fun found member => Nat.lt_of_lt_of_le taken (behind found member)
    have here := position_le_of_next next
    refine ⟨List.forall_mem_cons.2 ⟨here, fun found member => ?_⟩,
      List.pairwise_cons.2 ⟨apart, ordered⟩⟩
    exact Nat.le_trans here (Nat.le_of_lt (apart found member))

end Lexer

namespace TokenStream

/-- Where the lexer of a text stands after it answered with some tokens: the end of the last one. -/
def stop (text : String) (count : Nat) : Nat := ((Lexer.ofText text).after count).position

/-- The tokens take the text apart: blanks, and the characters of one token after the other. -/
structure Partitions (s : TokenStream) (text : String) : Prop where
  /-- Asked again and again, the lexer answers with the tokens and the end. -/
  answers : ∀ i found, s.toList[i]? = some found →
    ((Lexer.ofText text).after i).next.1 = .ok found
  /-- The end stands behind the last character. -/
  finish : s.finish = text.length
  /-- No other token is an end. -/
  inside : ∀ found ∈ s.tokens, found.token ≠ .endOfInput
  /-- Every token starts behind the start of the one before, the end included. -/
  ascending : (s.toList.map Located.position).Pairwise (· < ·)
  /-- Between the end of a token, or the start of the text, and the start of the next token there
  are blanks only. -/
  blank : ∀ i found, s.toList[i]? = some found →
    ∀ c ∈ Text.span text.toList (stop text i) found.position, Text.isBlank c = true
  /-- The characters of a token, alone, have that token only. -/
  alone : ∀ i found, s.tokens[i]? = some found → found.position < stop text (i + 1) ∧
    ofText (String.ofList (Text.span text.toList found.position (stop text (i + 1)))) =
      .ok ⟨[⟨found.token, 0⟩], stop text (i + 1) - found.position⟩

variable {text : String} {s : TokenStream}

/-- The tokens of a text take it apart. -/
theorem partitions_of_ofText (read : ofText text = .ok s) : s.Partitions text := by
  have stands (count : Nat) : ((Lexer.ofText text).after count).At text.toList :=
    (Lexer.at_ofText text).after count
  have answered {i : Nat} {found : Located} (here : s.toList[i]? = some found) :
      ((Lexer.ofText text).after i).next.1 = .ok found :=
    Lexer.answer_of_tokens read here
  have behind (i : Nat) :
      ((Lexer.ofText text).after i).next.2 = (Lexer.ofText text).after (i + 1) := by
    rw [Lexer.after_add]
    rfl
  exact {
    answers := fun i found here => answered here
    finish := by
      have last : s.toList[s.tokens.length]? = some ⟨.endOfInput, s.finish⟩ :=
        List.getElem?_concat_length
      have none := Lexer.skipBlank_of_end (answered last ▸ Lexer.answers_next _)
      have ended := ((stands _).ended none).1
      rw [answered last, String.length_toList] at ended
      exact (Located.mk.inj (Except.ok.inj ended)).2
    inside := fun found member => Lexer.inside_of_tokens read member
    ascending := List.pairwise_map.2 ((Lexer.at_ofText text).ascending read).2
    blank := by
      intro i found here
      rw [Lexer.position_of_next (answered here)]
      exact (stands i).blank_span
    alone := by
      intro i found here
      have inside := Lexer.inside_of_tokens read (List.mem_of_getElem? here)
      obtain ⟨short, _⟩ := List.getElem?_eq_some_iff.1 here
      have next := answered ((List.getElem?_append_left short).trans here)
      have answers := ((Lexer.ofText text).after i).answers_next
      rw [next, behind] at answers
      exact (stands i).alone answers inside }

/-- A token starts at a character of the text. -/
theorem position_lt_of_ofText (read : ofText text = .ok s) {found : Located}
    (member : found ∈ s.tokens) : found.position < text.length := by
  have partitions := partitions_of_ofText read
  have ordered := (List.pairwise_append.1 (List.pairwise_map.1 partitions.ascending)).2.2
  have before := ordered found member _ (List.mem_singleton_self _)
  rwa [partitions.finish] at before

/-- The tokens of a text, where it has any, take it apart; and a lexer that is asked any number of
times, whatever it answers, never goes back nor beyond the text, finds faults only at characters of
the text, and answers with the end again and again once it did. -/
theorem partitions_and_orderly (text : String) :
    (∀ s, ofText text = .ok s → s.Partitions text) ∧
      ∀ count, ((Lexer.ofText text).after count).Orderly text.length := by
  refine ⟨fun s read => partitions_of_ofText read, fun count => ?_⟩
  have stands := (Lexer.at_ofText text).after count
  rw [← String.length_toList]
  exact stands.orderly

/-- What a text is found to be cut into are its tokens. -/
theorem ofText_of_toOption (found : (ofText text).toOption = some s) : ofText text = .ok s := by
  cases read : ofText text with
  | error e =>
    rw [read] at found
    cases found
  | ok t =>
    rw [read] at found
    exact congrArg Except.ok (Option.some.inj found)

/-- Two index steps with blanks around them are taken apart, and a lexer stays in its text that has
to find a quoted text unclosed. -/
theorem partitions_and_orderly_dotted :
    let text := " a.0 .1 "
    let s : TokenStream := ⟨[⟨.identifier "a", 1⟩, ⟨.dot, 2⟩, ⟨.integer 0, 3⟩, ⟨.dot, 5⟩,
      ⟨.integer 1, 6⟩], 8⟩
    ofText text = .ok s ∧ s.Partitions text ∧ stop text 3 = 4 ∧
      (Lexer.ofText "$ 'a").after 1 = ⟨[' ', '\'', 'a'], 1, false⟩ ∧
      ((Lexer.ofText "$ 'a").after 2).Orderly 4 := by
  intro text s
  have read : ofText text = .ok s := ofText_of_toOption (by decide +kernel)
  have run := (partitions_and_orderly "$ 'a").2 2
  exact ⟨read, (partitions_and_orderly text).1 s read, by decide +kernel, by rfl, run⟩

end TokenStream

end PathQuery
