import PathQuery.Proofs.Scanning
/-!
# How far a scan reaches

A scan never takes more characters than there are, and a fault that it finds lies at one of them.
What it takes for a token is that token where it stands alone, too: nothing that a scan looks at
behind a token changes what the token is. And the text behind a token can be another one, as long as
it starts with a character that goes on with no token.
-/
namespace PathQuery.Token

variable {quote c : Char} {rest content : List Char} {pointed : Bool} {width : Nat} {token : Token}

/-! ## Bounds -/

/-- The scan stays within a number of characters, and finds faults only at one of them. -/
def QuotedScan.Within (length : Nat) : QuotedScan → Prop
  | .closed _ width | .unclosed width => width ≤ length
  | .invalidEscape _ width | .invalidCodePoint width => width < length

/-- Behind more characters a scan stays within as many more. -/
theorem QuotedScan.Within.after {scan : QuotedScan} {length : Nat} (within : scan.Within length)
    (c : Char) (n : Nat) : (scan.after c n).Within (length + n) := by
  cases scan with
  | closed | unclosed => exact Nat.add_le_add_right within n
  | invalidEscape | invalidCodePoint => exact Nat.add_lt_add_right within n

/-- A quoted text is scanned within its characters. -/
theorem scanQuoted_within (quote : Char) (rest : List Char) :
    (scanQuoted quote rest).Within rest.length := by
  induction rest using scanQuoted.induct quote with
  | case1 => exact Nat.le_refl 0
  | case2 rest =>
    rw [scanQuoted_quote]
    exact Nat.succ_le_succ (Nat.zero_le _)
  | case3 noQuote =>
    rw [scanQuoted.eq_def]
    simp [noQuote, QuotedScan.Within]
  | case4 a b c d rest character code noQuote ih =>
    rw [scanQuoted_unicode noQuote code]
    exact ih.after character 6
  | case5 a b c d rest noCode noQuote =>
    rw [scanQuoted.eq_def]
    simp [noQuote, noCode, QuotedScan.Within]
  | case6 rest few noQuote =>
    rw [scanQuoted.eq_def]
    simp [noQuote, QuotedScan.Within]
  | case7 e rest noUnicode character short noQuote ih =>
    rw [scanQuoted_short noQuote noUnicode short]
    exact ih.after character 2
  | case8 e rest noUnicode noEscape noQuote =>
    rw [scanQuoted.eq_def]
    simp [noQuote, noUnicode, noEscape, QuotedScan.Within]
  | case9 c rest noQuote noBackslash ih =>
    rw [scanQuoted_plain noQuote noBackslash]
    exact ih.after c 1

/-- The scan stays within a number of characters, and finds faults only at one of them. -/
def Scan.Within (length : Nat) : Scan → Prop
  | .token _ width => width ≤ length
  | .fault _ offset width => offset < length ∧ width ≤ length

/-- A number is scanned within its characters. -/
theorem scanNumber_within (pointed : Bool) (c : Char) (rest : List Char) :
    (scanNumber pointed (c :: rest)).Within (c :: rest).length := by
  obtain ⟨later, written, -⟩ := numeralText_readNumeral pointed (c :: rest)
  have inside : (numeralText (readNumeral pointed (c :: rest))).length ≤ (c :: rest).length :=
    List.IsPrefix.length_le ⟨later, written⟩
  rw [scanNumber_eq]
  unfold scanOfNumeral
  split
  · split
    · exact inside
    · exact ⟨Nat.succ_pos _, inside⟩
  · exact inside

/-- A quoted text is scanned within its quotes. -/
theorem scanString_within (quote : Char) (rest : List Char) :
    (scanString quote rest).Within (quote :: rest).length := by
  have within := scanQuoted_within quote rest
  unfold scanString
  split <;> next found =>
    rw [found] at within
    simp only [QuotedScan.Within] at within
    simp only [Scan.Within, List.length_cons]
    omega

/-- A doubled operator is scanned within its text. -/
theorem scanDouble_within (c : Char) (token : Token) (rest : List Char) :
    (scanDouble c token rest).Within (c :: rest).length := by
  unfold scanDouble
  split
  · next more =>
    obtain ⟨later, rfl⟩ := List.head?_eq_some_iff.1 more
    exact Nat.le_add_left 2 _
  · simp [Scan.Within]

/-- What stands in front of a text is scanned within the text. -/
theorem scan_within (pointed : Bool) (cs : List Char) : (scan pointed cs).Within cs.length := by
  cases cs with
  | nil => exact Nat.le_refl 0
  | cons c rest =>
    simp only [scan]
    split
    · simp [Scan.Within]
    split
    · split
      · next more =>
        obtain ⟨later, rfl⟩ := List.head?_eq_some_iff.1 more
        exact Nat.le_add_left 2 _
      · exact Nat.le_add_left 1 _
    split
    · exact scanDouble_within c _ rest
    split
    · exact scanDouble_within c _ rest
    split
    · exact scanString_within c rest
    split
    · exact scanNumber_within pointed c rest
    split
    · exact (List.takeWhile_prefix continuesName).length_le
    · simp [Scan.Within]

/-! ## Tokens alone -/

/-- A closed text with one character more in front comes from a closed text. -/
theorem QuotedScan.closed_of_after {scan : QuotedScan} {n : Nat}
    (same : scan.after c n = .closed content width) :
    ∃ later w, scan = .closed later w ∧ content = c :: later ∧ width = w + n := by
  cases scan with
  | closed later w =>
    obtain ⟨rfl, rfl⟩ := QuotedScan.closed.inj same
    exact ⟨later, w, rfl, rfl, rfl⟩
  | invalidEscape | invalidCodePoint | unclosed => cases same

/-- A closed text is scanned from its own characters, whatever stands behind them. -/
theorem scanQuoted_take_append (tail : List Char)
    (closed : scanQuoted quote rest = .closed content width) :
    scanQuoted quote (rest.take width ++ tail) = .closed content width := by
  induction rest using scanQuoted.induct quote generalizing content width with
  | case1 => cases closed
  | case2 rest =>
    rw [scanQuoted_quote] at closed
    obtain ⟨rfl, rfl⟩ := QuotedScan.closed.inj closed
    exact scanQuoted_quote
  | case3 noQuote =>
    rw [scanQuoted.eq_def] at closed
    simp [noQuote] at closed
  | case4 a b c d rest character code noQuote ih =>
    rw [scanQuoted_unicode noQuote code] at closed
    obtain ⟨later, w, inner, rfl, rfl⟩ := QuotedScan.closed_of_after closed
    simp only [List.take_succ_cons, List.cons_append]
    rw [scanQuoted_unicode noQuote code, ih inner]
    rfl
  | case5 a b c d rest noCode noQuote =>
    rw [scanQuoted.eq_def] at closed
    simp [noQuote, noCode] at closed
  | case6 rest few noQuote =>
    rw [scanQuoted.eq_def] at closed
    simp [noQuote] at closed
  | case7 e rest noUnicode character short noQuote ih =>
    rw [scanQuoted_short noQuote noUnicode short] at closed
    obtain ⟨later, w, inner, rfl, rfl⟩ := QuotedScan.closed_of_after closed
    simp only [List.take_succ_cons, List.cons_append]
    rw [scanQuoted_short noQuote noUnicode short, ih inner]
    rfl
  | case8 e rest noUnicode noEscape noQuote =>
    rw [scanQuoted.eq_def] at closed
    simp [noQuote, noUnicode, noEscape] at closed
  | case9 c rest noQuote noBackslash ih =>
    rw [scanQuoted_plain noQuote noBackslash] at closed
    obtain ⟨later, w, inner, rfl, rfl⟩ := QuotedScan.closed_of_after closed
    rw [List.take_succ_cons, List.cons_append, scanQuoted_plain noQuote noBackslash, ih inner]
    rfl

/-- A token is scanned from its own characters alone, as at the start of a text. -/
theorem scan_take (scanned : scan pointed (c :: rest) = .token token width) :
    scan true ((c :: rest).take width) = .token token width := by
  cases scanned_of_scan scanned with
  | single sign => simp [scan, sign]
  | dotDot point more =>
    obtain ⟨later, rfl⟩ := List.head?_eq_some_iff.1 more
    subst point
    rfl
  | dot point lone =>
    subst point
    rfl
  | andAnd sign more | orOr sign more =>
    obtain ⟨later, rfl⟩ := List.head?_eq_some_iff.1 more
    subst sign
    rfl
  | @quoted content width quote closed =>
    have alone : scanString c (rest.take width) =
        .token (.string (String.ofList content)) (width + 1) := by
      rw [scanString, ← List.append_nil (rest.take width), scanQuoted_take_append [] closed]
    rw [List.take_succ_cons]
    rcases quote with rfl | rfl <;> exact alone
  | number starts found =>
    obtain ⟨later, written, -⟩ := numeralText_readNumeral pointed (c :: rest)
    have plain := plain_readNumeral pointed starts
    have own : (c :: rest).take width = numeralText (readNumeral pointed (c :: rest)) := by
      rw [← length_of_scanOfNumeral found]
      exact (List.prefix_iff_eq_take.1 ⟨later, written⟩).symm
    have alone : scan true (numeralText (readNumeral pointed (c :: rest)) ++ []) =
        scanOfNumeral (readNumeral pointed (c :: rest)) :=
      scan_numeralText plain (fun _ => rfl) ends_nil
    rw [List.append_nil, found] at alone
    exact own ▸ alone
  | word starts =>
    have own : (c :: rest).takeWhile continuesName =
        (c :: rest).take ((c :: rest).takeWhile continuesName).length :=
      List.prefix_iff_eq_take.1 (List.takeWhile_prefix continuesName)
    have front : (c :: rest).takeWhile continuesName = c :: rest.takeWhile continuesName :=
      List.takeWhile_cons_of_pos (continuesName_of_startsName starts)
    have inside : ∀ d ∈ rest.takeWhile continuesName, continuesName d = true :=
      List.all_eq_true.1 List.all_takeWhile
    have alone : scan true (c :: rest.takeWhile continuesName ++ []) =
        .token (ofWord (String.ofList (c :: rest.takeWhile continuesName)))
          (c :: rest.takeWhile continuesName).length :=
      scan_word starts inside ends_nil
    rw [List.append_nil] at alone
    rw [← own, front]
    exact alone

/-! ## Tokens in front of other text -/

/-- Whether a character may go on with a token in front of it. -/
def continuesToken (c : Char) : Bool := continuesName c || c == '.'

variable {cs tail other : List Char}

/-- What goes on with no token goes on with no name. -/
theorem ends_name (apart : Ends continuesToken tail) : Ends continuesName tail :=
  apart.mono fun _ stops => (Bool.or_eq_false_iff.1 stops).1

/-- What goes on with no token has no point in front. -/
theorem ends_point (apart : Ends continuesToken tail) : Ends (· == '.') tail :=
  apart.mono fun _ stops => (Bool.or_eq_false_iff.1 stops).2

/-- What goes on with no token has no digit in front. -/
theorem ends_digit (apart : Ends continuesToken tail) : Ends Char.isDigit tail := by
  refine (ends_name apart).mono fun c stops => ?_
  have noNumber : continuesNumber false c = false := continuesNumber_eq_false stops nofun
  exact (Bool.or_eq_false_iff.1 noNumber).1

/-- A point in front of some characters tells nothing of what stands behind these. -/
theorem head?_append_ne (apart : Ends continuesToken tail)
    (lone : (cs ++ other).head? ≠ some '.') : (cs ++ tail).head? ≠ some '.' := by
  cases cs with
  | nil => exact fun more => absurd (ends_point apart _ more) (by decide)
  | cons d later => exact lone

/-- A run of characters that stays within the front is the same in front of a text that starts with
none. -/
theorem takeWhile_front {p : Char → Bool} (cs : List Char)
    (inside : ((cs ++ other).takeWhile p).length ≤ cs.length) (ends : Ends p tail) :
    (cs ++ tail).takeWhile p = (cs ++ other).takeWhile p := by
  rw [takeWhile_extend cs ends]
  rw [List.takeWhile_append] at inside ⊢
  split at inside
  · next whole =>
    have none : other.takeWhile p = [] := by
      rw [List.length_append] at inside
      exact List.eq_nil_of_length_eq_zero (by omega)
    rw [if_pos whole, none, List.append_nil]
    exact (List.takeWhile_prefix p).eq_of_length whole
  · next some => rw [if_neg some]

/-- A number that is closed by a text with some characters in front is closed by another text behind
these, if that goes on with no token. -/
theorem Closes.front {n : Numeral} (closes : Closes pointed n (cs ++ other))
    (apart : Ends continuesToken tail) : Closes pointed n (cs ++ tail) := by
  obtain ⟨noDigit, noFraction⟩ := closes
  cases cs with
  | nil => exact ⟨ends_digit apart, fun _ _ => readFraction_of_ends (ends_point apart)⟩
  | cons c later =>
    refine ⟨noDigit, fun allowed none => ?_⟩
    have before := noFraction allowed none
    by_cases point : c = '.'
    · subst point
      have run : (later ++ other).takeWhile Char.isDigit = [] := before
      have inside : ((later ++ other).takeWhile Char.isDigit).length ≤ later.length :=
        run ▸ Nat.zero_le _
      exact (takeWhile_front later inside (ends_digit apart)).trans run
    · exact readFraction_of_ends (ends_cons.2 (beq_eq_false_iff_ne.2 point))

/-- A token that is scanned within the front of a text is scanned there in front of any text that
goes on with no token. -/
theorem scan_front (scanned : scan pointed (c :: (cs ++ other)) = .token token width)
    (inside : width ≤ (c :: cs).length) (apart : Ends continuesToken tail) :
    scan pointed (c :: (cs ++ tail)) = .token token width := by
  have doubled {d : Char} (two : 2 ≤ (c :: cs).length) (more : (cs ++ other).head? = some d) :
      (cs ++ tail).head? = some d := by
    cases cs with
    | nil => exact absurd two (by simp)
    | cons d later => exact more
  cases scanned_of_scan scanned with
  | single sign => simp [scan, sign]
  | dotDot point more =>
    subst point
    exact if_pos (doubled inside more)
  | dot point lone =>
    subst point
    exact if_neg (head?_append_ne apart lone)
  | andAnd sign more | orOr sign more =>
    subst sign
    exact if_pos (doubled inside more)
  | @quoted content width quote closed =>
    have fits : width ≤ cs.length := Nat.le_of_succ_le_succ inside
    have front : cs ++ tail = (cs ++ other).take width ++ (cs.drop width ++ tail) := by
      rw [List.take_append_of_le_length fits, ← List.append_assoc, List.take_append_drop]
    have string : scanString c (cs ++ tail) =
        .token (.string (String.ofList content)) (width + 1) := by
      rw [scanString, front, scanQuoted_take_append _ closed]
    rcases quote with rfl | rfl <;> exact string
  | number starts found =>
    obtain ⟨rest, written, closes⟩ := numeralText_readNumeral pointed (c :: (cs ++ other))
    have allowed : (readNumeral pointed (c :: (cs ++ other))).fraction ≠ [] → pointed = true := by
      intro some
      cases pointed with
      | true => rfl
      | false => exact absurd rfl some
    have plain := plain_readNumeral pointed starts
    generalize readNumeral pointed (c :: (cs ++ other)) = n at found written closes allowed plain
    have fits : (numeralText n).length ≤ (c :: cs).length := length_of_scanOfNumeral found ▸ inside
    obtain ⟨later, same⟩ : numeralText n <+: c :: cs :=
      List.prefix_of_prefix_length_le ⟨rest, written⟩ (List.prefix_append (c :: cs) other) fits
    have behind : rest = later ++ other := by
      rw [← List.cons_append, ← same, List.append_assoc] at written
      exact List.append_cancel_left written
    rw [← List.cons_append, ← same, List.append_assoc,
      scan_of_closes plain allowed ((behind ▸ closes).front apart), found]
  | word starts =>
    have run := takeWhile_front (c :: cs) inside (ends_name apart)
    have noNumber : startsNumber (c :: (cs ++ tail)) = false := not_startsNumber starts
    rw [scan_of_not_sign (not_mem_signs rfl starts), noNumber, starts, if_neg Bool.false_ne_true,
      if_pos rfl, scanWord, ← List.cons_append, run]
    rfl

end PathQuery.Token
