import PathQuery.Proofs.Acceptance
import PathQuery.Proofs.Surroundings
/-!
# Texts joined by a combinator

Two texts that are expressions are joined by putting each of them in parentheses and a combinator
between them. The result is the combinator of both expressions: nothing of one text leaks into the
other, and all that changes are the places. It takes one level of nesting more than the texts, so
the texts must not use up the nesting limit.
-/
namespace PathQuery

/-! ## Expressions further on -/

/-- The expression at places some characters further on. -/
def Expr.shift (offset : Nat) (e : Expr) : Expr := e.moved (· + offset)

namespace Grammar

/-- The same tokens further on derive the same expression further on. -/
def Movable (Phrase : List Located → Expr → Prop) : Prop :=
  ∀ {s e}, Phrase s e → ∀ offset, Phrase (s.map (·.shift offset)) (e.shift offset)

/-- What tokens derive is movable. -/
theorem Derives.movable (levels : Nat) : Movable (Derives levels) := by
  intro s e derived offset
  have read := (Parser.readWhole_moves (· + offset) 0 levels s).result
  rw [(Parser.readWhole_ok_iff 0).2 derived] at read
  exact (Parser.readWhole_ok_iff (0 + offset)).1 read

/-- Two groups with a combinator between them derive that combinator of both. -/
theorem derives_joined (op : BoolOp) {levels : Nat} {first second : TokenStream} {e f : Expr}
    (left : Derives levels first.tokens e) (right : Derives levels second.tokens f) (p q r : Nat) :
    Derives (levels + 1) (first.grouped p ++ ⟨Parser.operator op, q⟩ :: second.grouped r)
      (.boolean q op (e.shift (p + 1)) (f.shift (r + 1))) := by
  have group {s : TokenStream} {e : Expr} (derived : Derives levels s.tokens e) (p : Nat) :
      Path (Derives levels) (s.grouped p) (e.shift (p + 1)) :=
    .primary (.group p (s.finish + (p + 1)) (Derives.movable levels derived (p + 1)))
  cases op with
  | and => exact .operand (.combine q (.operand (group left p)) (group right r))
  | or => exact .combine q (.operand (.operand (group left p))) (.operand (group right r))

end Grammar

/-! ## Joined texts -/

/-- Two texts in parentheses with a combinator between them. -/
def BoolOp.join (op : BoolOp) (first second : String) : String :=
  "(" ++ first ++ ") " ++ op.sign ++ " (" ++ second ++ ")"

/-- The sign of a combinator in front of a text is its token in front of those of the text. -/
theorem Lexer.tokens_of_operator (op : BoolOp) {rest : List Char} {p : Nat} {t : TokenStream}
    (behind : (Lexer.mk rest (p + 2) false).tokens = .ok t) :
    (Lexer.mk (op.sign.toList ++ rest) p false).tokens =
      .ok { t with tokens := ⟨Parser.operator op, p⟩ :: t.tokens } := by
  cases op with
  | and =>
    have scanned : Token.scan (!false) ('&' :: ['&'] ++ rest) = .token .andAnd 2 := rfl
    exact tokens_of_front scanned rfl behind
  | or =>
    have scanned : Token.scan (!false) ('|' :: ['|'] ++ rest) = .token .orOr 2 := rfl
    exact tokens_of_front scanned rfl behind

/-- Joined texts are cut into their tokens in parentheses with the combinator between them. -/
theorem TokenStream.tokens_of_joined (op : BoolOp) {first second : String} {s t : TokenStream}
    (left : ofText first = .ok s) (right : ofText second = .ok t) :
    ofText (op.join first second) =
      .ok ⟨s.grouped 0 ++ ⟨Parser.operator op, first.length + 3⟩ :: t.grouped (first.length + 6),
        first.length + second.length + 8⟩ := by
  have blank : Text.isBlank ' ' = true := rfl
  have ended : (Lexer.mk [] (first.length + 6 + second.length + 2) false).tokens =
      .ok ⟨[], first.length + second.length + 8⟩ := by
    obtain ⟨after, next⟩ := Lexer.next_of_nil (rfl : (Lexer.mk [] _ false).rest = [])
    have place : first.length + 6 + second.length + 2 = first.length + second.length + 8 := by omega
    rw [place]
    exact Lexer.tokens_of_end next
  have group := tokens_of_grouped right ended
  have combinator := Lexer.tokens_of_operator op (Lexer.tokens_of_blank blank group)
  have behind := Lexer.tokens_of_blank blank combinator
  rw [← Nat.zero_add first.length] at behind
  have whole := tokens_of_grouped left behind
  have text : (op.join first second).toList = '(' :: (first.toList ++ ')' :: ' ' ::
      (op.sign.toList ++ ' ' :: '(' :: (second.toList ++ [')']))) := by
    simp [BoolOp.join]
  rw [ofText, Lexer.ofText, text]
  simpa using whole

namespace Expr

/-- The text nests fewer expressions in each other than the given number, itself included: its
tokens derive an expression with less. -/
def NestsFewer (text : String) (limit : Nat) : Prop :=
  ∃ s levels e, TokenStream.ofText text = .ok s ∧ Grammar.Derives levels s.tokens e ∧
    levels < limit

/-- A text that nests fewer expressions than may be nested leaves a level of nesting to what it is
read as. -/
theorem NestsFewer.derives {text : String} (fewer : NestsFewer text nestingLimit) {e : Expr}
    (read : ofText text = .ok e) :
    ∃ s, TokenStream.ofText text = .ok s ∧ Grammar.Derives (nestingLimit - 1) s.tokens e := by
  obtain ⟨s, levels, f, tokens, derived, few⟩ := fewer
  have readAs : s.parse.1 = .ok f :=
    (Parser.readWhole_ok_iff s.finish).2 (derived.mono (Nat.le_of_lt few))
  simp only [ofText, tokens] at read
  obtain rfl := Except.ok.inj (readAs.symm.trans read)
  exact ⟨s, tokens, derived.mono (Nat.le_sub_one_of_lt few)⟩

/-- Two texts that are expressions, nested less deep than the limit, are joined to the combinator of
both expressions, each at its place in the joined text. -/
theorem ofText_join (op : BoolOp) {first second : String} {e f : Expr}
    (left : ofText first = .ok e) (leftFewer : NestsFewer first nestingLimit)
    (right : ofText second = .ok f) (rightFewer : NestsFewer second nestingLimit) :
    ofText (op.join first second) =
      .ok (.boolean ("(" ++ first ++ ") ").length op (e.shift "(".length)
        (f.shift ("(" ++ first ++ ") " ++ op.sign ++ " (").length)) := by
  obtain ⟨s, leftTokens, leftDerives⟩ := leftFewer.derives left
  obtain ⟨t, rightTokens, rightDerives⟩ := rightFewer.derives right
  have tokens := TokenStream.tokens_of_joined op leftTokens rightTokens
  have derived := Grammar.derives_joined op leftDerives rightDerives 0 (first.length + 3)
    (first.length + 6)
  have sign : op.sign.length = 2 := by cases op <;> rfl
  have between : ("(" ++ first ++ ") ").length = first.length + 3 := by
    rw [String.length_append, String.length_append, Nat.add_comm "(".length]
    rfl
  have behind : ("(" ++ first ++ ") " ++ op.sign ++ " (").length = first.length + 6 + 1 := by
    rw [String.length_append, String.length_append, between, sign]
    rfl
  rw [between, behind]
  simp only [ofText, tokens]
  exact (Parser.readWhole_ok_iff _).2 derived

/-- A disjunction with a blank behind it is joined to a descent with a blank in front of it. -/
theorem ofText_join_blanks :
    ofText "a || b " = .ok (.boolean 2 .or (.named 0 (.root 0) "a") (.named 5 (.root 5) "b")) ∧
      ofText " $..c" = .ok (.descent 2 (.root 1) (some "c")) ∧
      BoolOp.and.join "a || b " " $..c" = "(a || b ) && ( $..c)" ∧
      ofText "(a || b ) && ( $..c)" = .ok (.boolean 10 .and
        (.boolean 3 .or (.named 1 (.root 1) "a") (.named 6 (.root 6) "b"))
        (.descent 16 (.root 15) (some "c"))) := by
  let s : TokenStream := ⟨[⟨.identifier "a", 0⟩, ⟨.orOr, 2⟩, ⟨.identifier "b", 5⟩], 7⟩
  let t : TokenStream := ⟨[⟨.dollar, 1⟩, ⟨.dotDot, 2⟩, ⟨.identifier "c", 4⟩], 5⟩
  have leftTokens : TokenStream.ofText "a || b " = .ok s :=
    TokenStream.ofText_of_toOption (by decide +kernel)
  have rightTokens : TokenStream.ofText " $..c" = .ok t :=
    TokenStream.ofText_of_toOption (by decide +kernel)
  have leftDerives : Grammar.Derives 1 ([⟨.identifier "a", 0⟩] ++ ⟨Parser.operator .or, 2⟩ ::
      [⟨.identifier "b", 5⟩]) (.boolean 2 .or (.named 0 (.root 0) "a") (.named 5 (.root 5) "b")) :=
    .combine 2 (.operand (.operand (.primary (.name "a" 0)))) (.operand (.primary (.name "b" 5)))
  have rightDerives : Grammar.Derives 1 t.tokens (.descent 2 (.root 1) (some "c")) :=
    .operand (.operand (.step 2 (.primary (.root 1)) (.descent 2 (.name (.plain "c" 4)))))
  have read {text : String} {s : TokenStream} {e : Expr} (tokens : TokenStream.ofText text = .ok s)
      (derived : Grammar.Derives 1 s.tokens e) : ofText text = .ok e := by
    simp only [ofText, tokens]
    exact (Parser.readWhole_ok_iff _).2 (derived.mono (by decide))
  have left := read leftTokens leftDerives
  have right := read rightTokens rightDerives
  have joined := ofText_join .and left ⟨s, 1, _, leftTokens, leftDerives, by decide⟩ right
    ⟨t, 1, _, rightTokens, rightDerives, by decide⟩
  exact ⟨left, right, rfl, joined⟩

end Expr

end PathQuery
