import PathQuery.Proofs.Acceptance
/-!
# The nesting limit

A reader with fewer levels left reads what a reader with more levels reads, unless the limit stops
it. So tokens that derive an expression at any depth are never refused for another reason than
their depth.
-/
namespace PathQuery.Parser

open Grammar

namespace Reading

variable {α β : Type} {tokens later : List Located}

/-- The reading is the other one, or it stopped at the nesting limit. -/
def CutFrom (r deeper : Reading α tokens) : Prop :=
  r = deeper ∨ ∃ p, r.result = .error (.tooDeep p)

/-- A reading cut from one that is cut from a third is cut from the third. -/
theorem CutFrom.trans {r deeper deepest : Reading α tokens} (first : r.CutFrom deeper)
    (second : deeper.CutFrom deepest) : r.CutFrom deepest := by
  rcases first with rfl | stopped
  · exact second
  · exact .inr stopped

/-- Seen from earlier tokens, a reading is cut from the same one. -/
theorem CutFrom.within {r deeper : Reading α later} (cut : r.CutFrom deeper)
    (shorter : later.length ≤ tokens.length) : (r.within shorter).CutFrom (deeper.within shorter) :=
  cut.imp (congrArg (Reading.within · shorter)) id

/-- Readings in a row are cut from one another when both parts are. -/
theorem CutFrom.andThen {r deeper : Reading α tokens}
    {next further : α → (rest : List Located) → rest.length ≤ tokens.length → Reading β rest}
    (first : r.CutFrom deeper)
    (second : ∀ a rest shorter, (next a rest shorter).CutFrom (further a rest shorter)) :
    (r.andThen next).CutFrom (deeper.andThen further) := by
  obtain ⟨result, rest, shrinks⟩ := r
  rcases first with rfl | ⟨p, stopped⟩
  · cases result with
    | ok a => exact (second a rest shrinks).within shrinks
    | error e => exact .inl rfl
  · obtain rfl : result = .error (.tooDeep p) := stopped
    exact .inr ⟨p, rfl⟩

end Reading

variable {finish : Nat} {nested deeper operand further : Reader}

/-- Brackets are read as with a deeper reader, or the limit stops them. -/
theorem readBracketed_cutFrom (cut : ∀ tokens, (nested tokens).CutFrom (deeper tokens))
    (tokens : List Located) :
    (readBracketed finish nested tokens).CutFrom (readBracketed finish deeper tokens) := by
  unfold readBracketed
  split
  · exact .inl rfl
  · exact .inl rfl
  · exact (cut _).andThen fun _ _ _ => .inl rfl

/-- Steps are read as with a deeper reader, or the limit stops them. -/
theorem readSteps_cutFrom (cut : ∀ tokens, (nested tokens).CutFrom (deeper tokens)) :
    ∀ (object : Expr) (tokens : List Located),
      (readSteps finish nested object tokens).CutFrom (readSteps finish deeper object tokens) := by
  intro object tokens
  induction bound : tokens.length using Nat.strongRecOn generalizing object tokens with
  | ind length ih =>
    match tokens, bound with
    | [], _ =>
      rw [readSteps, readSteps]
      exact .inl rfl
    | ⟨token, p⟩ :: later, bound =>
      have again : ∀ (step : Step) (rest : List Located), rest.length ≤ later.length →
          (readSteps finish nested (step.apply p object) rest).CutFrom
            (readSteps finish deeper (step.apply p object) rest) := by
        intro step rest shorter
        refine ih rest.length ?_ _ rest rfl
        simp only [List.length_cons] at bound
        omega
      rw [readSteps, readSteps]
      cases token with
      | leftBracket =>
        exact ((readBracketed_cutFrom cut later).andThen fun step rest shorter =>
          again step rest shorter).within _
      | dot | dotDot =>
        exact (Reading.CutFrom.andThen (.inl rfl) fun step rest shorter =>
          again step rest shorter).within _
      | _ => exact .inl rfl

/-- Paths are read as with a deeper reader, or the limit stops them. -/
theorem readPath_cutFrom (cut : ∀ tokens, (nested tokens).CutFrom (deeper tokens))
    (tokens : List Located) :
    (readPath finish nested tokens).CutFrom (readPath finish deeper tokens) := by
  have primary : (readPrimary finish nested tokens).CutFrom (readPrimary finish deeper tokens) := by
    unfold readPrimary
    split
    · exact .inl rfl
    · next token p rest =>
      refine Reading.CutFrom.within ?_ _
      cases token with
      | leftParen => exact (cut rest).andThen fun _ _ _ => .inl rfl
      | _ => exact .inl rfl
  exact primary.andThen fun object rest _ => readSteps_cutFrom cut object rest

/-- Combinations are read as with deeper operands, or the limit stops them. -/
theorem readCombination_cutFrom {op : BoolOp}
    (cut : ∀ tokens, (operand tokens).CutFrom (further tokens)) (tokens : List Located) :
    (readCombination op operand tokens).CutFrom (readCombination op further tokens) := by
  have operands : ∀ (left : Expr) (tokens : List Located),
      (readOperands op operand left tokens).CutFrom (readOperands op further left tokens) := by
    intro left tokens
    induction bound : tokens.length using Nat.strongRecOn generalizing left tokens with
    | ind length ih =>
      match tokens, bound with
      | [], _ =>
        rw [readOperands, readOperands]
        exact .inl rfl
      | ⟨token, p⟩ :: later, bound =>
        rw [readOperands, readOperands]
        split
        · refine ((cut later).andThen fun right rest shorter => ?_).within _
          simp only [List.length_cons] at bound
          exact ih rest.length (by omega) _ rest rfl
        · exact .inl rfl
  exact (cut tokens).andThen fun left rest _ => operands left rest

/-- With fewer levels left an expression is read as with more, or the limit stops it. -/
theorem readExpr_cutFrom {few many : Nat} (more : few ≤ many) (tokens : List Located) :
    (readExpr finish few tokens).CutFrom (readExpr finish many tokens) := by
  have single : ∀ levels tokens,
      (readExpr finish levels tokens).CutFrom (readExpr finish (levels + 1) tokens) := by
    intro levels
    induction levels with
    | zero => exact fun tokens => .inr ⟨_, rfl⟩
    | succ levels ih =>
      exact readCombination_cutFrom (readCombination_cutFrom (readPath_cutFrom ih))
  induction more with
  | refl => exact .inl rfl
  | step _ before => exact before.trans (single _ tokens)

/-- Tokens that derive an expression at some depth are read as it, or the limit stops them, and it
does so only below that depth. -/
theorem readWhole_of_derives (finish levels : Nat) {depth : Nat} {tokens : List Located} {e : Expr}
    (derived : Derives depth tokens e) :
    (readWhole finish levels tokens).result = .ok e ∨
      levels < depth ∧ ∃ p, (readWhole finish levels tokens).result = .error (.tooDeep p) := by
  by_cases enough : depth ≤ levels
  · exact .inl ((readWhole_ok_iff finish).2 (derived.mono enough))
  · have fewer : levels < depth := Nat.lt_of_not_le enough
    have cut : (readWhole finish levels tokens).CutFrom (readWhole finish depth tokens) :=
      (readExpr_cutFrom (Nat.le_of_lt fewer) tokens).andThen fun _ _ _ => .inl rfl
    rcases cut with same | stopped
    · exact .inl (same ▸ (readWhole_ok_iff finish).2 derived)
    · exact .inr ⟨fewer, stopped⟩

end PathQuery.Parser
