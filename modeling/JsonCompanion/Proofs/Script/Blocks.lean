import JsonCompanion.Proofs.Script.Chains

/-!
# A block that begins like a copy

Behind an arrow a brace opens a block of statements.  A copy of an object is none: no statement
begins with dots.

* `dots_primary`, `dots_statement` and `dots_functionBody` follow the three dots through the parsers
  of all depths.
-/

namespace JsonCompanion.Script

variable {α β : Type} {ctx : Context} {s : Progress} {tokens : List Token}

namespace Reads

variable {p : Parser α} {f : α → Parser β} {Q : β → Progress → Prop}

theorem failure_false {Q : α → Progress → Prop} : Reads failure s False Q := fun h => h

/-- What fails at first fails. -/
theorem bind_false {R : α → Progress → Prop} (h : Reads p s False R) : Reads (p >>= f) s False Q := by
  have hnone : p s = none := by
    unfold Reads at h
    split at h
    · exact h.1.elim
    · assumption
  have hrun : (p >>= f) s = (p s).bind fun (a, s') => f a s' := rfl
  refine of_none ?_ (fun hfalse => hfalse)
  rw [hrun, hnone]
  rfl

/-- What fails behind a part that may succeed fails. -/
theorem bind_fails {first : Prop} {R : α → Progress → Prop} (h : Reads p s first R)
    (hnext : ∀ a s', R a s' → Reads (f a) s' False Q) : Reads (p >>= f) s False Q :=
  (h.bind hnext).congr (iff_of_eq (and_false _))

end Reads

private theorem dots : (Token.mark "...").opensPattern = false ∧ (Token.mark "...").isMark "(" = false ∧
    (Token.mark "...").updates = false ∧ prefixOp? (Token.mark "...") = none ∧
      (Token.mark "...").opensClass = false ∧
    (Token.mark "...").isMark "#" = false ∧ (Token.mark "...").isMark ";" = false ∧
    (Token.mark "...").isMark "\x7b" = false ∧ (Token.mark "...").isMark "\x7d" = false ∧
    (Token.mark "...").isWord "let" = false ∧ (Token.mark "...").word? = none :=
  ⟨rfl, rfl, rfl, rfl, rfl, rfl, rfl, rfl, rfl, rfl, rfl⟩

/-- No operand begins with dots. -/
private theorem dots_primary {here : Place} {Q : Operand → Progress → Prop}
    (h : Stands s (.mark "..." :: tokens)) :
    ∀ depth, Reads ((rules depth).primary ctx here) s False Q
  | 0 => Reads.failure_false
  | depth + 1 => by
    show Reads (primaryRule (rules depth) ctx here) s False Q
    unfold primaryRule
    simp only [Reads.place_bind, Reads.peek_bind, h.token_eq, markExpression, dots,
      Bool.false_eq_true, if_false, map_eq_pure_bind, privateName, expect, bind_assoc, h.not_accept]
    exact Reads.bind_false Reads.failure_false (R := fun _ _ => False)

/-- No statement begins with dots. -/
private theorem dots_statement {alone : Bool} {Q : StatementBody → Progress → Prop}
    (h : Stands s (.mark "..." :: tokens)) : ∀ depth, Reads ((rules depth).statement ctx alone) s False Q
  | 0 => Reads.failure_false
  | depth + 1 => by
    show Reads (statementRule (rules depth) ctx alone) s False Q
    unfold statementRule
    simp only [Reads.peek_bind, h.token_eq, h.not_accept, dots, Bool.false_eq_true, if_false,
      Bool.false_and]
    unfold expressionStatement firstOperand
    simp only [Reads.place_bind, Reads.openWord?_bind, bind_assoc, Reads.seesWord_bind, h.token_eq,
      dots, Bool.false_eq_true, if_false]
    exact (dots_primary h depth).bind_false (R := fun _ _ => False)

private theorem dots_directives {head : Head} (h : Stands s (.mark "..." :: tokens)) : ∀ depth,
    Reads (directives (rules depth) ctx head) s (0 < depth) fun _ s' => s' = s
  | 0 => fun h => absurd h (Nat.lt_irrefl 0)
  | depth + 1 => by
    unfold directives
    refine Reads.congr (Reads.done ?_) (iff_true_intro (Nat.succ_pos depth)).symm
    simp only [Reads.get_bind, h.token_eq, Reads.pure_iff]
    exact ⟨trivial, _, rfl, trivial⟩

private theorem dots_loop {inner : Context} {effects : List Effect} {Q : List Effect → Progress → Prop}
    (h : Stands s (.mark "..." :: tokens)) : ∀ depth, Reads (iterate (fun effects => do
      if ← sees "\x7d" then return .done effects.reverse
      let start ← place
      match ← (rules depth).statement inner false with
      | .expression value => return .again (⟨start, value⟩ :: effects)
      | _ => return .again effects) (rules depth).budget effects) s False Q
  | 0 => Reads.failure_false
  | depth + 1 => by
    refine Reads.bind_false (R := fun _ _ => False) ?_
    simp only [Reads.sees_bind, h.token_eq, dots, Bool.false_eq_true, if_false, Reads.place_bind]
    exact (dots_statement h (depth + 1)).bind_false (R := fun _ _ => False)

private theorem dots_bodyRule {head : Head} {Q : List Effect → Progress → Prop} {depth : Nat}
    (h : Stands s (.mark "\x7b" :: .mark "..." :: tokens)) :
    Reads (functionBodyRule (rules depth) ctx head) s False Q := by
  unfold functionBodyRule
  refine h.reads_expect trivial fun s' hs' _ _ => ?_
  simp only [Reads.sees_bind, hs'.token_eq, dots]
  refine (dots_directives hs' depth).bind_fails fun directives s'' heq => ?_
  simp only [Reads.get_bind, heq]
  refine Reads.require_self.bind_fails fun _ s'' heq => ?_
  simp only [heq, forgetLegacy, forgetParameters, Reads.modify_bind, Reads.lastShape_bind,
    Reads.setShape_bind]
  refine (dots_loop (?_ : Stands _ (.mark "..." :: tokens)) depth).bind_false (R := fun _ _ => False)
  exact ⟨hs'.head, hs'.tail, hs'.sameLine, hs'.written, hs'.endsCalls, hs'.calm.onlyPattern,
    hs'.calm.repeatsPrototype, hs'.calm.awaits, rfl⟩

/-- No block begins with dots. -/
theorem dots_functionBody {head : Head} {Q : List Effect → Progress → Prop}
    (h : Stands s (.mark "\x7b" :: .mark "..." :: tokens)) :
    ∀ depth, Reads ((rules depth).functionBody ctx head) s False Q
  | 0 => Reads.failure_false
  | _ + 1 => dots_bodyRule h

end JsonCompanion.Script
