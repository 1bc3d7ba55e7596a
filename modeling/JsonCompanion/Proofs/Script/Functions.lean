import JsonCompanion.Proofs.Script.Values

/-!
# How functions of an element are read

* `arrow_value` reads an arrow function whose body is an expression, `arrow_block` refuses one whose
  body begins like a copy of an object.
* `reads_lambda` reads a function of an element between parentheses.
-/

namespace JsonCompanion.Script

variable {self : Rules} {ctx : Context} {here : Place} {s : Progress} {token next : Token}
  {tokens : List Token}
  {start : Nat} {parameters : List Element} {isSimple : Bool}

/-! ### Arrows -/

/-- A body that does not begin with a brace is an expression. -/
theorem arrow_value {expr : Expr} {good : Prop} {rest : List Token}
    (hbrace : token.isMark "\x7b" = false) (h : Stands s (.mark "=>" :: token :: rest))
    (hctx : ctx.IsPlain) (hbody : ∀ ctx s, Context.IsPlain ctx → Stands s (token :: rest) →
      Reads (self.assignment ctx) s good fun operand s' => operand.expr = expr ∧
      Stands s' (next :: tokens)) :
    Reads (arrowFunction self ctx start false isSimple parameters) s good fun operand s' =>
      operand.expr = .arrow parameters (some expr) ∧ Stands s' (next :: tokens) := by
  unfold arrowFunction
  simp only [Reads.onNewLine_bind, h.sameLine (congrArg Token.word? h.token_eq), Bool.not_false,
    Reads.require_true]
  refine h.reads_expect (Token.fitsIn_operand _ _) fun s' hs' _ _ => ?_
  simp only [Reads.sees_bind, hs'.token_eq, hbrace, Bool.false_eq_true, if_false, pure_bind]
  refine (hbody _ s' (hctx.arrow false) hs').bind_last fun operand s'' hs'' => ?_
  simp only [Reads.setAssignable_bind, Reads.spanFrom_bind, Reads.pure_iff]
  exact ⟨trivial, by rw [hs''.1], hs''.2.assign false⟩

/-- A body that begins like a copy of an object is no block. -/
theorem arrow_block {depth : Nat} {Q : Operand → Progress → Prop}
    (h : Stands s (.mark "=>" :: .mark "\x7b" :: .mark "..." :: tokens)) :
    Reads (arrowFunction (rules depth) ctx start false isSimple parameters) s False Q := by
  have hbrace : (Token.mark "\x7b").isMark "\x7b" = true := rfl
  unfold arrowFunction
  simp only [Reads.onNewLine_bind, h.sameLine (congrArg Token.word? h.token_eq), Bool.not_false,
    Reads.require_true]
  refine h.reads_expect trivial fun s' hs' _ _ => ?_
  simp only [Reads.sees_bind, hs'.token_eq, hbrace, if_true]
  exact (dots_functionBody hs' depth).bind_false (R := fun _ _ => False)

/-! ### Parameters -/

private theorem close_part : (Token.mark ")").isMark "," = false ∧ (Token.mark ")").isMark ")" = true ∧
    (Token.mark ")").isMark "=>" = false ∧ (Token.mark "=>").isMark "=>" = true := ⟨rfl, rfl, rfl, rfl⟩

/-- What is read between parentheses as the only parameter. -/
def ReadsParameter (self : Rules) (inner : List Token) (expr : Expr) : Prop :=
  ∀ {ctx : Context} {s : Progress} {tokens : List Token}, ctx.IsPlain →
    Stands s (inner ++ .mark ")" :: tokens) → Reads (part? self ctx false) s True fun part s' =>
      (∃ start isSimple, part = some ⟨start, .item expr, {}, isSimple⟩) ∧ Stands s' (.mark ")" :: tokens)

/-- A mere name as a parameter. -/
theorem readsParameter_name {name : Text} {depth : Nat} (hname : Vocabulary.ofWord name = .plain) :
    ReadsParameter (rules (depth + 1)) [.ofName name] (.name name) := by
  intro ctx s tokens hctx h
  have hdots : (Token.ofName name).isMark "..." = false := rfl
  have hword : (Token.ofName name).word?.filter (fun word => word.vocabulary.isOpen) =
      some ⟨name, false, .plain⟩ := by
    rw [Token.ofName, hname]
    rfl
  unfold part?
  simp only [Reads.sees_bind, h.token_eq, hdots, Bool.false_eq_true, if_false, Reads.openWord?_bind,
    hword, wordPart, bind_assoc, Reads.place_bind]
  have hread :=
    reads_name (rules depth) { kind := .parameter } hctx (by rw [hname]; rfl) h (fun _ => trivial) rfl
    (fun hasync => by rw [hname] at hasync; cases hasync)
  refine hread.bind_first fun operand s' hs' => ?_
  have hassign : s'.assignable = true := by
    rw [hs'.2.2, hname]
    rfl
  simp only [Reads.endsPart_bind, hs'.2.1.token_eq, close_part, Bool.false_or, if_true,
    Reads.isAssignable_bind, hassign, bind_assoc, pure_bind, Reads.pure_iff, hs'.1]
  exact ⟨trivial, ⟨_, _, rfl⟩, hs'.2.1⟩

/-- A single parameter between parentheses. -/
private theorem reads_groupParts {expr : Expr} {inner : List Token}
    (hparameter : ReadsParameter self (token :: inner) expr) (hbudget : 0 < self.budget)
    (hdots : token.isMark "..." = false) (hctx : ctx.IsPlain)
    (h : Stands s (token :: (inner ++ .mark ")" :: tokens))) :
    Reads (groupParts self ctx) s True fun reached s' =>
      (∃ start isSimple, reached = .parts ⟨[⟨start, .item expr, {}, isSimple⟩], {}⟩) ∧
        Stands s' (.mark ")" :: tokens) := by
  obtain ⟨turns, hturns⟩ := Nat.exists_eq_succ_of_ne_zero (Nat.ne_of_gt hbudget)
  unfold groupParts
  rw [hturns]
  refine Reads.done ?_
  simp only [Reads.sees_bind, h.token_eq, hdots]
  refine (hparameter hctx h).bind_first fun part s' hs' => ?_
  obtain ⟨⟨start, isSimple, rfl⟩, hs'⟩ := hs'
  simp only [Bool.false_eq_true, if_false, hs'.not_accept close_part.1, Reads.pure_iff]
  exact ⟨trivial, _, rfl, ⟨start, isSimple, rfl⟩, hs'⟩

/-- A single parameter between parentheses in front of an arrow. -/
theorem reads_group (self : Rules) {expr : Expr} {good : Prop} {Q : Operand → Progress → Prop}
    {inner : List Token} (hparameter : ReadsParameter self (token :: inner) expr)
    (hassigns : expr.assignsPlainly = true) (hbudget : 0 < self.budget)
    (hclose : token.isMark ")" = false) (hdots : token.isMark "..." = false)
    (hctx : ctx.IsPlain) (hassign : here.canAssign = true)
    (h : Stands s (.mark "(" :: token :: (inner ++ .mark ")" :: .mark "=>" :: tokens)))
    (harrow : ∀ {ctx s isSimple}, Context.IsPlain ctx → Stands s (.mark "=>" :: tokens) →
      Reads (arrowFunction self ctx start false isSimple [.item expr]) s good Q) :
    Reads (group self ctx here start) s good Q := by
  have hplain := hctx.withIn.tagged
  unfold group
  refine h.reads_expect (Token.fitsIn_operand _ _) fun s' hs' _ _ => ?_
  simp only [hs'.not_accept hclose, Bool.false_eq_true, if_false, forgetOperators, bind_assoc,
    Reads.lastShape_bind, Reads.setShape_bind, Reads.setAssignable_bind]
  -- the group forgets an `await` or `yield` in front of it
  have hcalm : Shape.IsCalm { s'.shape with awaits := false, yields := false } :=
    ⟨hs'.calm.onlyPattern, hs'.calm.repeatsPrototype, rfl, rfl⟩
  have hinside := (hs'.reshape hcalm).assign true
  refine (reads_groupParts hparameter hbudget hdots hplain.grouped hinside).bind_first
    fun reached s' hs' => ?_
  obtain ⟨⟨start', isSimple, rfl⟩, hs'⟩ := hs'
  have hlength : ¬ 1 < [(⟨start', .item expr, {}, isSimple⟩ : Part)].length := by simp
  simp only [Reads.lastStop_bind, hlength, if_false]
  refine hs'.reads_expect trivial fun s'' hs'' _ _ => ?_
  have hshape : Shape.join {} s''.shape.operator = {} := by
    rw [hs''.calm.operator_eq]
    rfl
  simp only [Bool.and_self, Bool.not_false, Reads.require_true, Reads.lastShape_bind, hshape,
    Reads.sees_bind, hs''.token_eq, close_part, if_true, Parts.requireParameters, Bool.false_and,
    List.all_cons, List.all_nil, Element.expr, hassigns, bind_assoc, hassign]
  exact harrow hplain hs''

/-- An expression that begins with a parenthesis. -/
theorem primary_group {good : Prop} {Q : Operand → Progress → Prop} (h : Stands s (.mark "(" :: tokens))
    (hgroup : Reads (group self ctx here s.cursor.start) s good Q) :
    Reads (primaryRule self ctx here) s good Q := by
  have hopen : (Token.mark "(").opensPattern = false ∧ (Token.mark "(").isMark "(" = true := ⟨rfl, rfl⟩
  unfold primaryRule
  simp only [Reads.place_bind, Reads.peek_bind, h.token_eq, markExpression, hopen,
    Bool.false_eq_true, if_false, if_true]
  exact hgroup

/-! ### Functions of an element -/

/-- Code that is no copy of an object does not begin with a brace. -/
theorem Code.head_brace {code : Code} (hspelt : code.IsSpelt) (hcopy : code.isCopy = false) :
    ∃ token tokens, code.tokens = token :: tokens ∧ token.isMark "\x7b" = false := by
  have hchain {code : Code} (hspelt : code.IsSpelt) (hchain : code.isChain) :
      ∃ token tokens, code.tokens = token :: tokens ∧ token.isMark "\x7b" = false := by
    obtain ⟨name, tokens, htokens, -⟩ := Code.chain_head hspelt hchain
    exact ⟨_, tokens, htokens, rfl⟩
  cases code with
  | copy => cases hcopy
  | guarded subject value =>
    obtain ⟨token, tokens, htokens, hbrace⟩ := hchain hspelt.2.1 hspelt.1
    exact ⟨token, _, by rw [Code.tokens, htokens, List.cons_append], hbrace⟩
  | lambda | entryLambda | quoted => exact ⟨_, _, rfl, rfl⟩
  | _ => exact hchain hspelt rfl

theorem reads_lambda {body : Code} {depth : Nat} (hbody : (rules (depth + 1)).ReadsCode body)
    (hspelt : body.IsSpelt) :
    (rules (depth + 3)).ReadsCode (.lambda body) := by
  intro ctx s next tokens hctx hnext h
  have hname : Vocabulary.ofWord "e" = .plain := by decide
  simp only [Code.tokens, List.cons_append] at h
  refine assignment_of_leftHand hnext
    (leftHand_of_primary _ (Nat.succ_pos _) hnext.toEndsOperand (primary_group h ?_))
  refine reads_group _ (readsParameter_name hname) rfl (Nat.succ_pos _) rfl rfl hctx rfl h
    fun {ctx s isSimple} hctx hs => ?_
  -- a copy begins with a brace, which opens a block of statements
  cases hcopy : body.isCopy with
  | false =>
    obtain ⟨token, more, htokens, hbrace⟩ := Code.head_brace hspelt hcopy
    rw [htokens, List.cons_append] at hs
    have hgood : body.isSound ↔ (Code.lambda body).isSound := by
      rw [Code.isSound, hcopy]
      rfl
    refine (arrow_value hbrace hs hctx fun ctx s hctx hs => ?_).congr hgood
    rw [← List.cons_append, ← htokens] at hs
    exact hbody hctx hnext hs
  | true =>
    cases body with
    | copy source =>
      have hgood : False ↔ (Code.lambda (.copy source)).isSound :=
        iff_of_false (fun h => h) Bool.false_ne_true
      exact (arrow_block hs).congr hgood
    | _ => cases hcopy

end JsonCompanion.Script
