import JsonCompanion.Proofs.Script.Code

/-!
# How operands are read

* `Token.EndsOperand` and `Token.EndsCode` say which tokens end an operand and a whole piece of code.
* `reads_name` and `reads_this` read what a chain begins with.
* `suffix_member`, `suffix_index` and `suffix_call` read one link of a chain, `suffix_end` finds its end.
-/

namespace JsonCompanion.Script

/-! ### What follows -/

/-- The token neither continues an operand nor makes a parameter of it. -/
structure Token.EndsOperand (token : Token) : Prop where
  updates : token.updates = false
  point : token.isMark "." = false
  bracket : token.isMark "[" = false
  parenthesis : token.isMark "(" = false
  chain : token.isMark "?." = false
  template : token.isTemplate = false
  arrow : token.isMark "=>" = false
  assign : token.isMark "=" = false
  word : token.word? = none
  free : token.IsFree

/-- The token ends an expression in a list, between parentheses or at the end of the text. -/
structure Token.EndsCode (token : Token) : Prop extends token.EndsOperand where
  assigns : token.assigns = false
  operator : binaryOperator? token = none
  question : token.isMark "?" = false

theorem Token.endsCode_finish : Token.EndsCode .finish :=
  ⟨⟨rfl, rfl, rfl, rfl, rfl, rfl, rfl, rfl, rfl, fun _ => trivial⟩, rfl, rfl, rfl⟩

theorem Token.endsCode_mark : ∀ mark ∈ (([")", "]", "\x7d", ",", ":"] : List String).map Text.ofString),
    Token.EndsCode (.mark mark) := by
  simp only [List.map_cons, List.map_nil, List.forall_mem_cons]
  refine ⟨?_, ?_, ?_, ?_, ?_, fun _ h => absurd h List.not_mem_nil⟩
  all_goals exact ⟨⟨rfl, rfl, rfl, rfl, rfl, rfl, rfl, rfl, rfl, fun _ => trivial⟩, rfl, rfl, rfl⟩

theorem Token.endsOperand_equal : Token.EndsOperand (.mark "==") :=
  ⟨rfl, rfl, rfl, rfl, rfl, rfl, rfl, rfl, rfl, fun _ => trivial⟩

variable {self : Rules} {ctx : Context} {here : Place} {s : Progress} {token next : Token}
  {tokens : List Token}

/-! ### Beginnings of chains -/

theorem reads_nameExpression {name : Text} {kind : Vocabulary} (hfield : ctx.inField = false)
    (hkind : kind ≠ .let) (h : Stands s (.word ⟨name, false, kind⟩ :: next :: tokens))
    (hfree : next.IsFree) (harrow : next.isMark "=>" = false) :
    Reads (nameExpression self ctx here ⟨name, false, kind⟩) s True fun operand s' =>
      operand.expr = .name name ∧ Stands s' (next :: tokens) ∧
        s'.assignable = !(ctx.strict && decide (kind = .restricted)) := by
  have hlet : (kind != .let) = true := bne_iff_ne.mpr hkind
  unfold nameExpression
  simp only [Reads.place_bind]
  refine h.reads_passName (hfree _) fun s' hs' _ _ => ?_
  simp only [Reads.sees_bind, hs'.token_eq, harrow, Bool.false_eq_true, if_false, Reads.get_bind, hfield,
    Bool.false_and, Bool.not_false, hlet, Bool.true_or, Reads.require_true,
    Reads.setAssignable_bind, Reads.spanFrom_bind, Reads.pure_iff]
  exact ⟨trivial, trivial, hs'.assign _, trivial⟩

private theorem reads_nameOrArrow {name : Text} {token : Token}
    (h : Stands s (token :: next :: tokens)) (hfree : next.IsFree) (harrow : next.isMark "=>" = false) :
    Reads (nameOrArrow self ctx name) s True fun operand s' =>
      operand.expr = .name name ∧ Stands s' (next :: tokens) ∧ s'.assignable = true := by
  unfold nameOrArrow
  simp only [Reads.place_bind]
  refine h.reads_passName (hfree _) fun s' hs' _ _ => ?_
  simp only [Reads.setAssignable_bind, Reads.sees_bind, hs'.token_eq, harrow, Bool.false_eq_true,
    if_false, Reads.spanFrom_bind, Reads.pure_iff]
  exact ⟨trivial, trivial, hs'.assign true, trivial⟩

private theorem reads_asyncExpression {name : Text} {token : Token}
    (h : Stands s (token :: next :: tokens)) (hfree : next.IsFree)
    (harrow : next.isMark "=>" = false) (hopen : next.isMark "(" = false) (hword : next.word? = none) :
    Reads (asyncExpression self ctx here name) s True fun operand s' =>
      operand.expr = .name name ∧ Stands s' (next :: tokens) ∧ s'.assignable = true := by
  have hfunction : next.isWord "function" = false := by
    cases next with
    | word word => exact absurd hword (by simp [Token.word?])
    | _ => rfl
  unfold asyncExpression
  simp only [Reads.place_bind]
  refine h.reads_passName (hfree _) fun s' hs' _ _ => ?_
  simp only [Reads.seesWord_bind, Reads.onNewLine_bind, hs'.token_eq, hfunction, Bool.false_and,
    Bool.false_eq_true, if_false, asyncParameter?, bind_assoc, hs'.sameLine, Reads.word?_bind,
    hword, Option.map_none, Option.filter_none, pure_bind, Reads.sees_bind, harrow, hopen,
    Reads.setAssignable_bind, Reads.spanFrom_bind, Reads.pure_iff]
  exact ⟨trivial, trivial, hs'.assign true, trivial⟩

theorem reads_name (self : Rules) (here : Place) {name : Text} (hctx : ctx.IsPlain)
    (hname : (Vocabulary.ofWord name).isReference) (h : Stands s (.ofName name :: next :: tokens))
    (hfree : next.IsFree) (harrow : next.isMark "=>" = false)
    (hasync : Vocabulary.ofWord name = .async → next.isMark "(" = false ∧ next.word? = none) :
    Reads (primaryRule self ctx here) s True fun operand s' => operand.expr = .name name ∧
      Stands s' (next :: tokens) ∧
      s'.assignable = !decide (Vocabulary.ofWord name = .restricted) := by
  unfold primaryRule
  simp only [Reads.place_bind, Reads.peek_bind, h.token_eq, Token.ofName, wordExpression]
  unfold Token.ofName at h
  have hread {kind : Vocabulary} (hkind : kind ≠ .let)
      (h : Stands s (.word ⟨name, false, kind⟩ :: next :: tokens)) :
      Reads (nameExpression self ctx here ⟨name, false, kind⟩) s True fun operand s' =>
        operand.expr = .name name ∧ Stands s' (next :: tokens) ∧
          s'.assignable = !decide (kind = .restricted) := by
    simpa only [hctx.strict, Bool.true_and] using reads_nameExpression hctx.inField hkind h hfree harrow
  cases hkind : Vocabulary.ofWord name <;> rw [hkind] at hname h
  case plain => exact hread (by decide) h
  case restricted => exact hread (by decide) h
  case contextual => exact hread (by decide) h
  case async => exact reads_asyncExpression h hfree harrow (hasync hkind).1 (hasync hkind).2
  case particle =>
    have hidentifier : ctx.isIdentifier .particle = true := by
      simp only [Context.isIdentifier, hctx.strict, hctx.isModule]
      cases ctx.inGenerator <;> rfl
    simp only [hidentifier, if_true]
    exact reads_nameOrArrow h hfree harrow
  all_goals exact absurd hname (by decide)

theorem reads_constant {expr : Expr} (h : Stands s (token :: next :: tokens)) (hfree : next.IsFree) :
    Reads (constant ctx expr) s True fun result s' => result = expr ∧ Stands s' (next :: tokens) := by
  unfold constant
  refine h.reads_advance (hfree _) fun s' hs' _ _ => ?_
  simp only [Reads.setAssignable_bind, Reads.pure_iff]
  exact ⟨trivial, trivial, hs'.assign false⟩

theorem reads_reserved {name : Text} (h : Stands s (.ofName name :: next :: tokens))
    (hkind : Vocabulary.ofWord name = .reserved) {good : Prop} {Q : Operand → Progress → Prop}
    (hread : Reads (reservedExpression self ctx here name) s good Q) :
    Reads (primaryRule self ctx here) s good Q := by
  unfold primaryRule
  simp only [Reads.place_bind, Reads.peek_bind, h.token_eq, Token.ofName, wordExpression, hkind,
    Bool.false_eq_true, if_false]
  exact hread

/-- The words that are constants, with their expressions. -/
def constantWords : List (Text × Expr) :=
  [("this", .this), ("null", .null), ("true", .bool true), ("false", .bool false)]

theorem reads_constantWord :
    ∀ word ∈ constantWords, Stands s (.ofName word.1 :: next :: tokens) → next.IsFree →
    Reads (primaryRule self ctx here) s True fun operand s' => operand.expr = word.2 ∧
      Stands s' (next :: tokens) := by
  simp only [constantWords, List.forall_mem_cons]
  refine ⟨?_, ?_, ?_, ?_, fun _ h => absurd h List.not_mem_nil⟩
  all_goals
    intro h hfree
    refine reads_reserved h (by decide) ?_
    unfold reservedExpression
    have hprefix : prefixOp? s.cursor.token = none := by
      rw [h.token_eq]
      rfl
    simp +decide only [Reads.place_bind, Reads.peek_bind, hprefix, if_false, if_true]
    refine (reads_constant h hfree).bind_first fun expr s' hs' => ?_
    simp only [Reads.spanFrom_bind, Reads.pure_iff]
    exact ⟨trivial, hs'⟩

theorem reads_this (h : Stands s (.ofName "this" :: next :: tokens)) (hfree : next.IsFree) :
    Reads (primaryRule self ctx here) s True fun operand s' => operand.expr = .this ∧
      Stands s' (next :: tokens) :=
  reads_constantWord ("this", .this) (by simp [constantWords]) h hfree

theorem reads_null (h : Stands s (.ofName "null" :: next :: tokens)) (hfree : next.IsFree) :
    Reads (primaryRule self ctx here) s True fun operand s' => operand.expr = .null ∧
      Stands s' (next :: tokens) :=
  reads_constantWord ("null", .null) (by simp [constantWords]) h hfree

/-! ### Links of chains -/

private theorem links : (Token.mark ".").updates = false ∧ (Token.mark "[").updates = false ∧
    (Token.mark "(").updates = false ∧ (Token.mark ".").isMark "." = true ∧
      (Token.mark "[").isMark "." = false ∧
    (Token.mark "[").isMark "[" = true ∧ (Token.mark "(").isMark "." = false ∧
      (Token.mark "(").isMark "[" = false ∧
    (Token.mark "(").isMark "(" = true := ⟨rfl, rfl, rfl, rfl, rfl, rfl, rfl, rfl, rfl⟩

/-- Suffixes that have come to an expression outside an optional chain. -/
structure Suffixed.Means (x : Suffixed) (expr : Expr) : Prop where
  expr : x.operand.expr = expr
  inChain : x.inChain = false
  ctx : x.ctx.IsPlain

variable {x : Suffixed} {expr : Expr} {turns start : Nat} {good : Prop} {Q : Suffixed → Progress → Prop}

theorem suffix_end (h : Stands s (next :: tokens)) (hnext : next.EndsOperand) :
    Reads (iterate (suffix self start) (turns + 1) x) s True fun x' s' => x' = x ∧ s' = s := by
  refine Reads.done ?_
  unfold suffix
  simp only [Reads.peek_bind, Reads.onNewLine_bind, h.token_eq, hnext.updates, hnext.point,
    hnext.bracket, hnext.parenthesis, hnext.chain, hnext.template, Bool.false_and,
    Bool.false_eq_true, if_false, Reads.pure_iff]
  exact ⟨trivial, x, rfl, rfl, trivial⟩

theorem suffix_member {label : Text} (hx : x.Means expr)
    (h : Stands s (.mark "." :: .ofName label :: next :: tokens)) (hfree : next.IsFree)
    (hrest : ∀ x' s', x'.Means (.member expr (.label label)) → Stands s' (next :: tokens) →
      Reads (iterate (suffix self start) turns x') s' good Q) :
    Reads (iterate (suffix self start) (turns + 1) x) s good Q := by
  have hturn : Reads (suffix self start x) s True fun turn s' =>
      ∃ x', turn = .again x' ∧ x'.Means (.member expr (.label label)) ∧ Stands s' (next :: tokens) := by
    unfold suffix
    simp only [Reads.peek_bind, Reads.onNewLine_bind, h.token_eq, links, Bool.false_and,
      Bool.false_eq_true, if_false, if_true, bind_assoc, suffixMember, namedMember, Reads.get_bind]
    refine h.reads_expect trivial fun s' hs' _ _ => ?_
    simp only [Reads.setAssignable_bind, memberName, bind_assoc, Reads.peek_bind, hs'.token_eq,
      Token.ofName]
    refine (hs'.assign true).reads_passName (hfree _) fun s' hs' _ _ => ?_
    simp only [pure_bind, Reads.spanFrom_bind, Reads.pure_iff]
    exact ⟨trivial, _, rfl, ⟨by rw [hx.expr], hx.inChain, hx.ctx.ungrouped⟩, hs'⟩
  exact (hturn.again fun x' s' hx' => hrest x' s' hx'.1 hx'.2).congr (iff_of_eq (true_and _))

/-! ### Code inside -/

/-- The parser of an expression reads the given code wherever it ends as code does. -/
def Rules.ReadsCode (self : Rules) (code : Code) : Prop :=
  ∀ ⦃ctx : Context⦄ ⦃s : Progress⦄ ⦃next : Token⦄ ⦃tokens : List Token⦄, ctx.IsPlain → next.EndsCode →
    Stands s (code.tokens ++ next :: tokens) →
    Reads (self.assignment ctx) s code.isSound fun operand s' => operand.expr = code.expr ∧
      Stands s' (next :: tokens)

/-- No comma follows an expression. -/
theorem sequence_end {start : Nat} {operand : Operand} (hbudget : 0 < self.budget)
    (hcomma : next.isMark "," = false) (h : Stands s (next :: tokens)) :
    Reads (self.sequence ctx start operand) s True fun operand' s' => operand' = operand ∧ s' = s := by
  obtain ⟨turns, hturns⟩ := Nat.exists_eq_succ_of_ne_zero (Nat.ne_of_gt hbudget)
  unfold Rules.sequence
  rw [hturns]
  refine Reads.done ?_
  simp only [h.not_accept hcomma, Bool.false_eq_true, if_false, Reads.pure_iff]
  exact ⟨trivial, operand, rfl, rfl, trivial⟩

/-- One expression where a list of several might stand. -/
theorem reads_expression {code : Code} (hcode : self.ReadsCode code) (hctx : ctx.IsPlain)
    (hbudget : 0 < self.budget) (hnext : next.EndsCode) (hcomma : next.isMark "," = false)
    (h : Stands s (code.tokens ++ next :: tokens)) :
    Reads (self.expression ctx) s code.isSound fun operand s' =>
      operand.expr = code.expr ∧ Stands s' (next :: tokens) := by
  unfold Rules.expression
  simp only [Reads.place_bind]
  refine (hcode hctx hnext h).bind_last fun operand s' hs' => ?_
  refine (sequence_end hbudget hcomma hs'.2).imp fun operand' s'' heq => ?_
  rw [heq.1, heq.2]
  exact hs'

/-- What a piece of code begins with. -/
structure Token.BeginsCode (token : Token) : Prop where
  dots : token.isMark "..." = false
  close : token.isMark ")" = false
  comma : token.isMark "," = false
  bracket : token.isMark "]" = false
  free : token.IsFree

private theorem beginsCode_of_notMark {token : Token} (h : ∀ mark, token.isMark mark = false)
    (hfree : token.IsFree) :
    token.BeginsCode :=
  ⟨h _, h _, h _, h _, hfree⟩

theorem Code.exists_head :
    ∀ code : Code, ∃ token tokens, code.tokens = token :: tokens ∧ token.BeginsCode
  | .reference _ => ⟨_, _, rfl, beginsCode_of_notMark (fun _ => rfl) fun _ => trivial⟩
  | .this => ⟨_, _, rfl, beginsCode_of_notMark (fun _ => rfl) fun _ => trivial⟩
  | .construction .. => ⟨_, _, rfl, beginsCode_of_notMark (fun _ => rfl) fun _ => trivial⟩
  | .member object _ => by
    obtain ⟨token, tokens, htokens, hbegins⟩ := exists_head object
    exact ⟨token, _, by rw [Code.tokens, htokens, List.cons_append], hbegins⟩
  | .index object _ => by
    obtain ⟨token, tokens, htokens, hbegins⟩ := exists_head object
    exact ⟨token, _, by rw [Code.tokens, htokens, List.cons_append], hbegins⟩
  | .call callee _ => by
    obtain ⟨token, tokens, htokens, hbegins⟩ := exists_head callee
    exact ⟨token, _, by rw [Code.tokens, htokens, List.cons_append], hbegins⟩
  | .copy _ => ⟨_, _, rfl, rfl, rfl, rfl, rfl, fun _ => trivial⟩
  | .guarded subject _ => by
    obtain ⟨token, tokens, htokens, hbegins⟩ := exists_head subject
    exact ⟨token, _, by rw [Code.tokens, htokens, List.cons_append], hbegins⟩
  | .lambda _ => ⟨_, _, rfl, rfl, rfl, rfl, rfl, fun _ => trivial⟩
  | .entryLambda _ => ⟨_, _, rfl, rfl, rfl, rfl, rfl, fun _ => trivial⟩
  | .quoted _ => ⟨_, _, rfl, beginsCode_of_notMark (fun _ => rfl) fun _ => trivial⟩

theorem suffix_index {key : Code} (hkey : self.ReadsCode key) (hbudget : 0 < self.budget)
    (hx : x.Means expr) (h : Stands s (.mark "[" :: (key.tokens ++ .mark "]" :: next :: tokens)))
    (hfree : next.IsFree)
    (hrest : ∀ x' s', x'.Means (.member expr (.computed key.expr)) → Stands s' (next :: tokens) →
      Reads (iterate (suffix self start) turns x') s' good Q) :
    Reads (iterate (suffix self start) (turns + 1) x) s (key.isSound ∧ good) Q := by
  have hturn : Reads (suffix self start x) s key.isSound fun turn s' =>
      ∃ x', turn = .again x' ∧ x'.Means (.member expr (.computed key.expr)) ∧
        Stands s' (next :: tokens) := by
    obtain ⟨token, more, htokens, -⟩ := key.exists_head
    rw [htokens, List.cons_append] at h
    unfold suffix
    simp only [Reads.peek_bind, Reads.onNewLine_bind, h.token_eq, links, Bool.false_and,
      Bool.false_eq_true, if_false, if_true, bind_assoc, bracketMember, bracketKey]
    refine h.reads_expect (Token.fitsIn_operand _ _) fun s' hs' _ _ => ?_
    rw [← List.cons_append, ← htokens] at hs'
    have hend : Token.EndsCode (.mark "]") := Token.endsCode_mark _ (by decide)
    refine (reads_expression hkey hx.ctx hbudget hend rfl hs').bind_last fun operand s'' hs'' => ?_
    refine hs''.2.reads_expect (hfree _) fun s' hs' _ _ => ?_
    simp only [pure_bind, Reads.setAssignable_bind, Reads.spanFrom_bind, Reads.pure_iff]
    exact ⟨trivial, _, rfl, ⟨by rw [hx.expr, hs''.1], hx.inChain, hx.ctx.ungrouped⟩, hs'.assign true⟩
  exact hturn.again fun x' s' hx' => hrest x' s' hx'.1 hx'.2

/-! ### Arguments -/

private theorem reads_argument {code : Code} (hcode : self.ReadsCode code) (hctx : ctx.IsPlain)
    (hnext : next.EndsCode) (h : Stands s (code.tokens ++ next :: tokens)) :
    Reads (argument self ctx) s code.isSound fun element s' =>
      element = .item code.expr ∧ Stands s' (next :: tokens) := by
  obtain ⟨token, more, htokens, hbegins⟩ := code.exists_head
  have hhead : Stands s (token :: (more ++ next :: tokens)) := by rwa [htokens, List.cons_append] at h
  unfold argument
  simp only [hhead.not_accept hbegins.dots, Bool.false_eq_true, if_false]
  refine (hcode hctx hnext h).bind_last fun operand s' hs' => ?_
  simp only [Reads.pure_iff]
  exact ⟨trivial, by rw [hs'.1], hs'.2⟩

private theorem reads_commaList {behind : Context} (hctx : ctx.IsPlain) :
    ∀ {codes : List Code} {code : Code} {turns : Nat} {taken : List Element}
    {s : Progress}, (∀ code' ∈ code :: codes, self.ReadsCode code') → codes.length < turns →
    Stands s (code.tokens ++ (Code.moreTokens codes ++ .mark ")" :: next :: tokens)) →
    Reads (iterate (fun taken => do
      if ← sees ")" then return .done taken.reverse
      let next ← argument self ctx
      if ← sees ")" then return .done (next :: taken).reverse
      expect behind ","
      return .again (next :: taken)) turns taken) s (Code.areSound (code :: codes)) fun list s' =>
        list = taken.reverse ++ Code.elements (code :: codes) ∧
          Stands s' (.mark ")" :: next :: tokens) := by
  have hclose : Token.EndsCode (.mark ")") := Token.endsCode_mark _ (by decide)
  have hcomma : Token.EndsCode (.mark ",") := Token.endsCode_mark _ (by decide)
  intro codes
  -- one turn of the loop for each argument; the last one is in front of the parenthesis
  induction codes with
  | nil =>
    intro code turns taken s hcodes hturns h
    obtain ⟨turns, rfl⟩ := Nat.exists_eq_succ_of_ne_zero (Nat.ne_of_gt hturns)
    obtain ⟨token, more, htokens, hbegins⟩ := code.exists_head
    have hhead :
        Stands s (token ::
        (more ++ .mark ")" :: next :: tokens)) := by rwa [htokens, List.cons_append] at h
    refine (Reads.done ?_).congr (iff_of_eq (by rw [Code.areSound, Code.areSound, Bool.and_true]))
    simp only [Reads.sees_bind, hhead.token_eq, hbegins.close, Bool.false_eq_true, if_false]
    refine (reads_argument (hcodes code List.mem_cons_self) hctx hclose h).bind_last
      fun element s' hs' => ?_
    simp only [Reads.sees_bind, hs'.2.token_eq, Token.isMark, beq_self_eq_true, if_true, Reads.pure_iff]
    exact ⟨trivial, _, rfl, by rw [hs'.1, List.reverse_cons]; rfl, hs'.2⟩
  | cons head codes ih =>
    intro code turns taken s hcodes hturns h
    obtain ⟨turns, rfl⟩ := Nat.exists_eq_succ_of_ne_zero (Nat.ne_of_gt (Nat.zero_lt_of_lt hturns))
    obtain ⟨token, more, htokens, hbegins⟩ := code.exists_head
    have hhead :
        Stands s (token ::
        (more ++ (Code.moreTokens (head :: codes) ++ .mark ")" :: next :: tokens))) := by
      rwa [htokens, List.cons_append] at h
    have hgood : code.isSound ∧ Code.areSound (head :: codes) ↔
        Code.areSound (code :: head :: codes) := by
      rw [Code.areSound.eq_2 code, Bool.and_eq_true]
    refine Reads.congr (Reads.again (R := fun taken' s' => taken' = .item code.expr :: taken ∧
      Stands s' (head.tokens ++ (Code.moreTokens codes ++ .mark ")" :: next :: tokens))) ?_
      fun taken' s' hs' => ?_) hgood
    · simp only [Reads.sees_bind, hhead.token_eq, hbegins.close, Bool.false_eq_true, if_false]
      rw [Code.moreTokens, List.cons_append, List.append_assoc] at h
      refine (reads_argument (hcodes code List.mem_cons_self) hctx hcomma h).bind_last
        fun element s' hs' => ?_
      have hopen : (Token.mark ",").isMark ")" = false := rfl
      simp only [Reads.sees_bind, hs'.2.token_eq, hopen, Bool.false_eq_true, if_false]
      obtain ⟨first, rest, hfirst, hbegins'⟩ := head.exists_head
      have hnext := hs'.2
      rw [hfirst, List.cons_append] at hnext ⊢
      refine hnext.reads_expect (hbegins'.free _) fun s'' hs'' _ _ => ?_
      exact ⟨trivial, _, rfl, by rw [hs'.1], hs''⟩
    · have hhead' : ∀ code' ∈ head :: codes, self.ReadsCode code' := fun code' hmem =>
        hcodes code' (List.mem_cons_of_mem _ hmem)
      refine (ih hhead' (Nat.lt_of_succ_lt_succ hturns) hs'.2).imp fun list s'' hs'' => ⟨?_, hs''.2⟩
      rw [hs''.1, hs'.1, List.reverse_cons, List.append_assoc]
      rfl

theorem reads_arguments {codes : List Code} (hcodes : ∀ code ∈ codes, self.ReadsCode code)
    (hbudget : codes.length < self.budget) (hctx : ctx.IsPlain)
    (h : Stands s (.mark "(" :: (Code.listTokens codes ++ .mark ")" :: next :: tokens)))
    (hfree : next.IsFree) :
    Reads (arguments self ctx) s (Code.areSound codes) fun list s' =>
      list = Code.elements codes ∧ Stands s' (next :: tokens) := by
  unfold arguments
  match codes with
  | [] =>
    refine h.reads_expect trivial fun s' hs' _ _ => ?_
    refine hs'.reads_accept (hfree _) fun s' hs' _ _ => ?_
    simp only [if_true, Reads.pure_iff]
    exact ⟨rfl, rfl, hs'⟩
  | code :: codes =>
    rw [Code.listTokens, List.append_assoc] at h
    obtain ⟨token, more, htokens, hbegins⟩ := code.exists_head
    have hopen := h
    rw [htokens, List.cons_append] at hopen
    refine hopen.reads_expect (Token.fitsIn_operand _ _) fun s' hs' _ _ => ?_
    simp only [hs'.not_accept hbegins.close, Bool.false_eq_true, if_false, commaList]
    rw [← List.cons_append, ← htokens] at hs'
    refine (reads_commaList hctx hcodes (Nat.lt_of_succ_lt hbudget) hs').bind_last
      fun list s'' hs'' => ?_
    refine hs''.2.reads_expect (hfree _) fun s' hs' _ _ => ?_
    exact ⟨trivial, hs''.1, hs'⟩

theorem suffix_call {codes : List Code} (hcodes : ∀ code ∈ codes, self.ReadsCode code)
    (hbudget : codes.length < self.budget) (hx : x.Means expr)
    (h : Stands s (.mark "(" :: (Code.listTokens codes ++ .mark ")" :: next :: tokens)))
    (hfree : next.IsFree)
    (hrest : ∀ x' s', x'.Means (.call expr (Code.elements codes)) → Stands s' (next :: tokens) →
      Reads (iterate (suffix self start) turns x') s' good Q) :
    Reads (iterate (suffix self start) (turns + 1) x) s (Code.areSound codes ∧ good) Q := by
  have hturn : Reads (suffix self start x) s (Code.areSound codes) fun turn s' =>
      ∃ x', turn = .again x' ∧ x'.Means (.call expr (Code.elements codes)) ∧
        Stands s' (next :: tokens) := by
    unfold suffix
    simp only [Reads.peek_bind, Reads.onNewLine_bind, h.token_eq, links, Bool.false_and,
      Bool.false_eq_true, if_false, if_true, Reads.get_bind, h.endsCalls]
    refine (reads_arguments hcodes hbudget hx.ctx h hfree).bind_last fun list s' hs' => ?_
    simp only [Reads.setAssignable_bind, Reads.spanFrom_bind, Reads.pure_iff]
    exact ⟨trivial, _, rfl, ⟨by rw [hx.expr, hs'.1], hx.inChain, hx.ctx.ungrouped⟩, hs'.2.assign false⟩
  exact hturn.again fun x' s' hx' => hrest x' s' hx'.1 hx'.2

end JsonCompanion.Script
