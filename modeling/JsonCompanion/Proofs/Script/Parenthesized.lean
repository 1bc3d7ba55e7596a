import JsonCompanion.Proofs.Script.Elements

/-!
# Data between parentheses

* `reads_parenthesized` reads data between parentheses, which might have been a parameter.
* `reads_statement` reads such an expression as a statement.
* `reads_statements` reads statements that stand one behind another.
* `Datum.parse?_text`: the text of data is parsed to what the data means.
-/

namespace JsonCompanion.Script

variable {self : Rules} {ctx : Context} {here : Place} {s : Progress} {token next : Token}
  {tokens : List Token}
  {expr : Expr} {start : Nat}

private theorem close_marks : (Token.mark ")").isMark "," = false ∧ (Token.mark ")").isMark ")" = true ∧
    (Token.mark ")").isMark "=" = false := ⟨rfl, rfl, rfl⟩

private theorem endsCode_close : Token.EndsCode (.mark ")") := Token.endsCode_mark _ (by decide)

/-! ### Parts -/

/-- A word in front of the closing parenthesis. -/
private theorem reads_wordPart {word : Vocabulary}
    (hread : Reads (self.primary ctx { kind := .parameter }) s True fun operand s' =>
      operand.expr = expr ∧ Stands s' (.mark ")" :: tokens)) :
    Reads (wordPart self ctx false word) s True fun part s' =>
      part.element = .item expr ∧ part.shape.IsCalm ∧ Stands s' (.mark ")" :: tokens) := by
  unfold wordPart
  simp only [Reads.place_bind]
  refine hread.bind_first fun operand s' hs' => ?_
  simp only [Reads.endsPart_bind, hs'.2.token_eq, close_marks, Bool.false_or, if_true,
    Reads.isAssignable_bind, Bool.false_eq_true, if_false, Reads.pure_iff, hs'.1]
  exact ⟨trivial, trivial, Shape.IsCalm.ofName _, hs'.2⟩

/-- A list or a record in front of the closing parenthesis. -/
private theorem reads_patternPart
    (hread : Reads (self.collection ctx ⟨.parameter, false, true⟩) s True fun operand s' =>
      operand.expr = expr ∧ Stands s' (.mark ")" :: tokens)) :
    Reads (patternPart self ctx false) s True fun part s' =>
      part.element = .item expr ∧ part.shape.IsCalm ∧ Stands s' (.mark ")" :: tokens) := by
  unfold patternPart
  simp only [Reads.place_bind]
  refine hread.bind_first fun operand s' hs' => ?_
  simp only [Reads.lastShape_bind, Bool.not_false, if_true, Reads.setAssignable_bind,
    Reads.endsPart_bind, hs'.2.token_eq, close_marks, Bool.false_or, Reads.pure_iff, hs'.1]
  exact ⟨trivial, trivial, hs'.2.calm, hs'.2.assign false⟩

/-- Anything else, up to behind the closing parenthesis. -/
private theorem reads_groupRest {shape : Shape} (hbudget : 0 < self.budget) (hshape : shape.IsCalm)
    (hfree : next.IsFree) (hread : Reads (self.assignment ctx) s True fun operand s' =>
      operand.expr = expr ∧ Stands s' (.mark ")" :: next :: tokens)) :
    Reads (groupRest self ctx ⟨[], shape⟩) s True fun operand s' =>
      operand.expr = expr ∧ Stands s' (next :: tokens) := by
  unfold groupRest
  simp only [Reads.place_bind]
  refine hread.bind_first fun operand s' hs' => ?_
  simp only [Reads.sees_bind, hs'.2.token_eq, close_marks, List.isEmpty_nil, Bool.not_true, Bool.or_self]
  refine (sequence_end hbudget close_marks.1 hs'.2).bind_first fun operand' s'' heq => ?_
  obtain ⟨rfl, rfl⟩ := heq
  simp only [Bool.false_eq_true, if_false, Reads.lastStop_bind]
  refine hs'.2.reads_expect (hfree _) fun s'' hs'' _ _ => ?_
  simp only [Reads.setShape_bind, List.getLast?_nil, Reads.pure_iff]
  exact ⟨trivial, hs'.1, hs''.reshape (hshape.join (Shape.IsCalm.noPattern true))⟩

/-- A word, a list or a record is a part that might be a parameter. -/
private theorem reads_part? {d : Datum} (hself : self.ReadsDatum d) (hfield : ctx.inField = false)
    (h : Stands s (d.tokens ++ .mark ")" :: tokens)) :
    Reads (part? self ctx false) s True fun found s' =>
      match found with
      | some part => part.element = .item d.expr ∧ part.shape.IsCalm ∧ Stands s' (.mark ")" :: tokens)
      | none => d.isCollection = false ∧ s' = s := by
  obtain ⟨token, more, htokens, hbegins⟩ := d.exists_head
  have htoken : s.cursor.token = token := (h.begins htokens).token_eq
  unfold part?
  simp only [Reads.sees_bind, htoken, hbegins.dots, Bool.false_eq_true, if_false, Reads.openWord?_bind]
  cases hword : token.word?.filter fun word => word.vocabulary.isOpen with
  | some word =>
    have hcollection : d.isCollection = false := Bool.eq_false_iff.mpr fun hcollection => by
      have hopens := hbegins.word hcollection
      rw [Token.opensWord, hword] at hopens
      cases hopens
    exact (reads_wordPart (hself.primary hcollection hfield rfl endsCode_close h)).bind_first
      fun part s' hs' =>
      ⟨trivial, hs'⟩
  | none =>
    simp only [Reads.peek_bind, htoken, hbegins.opens]
    split
    · next hcollection =>
      exact (reads_patternPart (hself.collection hcollection hfield endsCode_close h)).bind_first
        fun part s' hs' =>
        ⟨trivial, hs'⟩
    · next hcollection => exact ⟨trivial, Bool.eq_false_iff.mpr hcollection, rfl⟩

/-! ### Groups -/

/-- What has been read of an expression between parentheses: all of it with the closing parenthesis,
or the only part. -/
private inductive Reached.Means (expr : Expr) (s : Progress) (tokens : List Token) : Reached → Prop
  | expression {operand : Operand} (hexpr : operand.expr = expr) (hs : Stands s tokens) : Means expr
      s tokens (.expression operand)
  | part {part : Part} {shape : Shape} (helement : part.element = .item expr) (hshape : shape.IsCalm)
      (hs : Stands s (.mark ")" :: tokens)) : Means expr s tokens (.parts ⟨[part], shape⟩)

section

variable {d : Datum} {depth : Nat} (hdepth : d.tokens.length < depth) (hfield : ctx.inField = false)

include hdepth hfield

private theorem reads_datumParts (hfree : next.IsFree)
    (h : Stands s (d.tokens ++ .mark ")" :: next :: tokens)) :
    Reads (groupParts (rules (depth + 1)) ctx) s True fun reached s' =>
      Reached.Means d.expr s' (next :: tokens) reached := by
  have hself := reads_datum (depth + 1) d (Nat.lt_succ_of_lt hdepth)
  obtain ⟨token, more, htokens, hbegins⟩ := d.exists_head
  have htoken : s.cursor.token = token := (h.begins htokens).token_eq
  unfold groupParts
  show Reads (iterate _ (depth + 1) _) s True _
  refine Reads.done ?_
  simp only [Reads.sees_bind, htoken, hbegins.dots]
  refine (reads_part? hself hfield h).bind_first fun found s' hs' => ?_
  match found, hs' with
  | some part, ⟨helement, hshape, hs'⟩ =>
    simp only [Bool.false_eq_true, if_false, hs'.not_accept close_marks.1, Reads.pure_iff]
    exact ⟨trivial, _, rfl, .part helement (Shape.IsCalm.empty.join hshape) hs'⟩
  | none, ⟨hcollection, hs'⟩ =>
    -- nothing that might be a parameter: the rest up to the parenthesis is an expression
    obtain rfl := hs'
    have hbelow := reads_datum depth d hdepth
    have hbudget : 0 < (rules depth).budget := by
      obtain ⟨depth, rfl⟩ := Nat.exists_eq_succ_of_ne_zero (Nat.ne_of_gt (Nat.zero_lt_of_lt hdepth))
      exact Nat.succ_pos _
    have hleft : Reads (leftHand (rules depth) ctx {}) s' True fun operand s' =>
        operand.expr = d.expr ∧ Stands s' (.mark ")" :: next :: tokens) :=
      leftHand_of_primary (rules depth) hbudget endsCode_close.toEndsOperand
        (hbelow.primary hcollection hfield rfl endsCode_close h)
    refine (reads_groupRest (Nat.succ_pos _) Shape.IsCalm.empty hfree
      (assignment_of_leftHand endsCode_close hleft)).bind_first fun operand s' hs' => ?_
    exact ⟨trivial, _, rfl, .expression hs'.1 hs'.2⟩

/-- Data between parentheses. -/
theorem reads_parenthesized (hnext : next.EndsCode)
    (h : Stands s (.mark "(" :: (d.tokens ++ .mark ")" :: next :: tokens))) :
    Reads (primaryRule (rules (depth + 1)) ctx here) s True fun operand s' =>
      operand.expr = d.expr ∧ Stands s' (next :: tokens) := by
  refine primary_group h ?_
  obtain ⟨token, more, htokens, hbegins⟩ := d.exists_head
  have hinside : ctx.withIn.tagged.grouped.inField = false := hfield
  unfold group
  rw [htokens, List.cons_append] at h
  refine h.reads_expect (Token.fitsIn_operand _ _) fun s' hs' _ _ => ?_
  simp only [hs'.not_accept hbegins.close, Bool.false_eq_true, if_false, forgetOperators,
    bind_assoc, Reads.lastShape_bind, Reads.setShape_bind, Reads.setAssignable_bind]
  have hcalm : Shape.IsCalm { s'.shape with awaits := false, yields := false } :=
    ⟨hs'.calm.onlyPattern, hs'.calm.repeatsPrototype, rfl, rfl⟩
  rw [← List.cons_append, ← htokens] at hs'
  refine (reads_datumParts hdepth hinside hnext.free ((hs'.reshape hcalm).assign true)).bind_first
    fun reached s' hs' => ?_
  cases hs' with
  | expression hexpr hs' => exact ⟨trivial, hexpr, hs'⟩
  | @part part shape helement hshape hs' =>
    have hlength : ¬ 1 < [part].length := by simp
    simp only [Reads.lastStop_bind, hlength, if_false]
    refine hs'.reads_expect (hnext.free _) fun s'' hs'' _ _ => ?_
    have hjoin : (shape.join s''.shape.operator).IsCalm :=
      hshape.join (hs''.calm.operator_eq.symm ▸ Shape.IsCalm.empty)
    simp only [hshape.onlyPattern, Bool.and_false, Bool.not_false, Reads.require_true,
      Reads.lastShape_bind, Reads.sees_bind, hs''.token_eq, hnext.arrow, Bool.false_eq_true, if_false]
    simp only [hjoin.onlyPattern, hjoin.repeatsPrototype, Bool.not_false, Bool.and_self,
      Reads.require_true, Reads.lastShape_bind, Reads.setShape_bind, Parts.operand, helement,
      Element.expr, Reads.pure_iff]
    exact ⟨trivial, trivial, hs''.reshape (hs''.calm.join hjoin)⟩

end

/-! ### Statements -/

private theorem open_marks :
    (Token.mark "(").isMark ";" = false ∧ (Token.mark "(").isMark "\x7b" = false ∧
    (Token.mark "(").opensClass = false ∧ (Token.mark "(").isWord "let" = false ∧
    (Token.mark "(").word? = none :=
  ⟨rfl, rfl, rfl, rfl, rfl⟩

private theorem finish_marks : Token.isMark .finish ":" = false ∧ Token.isMark .finish "," = false ∧
    Token.isMark .finish ";" = false ∧ Token.endsStatement .finish = true := ⟨rfl, rfl, rfl, rfl⟩

variable {d : Datum} {depth : Nat}

/-- Data between parentheses as the last statement. -/
theorem reads_statement (hdepth : d.tokens.length < depth) (hfield : ctx.inField = false)
    (h : Stands s (.mark "(" :: (d.tokens ++ [.mark ")", .finish]))) :
    Reads ((rules (depth + 3)).statement ctx false) s True fun body s' =>
      body = .expression d.expr ∧ Stands s' [.finish] := by
  have hbudget : 0 < (rules (depth + 2)).budget := Nat.succ_pos _
  have hprimary : Reads ((rules (depth + 2)).primary ctx {}) s True fun operand s' =>
      operand.expr = d.expr ∧ Stands s' [.finish] :=
        reads_parenthesized hdepth hfield Token.endsCode_finish h
  show Reads (statementRule (rules (depth + 2)) ctx false) s True _
  unfold statementRule
  simp only [Reads.peek_bind, h.token_eq, h.not_accept open_marks.1, h.not_accept open_marks.2.1,
    open_marks, Bool.false_and, Bool.false_eq_true, if_false, expressionStatement, Reads.place_bind,
    Reads.openWord?_bind, Option.filter_none, firstOperand, Reads.seesWord_bind, bind_assoc]
  refine hprimary.bind_first fun operand s' hs' => ?_
  simp only [Reads.sees_bind, expressionRest, endExpression]
  refine (suffixes_end hbudget Token.endsCode_finish.toEndsOperand hs'.2).bind_first
    fun operand' s'' heq => ?_
  obtain ⟨rfl, rfl⟩ := heq
  refine (rest_end Token.endsCode_finish hs'.2).bind_first fun operand' s'' heq => ?_
  obtain ⟨rfl, rfl⟩ := heq
  refine (sequence_end hbudget finish_marks.2.1 hs'.2).bind_first fun operand' s'' heq => ?_
  obtain ⟨rfl, rfl⟩ := heq
  simp only [endStatement, bind_assoc, Reads.onNewLine_bind, Reads.peek_bind, hs'.2.token_eq,
    finish_marks, Bool.or_true, Reads.require_true, hs'.2.not_accept finish_marks.2.2.1, pure_bind,
    Reads.pure_iff, hs'.1]
  exact ⟨trivial, trivial, hs'.2⟩

section

variable {α : Type} {bodyOf : α → StatementBody} {Ahead : List α → Progress → Prop}

/-- A loop that reads a statement in each turn, up to the end. -/
private theorem reads_turns {step : List Statement → Parser (Turn (List Statement) (List Statement))}
    (hend : ∀ {taken s}, Ahead [] s → Reads (step taken) s True fun turn _ => turn = .done taken.reverse)
    (hitem : ∀ {x xs taken s}, Ahead (x :: xs) s → Reads (step taken) s True fun turn s' =>
      ∃ span, turn = .again (⟨span, bodyOf x⟩ :: taken) ∧ Ahead xs s')
    {xs : List α} {taken : List Statement} {turns : Nat} {s : Progress} (hturns : xs.length < turns)
    (h : Ahead xs s) :
    Reads (iterate step turns taken) s True fun list _ =>
      list.map Statement.body = (taken.map Statement.body).reverse ++ xs.map bodyOf := by
  induction xs generalizing taken turns s with
  | nil =>
    obtain ⟨turns, rfl⟩ := Nat.exists_eq_succ_of_ne_zero (Nat.ne_of_gt hturns)
    refine Reads.done ((hend h).imp fun turn s' hturn => ⟨taken.reverse, hturn, ?_⟩)
    rw [List.map_reverse, List.map_nil, List.append_nil]
  | cons x xs ih =>
    obtain ⟨turns, rfl⟩ := Nat.exists_eq_succ_of_ne_zero (Nat.ne_of_gt (Nat.zero_lt_of_lt hturns))
    have hfirst : Reads (step taken) s True fun turn s' =>
        ∃ list, turn = .again list ∧ (∃ span, list = ⟨span, bodyOf x⟩ :: taken) ∧ Ahead xs s' :=
      (hitem h).imp fun turn s' ⟨span, hturn, hs'⟩ => ⟨_, hturn, ⟨span, rfl⟩, hs'⟩
    refine (Reads.again hfirst fun list s' hs' => ?_).congr (iff_of_eq (and_true True))
    obtain ⟨⟨span, rfl⟩, hs'⟩ := hs'
    refine (ih (Nat.lt_of_succ_lt_succ hturns) hs').imp fun list s'' hlist => ?_
    rw [hlist]
    simp

/-- Statements one behind another; `Ahead` says in front of which of them a parser stands. -/
theorem reads_statements {item : Parser StatementBody}
    (hend : ∀ {s}, Ahead [] s → s.cursor.token = .finish)
    (hitem : ∀ {x xs s}, Ahead (x :: xs) s → s.cursor.token ≠ .finish ∧
      Reads item s True fun body s' => body = bodyOf x ∧ Ahead xs s')
    {all : List α} (hbudget : all.length < self.budget) (h : Ahead all s) :
    Reads (statements self item) s True fun list _ => list.map Statement.body = all.map bodyOf := by
  refine reads_turns (fun h => ?_) (fun h => ?_) hbudget h
  · simp only [Reads.peek_bind, hend h]
    exact ⟨trivial, rfl⟩
  · obtain ⟨hfirst, hread⟩ := hitem h
    simp only [Reads.peek_bind, Reads.place_bind]
    refine hread.bind_first fun body s' hs' => ?_
    simp only [Reads.spanFrom_bind, Reads.pure_iff, hs'.1]
    exact ⟨trivial, _, rfl, hs'.2⟩

end

/-- A statement that reaches up to the end is the only one. -/
theorem reads_onlyStatement {item : Parser StatementBody} {body : StatementBody}
    (hbudget : 1 < self.budget) (hfirst : s.cursor.token ≠ .finish)
    (hitem : Reads item s True fun found s' => found = body ∧ Stands s' [.finish]) :
    Reads (statements self item) s True fun list _ => ∃ span, list = [⟨span, body⟩] := by
  have hread : Reads (statements self item) s True fun list _ =>
    list.map Statement.body = [body].map id := by
    let Ahead (ahead : List StatementBody) (s' : Progress) : Prop :=
      ahead = [body] ∧ s' = s ∨ ahead = [] ∧ Stands s' [.finish]
    have hstart : Ahead [body] s := .inl ⟨rfl, rfl⟩
    refine reads_statements ?_ ?_ hbudget hstart
    · rintro s' (⟨hnil, -⟩ | ⟨-, hs'⟩)
      · cases hnil
      · exact hs'.token_eq
    · rintro x xs s' (⟨heq, rfl⟩ | ⟨hnil, -⟩)
      · obtain ⟨rfl, rfl⟩ := List.cons.inj heq
        exact ⟨hfirst, hitem.imp fun found s'' hs'' => ⟨hs''.1, .inr ⟨rfl, hs''.2⟩⟩⟩
      · cases hnil
  refine hread.imp fun list s' hlist => ?_
  obtain ⟨statement, rfl, rfl⟩ := List.map_eq_singleton_iff.1 hlist
  exact ⟨statement.span, rfl⟩

/-! ### Whole texts -/

/-- The statements of a text are what a parser reads in front of it. -/
theorem exists_statementsOf? (item : Rules → Parser StatementBody) {t : Text} {cursor : Cursor}
    {Q : List Statement → Prop} (hbegin : Cursor.begin? ctx.operand t = some cursor)
    (h : Reads (statements (rules (depthFor t)) (item (rules (depthFor t))))
      { cursor } True fun list _ => Q list) :
    ∃ list progress, statementsOf? item ctx t = some (list, progress) ∧ Q list := by
  unfold Reads at h
  unfold statementsOf? StateT.run
  simp only [hbegin, Option.bind_eq_bind, Option.bind_some]
  split at h
  · exact ⟨_, _, ‹_›, h.2⟩
  · exact absurd trivial h

/-- The text of data is parsed to what the data means. -/
theorem Datum.parse?_text (d : Datum) : Expr.parse? d.text = some d.expr := by
  have hspells : Spells ("(" ++ d.text ++ ")") (.mark "(" :: (d.tokens ++ [.mark ")", .finish])) := by
    have hclose : Spells (Text.ofString ")") [.mark ")", .finish] := Spells.finish.mark ")" (by decide)
    have hopen := (d.writes.spells hclose rfl).mark "(" (by decide)
    rwa [← List.append_assoc] at hopen
  obtain ⟨cursor, hbegin, hstands⟩ := hspells.begin? rfl .script
  obtain ⟨depth, hdepth, hbound⟩ : ∃ depth, depthFor ("(" ++ d.text ++ ")") = depth + 3 ∧
    d.tokens.length < depth := by
    have hlength := d.writes.length_le
    refine ⟨depthFor ("(" ++ d.text ++ ")") - 3, ?_, ?_⟩ <;>
      simp only [depthFor, List.length_append] <;> omega
  have hbudget : 1 < (rules (depth + 3)).budget := Nat.le_add_left 2 (depth + 1)
  have hfirst : cursor.token ≠ .finish := by
    rw [hstands.token_eq]
    exact Token.noConfusion
  have hfield : Context.script.inField = false := rfl
  have hread := reads_onlyStatement hbudget hfirst (reads_statement hbound hfield hstands)
  rw [← hdepth] at hread
  obtain ⟨list, progress, hlist, span, rfl⟩ :=
    exists_statementsOf? (fun self => self.statement .script false) hbegin hread
  unfold Expr.parse?
  simp only [hlist, Option.bind_eq_bind, Option.bind_some]
  rfl

end JsonCompanion.Script
