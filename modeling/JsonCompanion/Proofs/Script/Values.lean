import JsonCompanion.Proofs.Script.Blocks

/-!
# How chains and guards are read as expressions

* `reads_leftHand` reads a chain with all its links.
* `rest_end` and `rest_guard` read what follows an operand: nothing, or a comparison with null and
  two branches.
* `reads_chain` and `reads_guarded` put the two together.
-/

namespace JsonCompanion.Script

variable {ctx : Context} {here : Place} {s : Progress} {next : Token} {tokens : List Token}

/-- All shorter code is read, given some depth for each of its tokens. -/
def ReadsShorter (bound : Nat) : Prop :=
  ∀ depth code, code.IsSpelt → code.tokens.length < bound → 4 * code.tokens.length + 4 ≤ depth →
    (rules depth).ReadsCode code

theorem ReadsShorter.below {bound bound' depth : Nat} (h : ReadsShorter bound) (hle : bound' ≤ bound)
    (hdepth : 4 * bound' ≤ depth) : (rules depth).ReadsBelow bound' :=
  fun code hspelt hlength => h depth code hspelt (by omega) (by omega)

section

variable {code : Code} {bound depth : Nat}

/-- The root of a chain as a primary expression. -/
theorem reads_chainRoot (hself : ReadsShorter bound) (hbound : code.tokens.length ≤ bound)
    (hdepth : 4 * code.tokens.length ≤ depth + 1) (hspelt : code.IsSpelt) (hchain : code.isChain)
    (hctx : ctx.IsPlain) (hnext : next.EndsOperand) (h : Stands s (code.tokens ++ next :: tokens)) :
    Reads ((rules (depth + 2)).primary ctx here) s code.root.isSound fun operand s' =>
      operand.expr = code.root.expr ∧ Stands s' (code.linkTokens ++ next :: tokens) := by
  have hlength : code.tokens.length = code.root.tokens.length + code.linkTokens.length := by
    rw [code.tokens_eq_root, List.length_append]
  rw [code.tokens_eq_root, List.append_assoc] at h
  have hroot : (rules (depth + 1)).ReadsBelow code.root.tokens.length :=
    hself.below (by omega) (by omega)
  exact reads_root hroot (by omega) hspelt hchain hctx hnext h

/-- The links of a chain as suffixes. -/
theorem reads_chainLinks {start : Nat} {operand : Operand} (hself : ReadsShorter bound)
    (hbound : code.tokens.length ≤ bound) (hdepth : 4 * code.tokens.length ≤ depth + 1)
    (hspelt : code.IsSpelt) (hchain : code.isChain) (hctx : ctx.IsPlain) (hnext : next.EndsOperand)
    (hoperand : operand.expr = code.root.expr) (h : Stands s (code.linkTokens ++ next :: tokens)) :
    Reads (suffixes (rules (depth + 2)) ctx start operand) s code.areLinksSound fun operand s' =>
      operand.expr = code.expr ∧ Stands s' (next :: tokens) := by
  have hlength : code.tokens.length = code.root.tokens.length + code.linkTokens.length := by
    rw [code.tokens_eq_root, List.length_append]
  have hlinks : (rules (depth + 2)).ReadsBelow code.linkTokens.length :=
    hself.below (by omega) (by omega)
  have hbudget : code.linkTokens.length < depth + 2 := by omega
  exact reads_suffixes hlinks hbudget hspelt hchain hctx hnext hoperand h

/-- A chain with all its links. -/
theorem reads_leftHand (hself : ReadsShorter bound) (hbound : code.tokens.length ≤ bound)
    (hdepth : 4 * code.tokens.length ≤ depth + 1) (hspelt : code.IsSpelt) (hchain : code.isChain)
    (hctx : ctx.IsPlain) (hnext : next.EndsOperand) (h : Stands s (code.tokens ++ next :: tokens)) :
    Reads (leftHand (rules (depth + 2)) ctx here) s code.isSound fun operand s' =>
      operand.expr = code.expr ∧ Stands s' (next :: tokens) := by
  unfold leftHand
  simp only [Reads.place_bind]
  rw [code.isSound_eq_root, Bool.and_eq_true]
  exact (reads_chainRoot hself hbound hdepth hspelt hchain hctx hnext h).bind fun operand s' hs' =>
    reads_chainLinks hself hbound hdepth hspelt hchain hctx hnext hs'.1 hs'.2

end

/-! ### What follows an operand -/

variable {self : Rules} {start : Nat} {left : Operand} {expr : Expr} {good : Prop}

/-- Nothing is a suffix of an operand. -/
theorem suffixes_end (hbudget : 0 < self.budget) (hnext : next.EndsOperand)
    (h : Stands s (next :: tokens)) :
    Reads (suffixes self ctx start left) s True fun operand s' => operand = left ∧ s' = s := by
  obtain ⟨turns, hturns⟩ := Nat.exists_eq_succ_of_ne_zero (Nat.ne_of_gt hbudget)
  unfold suffixes
  rw [hturns]
  refine (suffix_end h hnext).bind_first fun x s' heq => ?_
  rw [heq.1, heq.2]
  exact ⟨trivial, rfl, rfl⟩

/-- An operand without links. -/
theorem leftHand_of_primary (self : Rules) (hbudget : 0 < self.budget) (hnext : next.EndsOperand)
    (h : Reads (self.primary ctx here) s good fun operand s' => operand.expr = expr ∧
      Stands s' (next :: tokens)) :
    Reads (leftHand self ctx here) s good fun operand s' => operand.expr = expr ∧
      Stands s' (next :: tokens) := by
  unfold leftHand
  simp only [Reads.place_bind]
  refine h.bind_last fun operand s' hs' => ?_
  refine (suffixes_end hbudget hnext hs'.2).imp fun operand' s'' heq => ?_
  rw [heq.1, heq.2]
  exact hs'

/-- Nothing follows an operand. -/
theorem rest_end (hnext : next.EndsCode) (h : Stands s (next :: tokens)) :
    Reads (assignmentRest self ctx start left) s True fun operand s' => operand = left ∧ s' = s := by
  unfold assignmentRest operators branches
  simp only [Reads.peek_bind, h.token_eq, hnext.assigns, Bool.false_eq_true, if_false, bind_assoc,
    hnext.operator, pure_bind, h.not_accept hnext.question, Reads.pure_iff]
  exact ⟨trivial, trivial, trivial⟩

/-- An operand that is a whole expression. -/
theorem assignment_of_leftHand {depth : Nat} (hnext : next.EndsCode)
    (h : Reads (leftHand (rules depth) ctx {}) s good fun operand s' =>
      operand.expr = expr ∧ Stands s' (next :: tokens)) :
    Reads ((rules (depth + 1)).assignment ctx) s good fun operand s' =>
      operand.expr = expr ∧ Stands s' (next :: tokens) := by
  show Reads (assignmentRule (rules depth) ctx) s good _
  unfold assignmentRule
  simp only [Reads.place_bind]
  refine h.bind_last fun operand s' hs' => ?_
  refine (rest_end hnext hs'.2).imp fun operand' s'' heq => ?_
  rw [heq.1, heq.2]
  exact hs'

theorem reads_null_value {depth : Nat} (hnext : next.EndsCode)
    (h : Stands s (.ofName "null" :: next :: tokens)) :
    Reads ((rules (depth + 3)).assignment ctx) s True fun operand s' =>
      operand.expr = .null ∧ Stands s' (next :: tokens) :=
  assignment_of_leftHand hnext
    (leftHand_of_primary _ (Nat.succ_pos _) hnext.toEndsOperand (reads_null h hnext.free))

/-! ### Guards -/

private theorem marks_of_guard :
    binaryOperator? (.mark "?") = none ∧ (Token.mark "?").isMark "=" = false ∧
    binaryOperator? (.mark "==") = some (.left 7) ∧ (Token.mark "==").assigns = false ∧
    (Token.mark "==").isWord "in" = false ∧ (BinaryOperator.left 7).reach = 7 ∧
    (BinaryOperator.left 7).isLogical = false ∧
      Mix.agrees (BinaryOperator.left 7).mix (BinaryOperator.left 7).mix = true ∧
    (Token.mark "==").spelling = Text.ofString "==" := ⟨rfl, rfl, rfl, rfl, rfl, rfl, rfl, rfl, rfl⟩

/-- A comparison ends at a question mark. -/
private theorem endsOperand_question : Token.EndsOperand (.mark "?") :=
  ⟨rfl, rfl, rfl, rfl, rfl, rfl, rfl, rfl, rfl, fun _ => trivial⟩

/-- Nothing more is compared. -/
private theorem binary_end (self : Rules) {least turns : Nat} {beside : BinaryOperator}
    (h : Stands s (.mark "?" :: tokens)) :
    Reads (iterate (fun (left : Operand) => do
      let token ← peek
      match binaryOperator? token with
      | none => return .done left
      | some op =>
        require (op.mix.agrees beside.mix)
        if op.reach ≤ least || (token.isWord "in" && !ctx.inOperator) then return .done left
        advance ctx.operand
        let rightStart ← place
        let right ← leftHand self ctx { canAssign := false }
        let right ← self.binary ctx rightStart op.precedence op right
        let expr := if op.isLogical then Expr.runtime .logical
          else .binary token.spelling left.expr right.expr
        return .again ⟨expr, ← spanFrom start⟩) (turns + 1) left) s True fun operand s' =>
          operand = left ∧ s' = s := by
  refine Reads.done ?_
  simp only [Reads.peek_bind, h.token_eq, marks_of_guard, Reads.pure_iff]
  exact ⟨trivial, _, rfl, rfl, trivial⟩

private theorem binaryRule_end {least depth : Nat} {beside : BinaryOperator}
    (h : Stands s (.mark "?" :: tokens)) :
    Reads ((rules (depth + 2)).binary ctx start least beside left) s True fun operand s' =>
      operand = left ∧ Stands s' (.mark "?" :: tokens) := by
  show Reads (binaryRule (rules (depth + 1)) ctx start least beside left) s True _
  unfold binaryRule
  simp only [Reads.setAssignable_bind]
  have hloop := h.assign false
  refine (binary_end (rules (depth + 1)) hloop).bind_first fun operand s' heq => ?_
  simp only [heq, Reads.sees_bind, h.token_eq, marks_of_guard, Bool.not_false, Reads.require_true,
    Reads.pure_iff]
  exact ⟨trivial, trivial, hloop⟩

/-- A comparison with null in front of a question mark. -/
private theorem binaryRule_null {depth : Nat}
    (h : Stands s (.mark "==" :: .ofName "null" :: .mark "?" :: tokens)) :
    Reads (binaryRule (rules (depth + 3)) ctx start 0 (.left 7) left) s True fun operand s' =>
      operand.expr = .binary "==" left.expr .null ∧ Stands s' (.mark "?" :: tokens) := by
  unfold binaryRule
  simp only [Reads.setAssignable_bind]
  have hloop := h.assign false
  refine Reads.bind_last (R := fun left' s' => left'.expr = .binary "==" left.expr .null ∧
    Stands s' (.mark "?" :: tokens)) ?_ fun operand s' hs' => ?_
  · -- one turn of the loop for the comparison; then it stops at the question mark
    refine Reads.congr (Reads.again (R := fun left' s' => left'.expr = .binary "==" left.expr .null ∧
      Stands s' (.mark "?" :: tokens)) ?_ fun left' s' hs' => ?_) (iff_of_eq (and_true True))
    · have hreach : decide (7 ≤ 0) = false := rfl
      simp only [Reads.peek_bind, h.token_eq, marks_of_guard, Reads.require_true, hreach,
        Bool.false_and, Bool.or_self, Bool.false_eq_true, if_false]
      refine hloop.reads_advance trivial fun s' hs' _ _ => ?_
      simp only [Reads.place_bind]
      have hnull :
          Reads (leftHand (rules (depth + 3)) ctx { canAssign := false }) s' True fun operand s' =>
          operand.expr = .null ∧ Stands s' (.mark "?" :: tokens) :=
        leftHand_of_primary _ (Nat.succ_pos _) endsOperand_question
          (reads_null hs' endsOperand_question.free)
      refine hnull.bind_first fun right s' hright => ?_
      refine (binaryRule_end hright.2).bind_first fun right' s' hright' => ?_
      simp only [Reads.spanFrom_bind, Reads.pure_iff]
      exact ⟨trivial, _, rfl, by rw [hright'.1, hright.1], hright'.2⟩
    · refine (binary_end (rules (depth + 3)) hs'.2).imp fun operand s'' heq => ?_
      rw [heq.1, heq.2]
      exact hs'
  · simp only [Reads.sees_bind, hs'.2.token_eq, marks_of_guard, Bool.not_false, Reads.require_true,
      Reads.pure_iff]
    exact ⟨trivial, hs'⟩

theorem rest_guard {depth : Nat} {value : Code} (hvalue : (rules (depth + 3)).ReadsCode value)
    (hctx : ctx.IsPlain) (hnext : next.EndsCode)
    (h : Stands s (.mark "==" :: .ofName "null" :: .mark "?" :: .ofName "null" :: .mark ":" ::
      (value.tokens ++ next :: tokens))) :
    Reads (assignmentRest (rules (depth + 3)) ctx start left) s value.isSound fun operand s' =>
      operand.expr = .conditional (.binary "==" left.expr .null) .null value.expr ∧
        Stands s' (next :: tokens) := by
  have hcolon : Token.EndsCode (.mark ":") := Token.endsCode_mark _ (by decide)
  unfold assignmentRest operators
  simp only [Reads.peek_bind, h.token_eq, marks_of_guard, Bool.false_eq_true, if_false, bind_assoc]
  refine (binaryRule_null h).bind_first fun condition s' hs' => ?_
  unfold branches
  refine hs'.2.reads_accept trivial fun s'' hs'' _ _ => ?_
  simp only [if_true]
  refine (reads_null_value hcolon hs'').bind_first fun first s' hfirst => ?_
  obtain ⟨token, more, htokens, -⟩ := value.exists_head
  have hbefore := hfirst.2
  rw [htokens, List.cons_append] at hbefore
  refine hbefore.reads_expect (Token.fitsIn_operand _ _) fun s'' hs'' _ _ => ?_
  rw [← List.cons_append, ← htokens] at hs''
  simp only [Reads.setAssignable_bind]
  refine (hvalue hctx.ungrouped hnext (hs''.assign true)).bind_last fun other s' hother => ?_
  simp only [Reads.setAssignable_bind, Reads.spanFrom_bind, Reads.pure_iff]
  exact ⟨trivial, by rw [hs'.1, hfirst.1, hother.1], hother.2.assign false⟩

/-! ### Expressions -/

theorem reads_chain {code : Code} {depth : Nat} (hself : ReadsShorter code.tokens.length)
    (hdepth : 4 * code.tokens.length + 4 ≤ depth) (hspelt : code.IsSpelt) (hchain : code.isChain) :
    (rules depth).ReadsCode code := by
  intro ctx s next tokens hctx hnext h
  obtain ⟨depth, rfl⟩ : ∃ d, depth = d + 3 := ⟨depth - 3, by omega⟩
  exact assignment_of_leftHand hnext
    (reads_leftHand hself (Nat.le_refl _) (by omega) hspelt hchain hctx hnext.toEndsOperand h)

theorem reads_guarded {subject value : Code} {depth : Nat}
    (hself : ReadsShorter (Code.guarded subject value).tokens.length)
    (hdepth : 4 * (Code.guarded subject value).tokens.length + 4 ≤ depth)
    (hspelt : (Code.guarded subject value).IsSpelt) :
    (rules depth).ReadsCode (.guarded subject value) := by
  intro ctx s next tokens hctx hnext h
  have hlength :
      (Code.guarded subject value).tokens.length = subject.tokens.length + value.tokens.length + 5 := by
    simp only [Code.tokens, List.length_append, List.length_cons]
    omega
  obtain ⟨depth, rfl⟩ : ∃ d, depth = d + 4 := ⟨depth - 4, by omega⟩
  have hvalue : (rules (depth + 3)).ReadsCode value :=
    hself (depth + 3) value hspelt.2.2 (by omega) (by omega)
  simp only [Code.tokens, List.append_assoc, List.cons_append] at h
  show Reads (assignmentRule (rules (depth + 3)) ctx) s _ _
  unfold assignmentRule
  simp only [Reads.place_bind]
  have hleft : Reads (leftHand (rules (depth + 3)) ctx {}) s subject.isSound fun operand s' =>
      operand.expr = subject.expr ∧ Stands s' _ :=
    reads_leftHand hself (by omega) (by omega) hspelt.2.1 hspelt.1 hctx Token.endsOperand_equal h
  refine (hleft.bind fun operand s' hs' => ?_).congr (iff_of_eq (by rw [Code.isSound, Bool.and_eq_true]))
  refine (rest_guard hvalue hctx hnext hs'.2).imp fun operand' s'' hs'' => ?_
  exact ⟨by rw [hs''.1, hs'.1, Code.expr], hs''.2⟩

end JsonCompanion.Script
