import JsonCompanion.Proofs.Script.Collections

/-!
# How code is read

* `reads_code` reads any code, given some depth for each of its tokens.
* `Code.parseWhole?_text`: as a whole text, code is an expression exactly if it is sound, and then
  the one that it means.
-/

namespace JsonCompanion.Script

/-! ### Code inside other code -/

/-- A text in quotes. -/
private theorem reads_quoted {value : Text} {depth : Nat} :
    (rules (depth + 2)).ReadsCode (.quoted value) := by
  intro ctx s next tokens hctx hnext h
  have hhead : Stands s (.string value false :: next :: tokens) := h
  have hprimary : Reads ((rules (depth + 1)).primary ctx {}) s True fun operand s' =>
      operand.expr = .string value ∧ Stands s' (next :: tokens) := by
    show Reads (primaryRule (rules depth) ctx {}) s True _
    unfold primaryRule
    simp only [Reads.place_bind, Reads.peek_bind, hhead.token_eq, literal?, require?, pure_bind]
    refine (reads_constant hhead hnext.free).bind_first fun expr s' hs' => ?_
    simp only [Reads.spanFrom_bind, Reads.pure_iff]
    exact ⟨trivial, hs'⟩
  have hleft := leftHand_of_primary (rules (depth + 1)) (Nat.succ_pos _) hnext.toEndsOperand hprimary
  exact (assignment_of_leftHand hnext hleft).congr (iff_true_intro rfl).symm

theorem reads_code : ∀ bound, ReadsShorter bound
  | 0 => fun _ _ _ hlength => absurd hlength (Nat.not_lt_zero _)
  | bound + 1 => by
    intro depth code hspelt hlength hdepth
    have hself : ReadsShorter code.tokens.length :=
      fun depth' code' hspelt' hlength' => reads_code bound depth' code' hspelt' (by omega)
    cases code with
    | copy source => exact reads_copy hself hdepth hspelt
    | guarded subject value => exact reads_guarded hself hdepth hspelt
    | lambda body =>
      have hlambda : (Code.lambda body).tokens.length = body.tokens.length + 4 := rfl
      obtain ⟨depth, rfl⟩ : ∃ d, depth = d + 3 := ⟨depth - 3, by omega⟩
      exact reads_lambda (hself (depth + 1) body hspelt (by omega) (by omega)) hspelt
    | entryLambda body => exact reads_entryLambda hself hdepth hspelt
    | quoted value =>
      obtain ⟨depth, rfl⟩ : ∃ d, depth = d + 2 := ⟨depth - 2, by omega⟩
      exact reads_quoted
    | _ => exact reads_chain hself hdepth hspelt rfl

/-! ### Code as a whole text -/

private theorem not_isIdentifier_hash :
    ∀ us : Text, Text.isIdentifier (CodeUnit.ofChar '#' :: us) = false
  | [] => rfl
  | v :: vs => by
    have hleading : (CodeUnit.ofChar '#').isLeading = false := rfl
    have hstart : Text.isIdentifierStart (CodeUnit.ofChar '#').toNat = false := rfl
    simp only [Text.isIdentifier, Text.codePoints, hleading, Bool.false_and, Bool.false_eq_true,
      if_false, List.head?_cons, Option.any_some, hstart]

/-- Code does not begin like a comment in the first line. -/
private theorem text_hash : ∀ (code : Code) (rest : Text), code.IsSpelt →
    Text.dropBeginning? "#!" (code.text ++ rest) = none
  | .reference name, rest, hspelt => by
    match name with
    | [] => exact absurd hspelt.1 (by decide)
    | u :: us =>
      have hhash : (CodeUnit.ofChar '#' == u) = false := by
        rw [beq_eq_false_iff_ne]
        rintro rfl
        exact Bool.false_ne_true ((not_isIdentifier_hash us).symm.trans hspelt.1)
      show (if CodeUnit.ofChar '#' == u then _ else none) = none
      rw [hhash]
      rfl
  | .member object label, rest, hspelt => by
    simp only [Code.text, List.append_assoc]
    exact text_hash object _ hspelt.2.1
  | .index object key, rest, hspelt => by
    simp only [Code.text, List.append_assoc]
    exact text_hash object _ hspelt.2.1
  | .call callee arguments, rest, hspelt => by
    simp only [Code.text, List.append_assoc]
    exact text_hash callee _ hspelt.2.2.1
  | .guarded subject value, rest, hspelt => by
    simp only [Code.text, List.append_assoc]
    exact text_hash subject _ hspelt.2.1
  | .this, _, _ | .construction .., _, _ | .copy _, _, _ | .lambda _, _, _
  | .entryLambda _, _, _ | .quoted _, _, _ => rfl

/-- As a whole text, code is an expression exactly if it is sound. -/
theorem Code.parseWhole?_text {code : Code} (hspelt : code.IsSpelt) :
    Expr.parseWhole? code.text = if code.isSound then some code.expr else none := by
  have hhash : Text.dropBeginning? "#!" code.text = none := by
    rw [← List.append_nil code.text]
    exact text_hash code [] hspelt
  have hspells : Spells code.text (code.tokens ++ [.finish]) := by
    rw [← List.append_nil code.text]
    exact code.spells hspelt Spells.finish rfl
  obtain ⟨token, tokens, htokens, -⟩ := code.exists_head
  rw [htokens, List.cons_append] at hspells
  obtain ⟨cursor, hbegin, hstands⟩ := hspells.begin? hhash .module
  rw [← List.cons_append, ← htokens] at hstands
  -- no token is empty, so that there is depth enough for all of them
  have hdepth : 4 * code.tokens.length + 4 ≤ depthFor code.text := by
    have hlength := code.length_tokens_le hspelt
    rw [depthFor]
    omega
  have hread :=
    reads_expression (reads_code _ _ code hspelt (Nat.lt_succ_self _) hdepth) Context.IsPlain.module
    (Nat.succ_pos _) Token.endsCode_finish rfl hstands
  unfold Reads at hread
  unfold Expr.parseWhole? StateT.run
  simp only [hbegin, Option.bind_eq_bind, Option.bind_some]
  split at hread
  · next operand s' hrun =>
    rw [hrun, if_pos hread.1, Option.bind_some, hread.2.2.token_eq, hread.2.1]
  · next hrun =>
    rw [hrun, if_neg hread, Option.bind_none]

end JsonCompanion.Script
