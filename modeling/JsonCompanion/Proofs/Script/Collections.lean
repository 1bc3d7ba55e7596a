import JsonCompanion.Proofs.Script.Functions

/-!
# How copies and entries are read

* `reads_copy` reads a copy of an object.
* `reads_pair` reads a list of a name and a second element, as the parameter of a function of an
  entry and as its body.
* `reads_entryLambda` reads such a function.
-/

namespace JsonCompanion.Script

variable {self : Rules} {ctx : Context} {here : Place} {reading : Reading} {s : Progress}
  {token next : Token}
  {tokens : List Token} {start : Nat} {shape : Shape} {expr : Expr}

/-! ### Ends -/

/-- A list or an object to which nothing is assigned. -/
theorem reads_end (hnext : next.assigns = false) (hshape : shape.IsCalm)
    (h : Stands s (next :: tokens)) :
    Reads (endCollection self ctx reading start shape expr) s True fun operand s' =>
      operand.expr = expr ∧ s'.shape = shape ∧ Stands s' (next :: tokens) := by
  unfold endCollection
  simp only [Reads.peek_bind, h.token_eq, hnext, Bool.and_false, Bool.false_eq_true, if_false,
    Reads.setShape_bind, Reads.spanFrom_bind, Reads.pure_iff]
  exact ⟨trivial, trivial, trivial, h.reshape hshape⟩

/-! ### Copies -/

private theorem endsOperand_brace : Token.EndsOperand (.mark "\x7d") :=
  (Token.endsCode_mark _ (by decide)).toEndsOperand

/-- A chain behind three dots in an object. -/
private theorem reads_spread {source : Code} {bound depth : Nat} (hself : ReadsShorter bound)
    (hbound : source.tokens.length ≤ bound) (hdepth : 4 * source.tokens.length ≤ depth + 1)
    (hspelt : source.IsSpelt) (hchain : source.isChain) (hctx : ctx.IsPlain)
    (h : Stands s (.mark "..." :: (source.tokens ++ .mark "\x7d" :: tokens))) :
    Reads (spread (rules (depth + 2)) ctx "\x7d" reading false) s source.isSound fun operand s' =>
      operand.expr = source.expr ∧ Stands s' (.mark "\x7d" :: tokens) := by
  obtain ⟨name, more, htokens, hopen⟩ := Code.chain_head hspelt hchain
  have hword : ((Token.ofName name).word?.filter fun word => word.vocabulary.isOpen).isSome = true := by
    show (Option.filter _ (some (⟨name, false, Vocabulary.ofWord name⟩ : Word))).isSome = true
    rw [Option.filter_some, if_pos hopen]
    rfl
  have hhead := h
  rw [htokens, List.cons_append] at hhead
  unfold spread
  refine hhead.reads_expect trivial fun s' hs' _ _ => ?_
  simp only [Reads.place_bind, Reads.openWord?_bind, hs'.token_eq, hword, if_true, spreadName,
    bind_assoc, Reads.setAssignable_bind]
  rw [← List.cons_append, ← htokens] at hs'
  rw [source.isSound_eq_root, Bool.and_eq_true]
  refine (reads_chainRoot hself hbound hdepth hspelt hchain hctx endsOperand_brace
    (hs'.assign true)).bind
    fun first s' hfirst => ?_
  simp only [Reads.endsPart_bind]
  refine (reads_chainLinks hself hbound hdepth hspelt hchain hctx endsOperand_brace hfirst.1
    hfirst.2).bind_last
    fun operand s'' hoperand => ?_
  have hclose : (Token.mark "\x7d").isMark "\x7d" = true := rfl
  simp only [Reads.endsPart_bind, hoperand.2.token_eq, hclose, Bool.or_true, if_true, bind_assoc,
    pure_bind, Reads.isAssignable_bind, Reads.lastShape_bind, spreadRest, Reads.sees_bind,
    Reads.setShape_bind, Reads.pure_iff]
  refine ⟨trivial, hoperand.1, hoperand.2.reshape ?_⟩
  rw [hoperand.2.calm.awaits]
  refine (Shape.IsCalm.empty.join ?_).join Shape.IsCalm.empty
  split
  · exact Shape.IsCalm.noBinding _
  · exact Shape.IsCalm.noPattern _

/-- An object that is a copy of another one. -/
private theorem reads_object {source : Code} {bound depth : Nat} (hself : ReadsShorter bound)
    (hbound : source.tokens.length ≤ bound) (hdepth : 4 * source.tokens.length ≤ depth + 1)
    (hspelt : source.IsSpelt) (hchain : source.isChain) (hctx : ctx.IsPlain) (hfree : next.IsFree)
    (hnext : next.assigns = false)
    (h : Stands s (.mark "\x7b" :: .mark "..." :: (source.tokens ++ .mark "\x7d" :: next :: tokens))) :
    Reads ((rules (depth + 3)).collection ctx reading) s source.isSound fun operand s' =>
      operand.expr = .object [.spread source.expr] ∧ Stands s' (next :: tokens) := by
  have hopen : (Token.mark "\x7b").isMark "[" = false := rfl
  have hdots : (Token.mark "...").isMark "\x7d" = false ∧ (Token.mark "...").isMark "..." = true :=
    ⟨rfl, rfl⟩
  show Reads (collectionRule (rules (depth + 2)) ctx reading) s _ _
  unfold collectionRule objectRule
  simp only [Reads.sees_bind, h.token_eq, hopen, Bool.false_eq_true, if_false, Reads.place_bind]
  refine h.reads_expect trivial fun s' hs' _ _ => ?_
  refine Reads.bind_last
    (R := fun properties s' => (properties.taken = [.spread source.expr] ∧ properties.shape.IsCalm ∧
      properties.prototypes = 0) ∧ Stands s' (next :: tokens)) ?_ fun properties s' hproperties => ?_
  · show Reads (iterate _ (depth + 1 + 1) _) s' _ _
    refine Reads.done ?_
    simp only [hs'.not_accept hdots.1, Bool.false_eq_true, if_false, Properties.addPart, bind_assoc,
      Reads.sees_bind, hs'.token_eq, hdots, if_true]
    refine (reads_spread hself hbound hdepth hspelt hchain hctx.withIn hs').bind_last
      fun operand s' hoperand => ?_
    simp only [Reads.lastShape_bind, pure_bind]
    refine hoperand.2.reads_accept (hfree _) fun s'' hs'' _ _ => ?_
    simp only [if_true, Reads.pure_iff]
    exact ⟨trivial, _, rfl, ⟨by rw [hoperand.1], Shape.IsCalm.empty.join hoperand.2.calm, rfl⟩, hs''⟩
  · obtain ⟨⟨htaken, hcalm, hprototypes⟩, hs'⟩ := hproperties
    have hshape :
        (properties.shape.join { repeatsPrototype := decide (1 < properties.prototypes) }).IsCalm := by
      rw [hprototypes]
      exact hcalm.join Shape.IsCalm.empty
    refine (reads_end hnext hshape hs').imp fun operand s'' hoperand => ?_
    rw [htaken] at hoperand
    exact ⟨hoperand.1, hoperand.2.2⟩

/-- A list or an object where an expression is expected. -/
theorem primary_collection (self : Rules) {good : Prop} {mark : Text}
    (hopens : (Token.mark mark).opensPattern = true) {rest : List Token}
    (h : Stands s (.mark mark :: rest))
    (hread : Reads (self.collection ctx ⟨.expression, false, here.canAssign⟩) s good fun operand s' =>
      operand.expr = expr ∧ Stands s' (next :: tokens)) :
    Reads (primaryRule self ctx here) s good fun operand s' => operand.expr = expr ∧
      Stands s' (next :: tokens) := by
  unfold primaryRule
  simp only [Reads.place_bind, Reads.peek_bind, h.token_eq, markExpression, hopens, if_true,
    collectionExpression]
  refine hread.bind_last fun operand s' hs' => ?_
  simp only [Reads.lastShape_bind, hs'.2.calm.repeatsPrototype, hs'.2.calm.onlyPattern,
    Bool.not_false, Bool.and_self, Reads.require_true, Reads.pure_iff]
  exact ⟨trivial, hs'⟩

theorem reads_copy {source : Code} {depth : Nat} (hself : ReadsShorter (Code.copy source).tokens.length)
    (hdepth : 4 * (Code.copy source).tokens.length + 4 ≤ depth) (hspelt : (Code.copy source).IsSpelt) :
    (rules depth).ReadsCode (.copy source) := by
  intro ctx s next tokens hctx hnext h
  have hlength : (Code.copy source).tokens.length = source.tokens.length + 3 := by
    simp only [Code.tokens, List.length_append, List.length_cons, List.length_nil]
  obtain ⟨depth, rfl⟩ : ∃ d, depth = d + 6 := ⟨depth - 6, by omega⟩
  simp only [Code.tokens, List.cons_append, List.append_assoc, List.nil_append] at h
  refine assignment_of_leftHand hnext (leftHand_of_primary _ (Nat.succ_pos _) hnext.toEndsOperand ?_)
  exact primary_collection (rules (depth + 4)) rfl h
    (reads_object hself (by omega) (by omega) hspelt.2 hspelt.1 hctx hnext.free hnext.assigns h)

/-! ### Elements of lists -/

private theorem separators : (Token.mark ",").isMark "=" = false ∧ (Token.mark ",").isMark "," = true ∧
    (Token.mark ",").isMark "]" = false ∧ (Token.mark "]").isMark "=" = false ∧
      (Token.mark "]").isMark "," = false ∧
    (Token.mark "]").isMark "]" = true ∧ (Token.mark "==").isMark "=" = false ∧
      (Token.mark "==").isMark "," = false ∧
    (Token.mark "==").isMark "]" = false := ⟨rfl, rfl, rfl, rfl, rfl, rfl, rfl, rfl, rfl⟩

/-- An element that begins with a word. -/
private theorem element_word {name : Text} {taken : List Element} {rest : List Token} {good : Prop}
    {P : Shape → Prop} (hopen : (Vocabulary.ofWord name).isOpen = true)
    (h : Stands s (.ofName name :: rest))
    (hread : Reads (wordElement self ctx reading shape) s good fun part s' =>
      part.1.expr = expr ∧ P part.2 ∧ Stands s' tokens) :
    Reads (element self ctx reading (taken, shape)) s good fun elements s' =>
      elements.1 = .item expr :: taken ∧ P elements.2 ∧ Stands s' tokens := by
  have hdots : (Token.ofName name).isMark "..." = false := rfl
  have hword : ((Token.ofName name).word?.filter fun word => word.vocabulary.isOpen).isSome = true := by
    show (Option.filter _ (some (⟨name, false, Vocabulary.ofWord name⟩ : Word))).isSome = true
    rw [Option.filter_some, if_pos hopen]
    rfl
  unfold element
  simp only [Reads.sees_bind, h.token_eq, hdots, Bool.false_eq_true, if_false, Reads.openWord?_bind,
    hword, if_true, Reads.peek_bind]
  refine hread.bind_last fun part s' hs' => ?_
  simp only [Reads.pure_iff]
  exact ⟨trivial, by rw [hs'.1], hs'.2⟩

/-- A mere name as an element. -/
private theorem wordElement_name {name : Text} {depth : Nat} (hname : Vocabulary.ofWord name = .plain)
    (hctx : ctx.IsPlain) (hnext : next = .mark "," ∨ next = .mark "]")
    (h : Stands s (.ofName name :: next :: tokens)) :
    Reads (wordElement (rules (depth + 1)) ctx reading {}) s True fun part s' =>
      part.1.expr = .name name ∧ part.2 = {} ∧ Stands s' (next :: tokens) := by
  have hend : next.isMark "=" = false ∧ (next.isMark "," || next.isMark "]") = true ∧
      next.isMark "=>" = false := by
    rcases hnext with rfl | rfl <;> exact ⟨rfl, rfl, rfl⟩
  unfold wordElement
  simp only [Reads.place_bind]
  have hread :=
    reads_name (rules depth) { kind := reading.kind } hctx (by rw [hname]; rfl) h
    (by rcases hnext with rfl | rfl <;> exact fun _ => trivial) hend.2.2
    (fun hasync => by rw [hname] at hasync; cases hasync)
  refine hread.bind_first fun operand s' hs' => ?_
  have hassign : s'.assignable = true := by
    rw [hs'.2.2, hname]
    rfl
  simp only [Reads.sees_bind, hs'.2.1.token_eq, hend, Bool.false_eq_true, if_false,
    Reads.endsPart_bind, if_true, Reads.isAssignable_bind, hassign, Reads.lastShape_bind,
    hs'.2.1.calm.operator_eq, Reads.pure_iff]
  exact ⟨trivial, hs'.1, rfl, hs'.2.1⟩

/-- What the shape of a list becomes at an element of some kind that is no name. -/
theorem calm_kind (kind : BindingKind) : Shape.IsCalm (match kind with
    | .expression => {}
    | .parameter => { noBinding := true }
    | _ => { noPattern := true }) := by
  cases kind
  · exact Shape.IsCalm.empty
  · exact Shape.IsCalm.noBinding true
  · exact Shape.IsCalm.noPattern true
  · exact Shape.IsCalm.noPattern true

/-- A chain as an element. -/
private theorem wordElement_chain {code : Code} {bound depth : Nat} (hself : ReadsShorter bound)
    (hbound : code.tokens.length ≤ bound) (hdepth : 4 * code.tokens.length ≤ depth + 1)
    (hspelt : code.IsSpelt) (hchain : code.isChain) (hctx : ctx.IsPlain) (hshape : shape.IsCalm)
    (h : Stands s (code.tokens ++ .mark "]" :: tokens)) :
    Reads (wordElement (rules (depth + 2)) ctx reading shape) s code.isSound fun part s' =>
      part.1.expr = code.expr ∧ part.2.IsCalm ∧ Stands s' (.mark "]" :: tokens) := by
  have hnext : Token.EndsOperand (.mark "]") := (Token.endsCode_mark _ (by decide)).toEndsOperand
  unfold wordElement
  simp only [Reads.place_bind]
  rw [code.isSound_eq_root, Bool.and_eq_true]
  refine (reads_chainRoot hself hbound hdepth hspelt hchain hctx hnext h).bind fun first s' hfirst => ?_
  rcases Code.linkTokens_cases hspelt hchain with ⟨hnil, hroot, hlinks⟩ | ⟨token, more, hcons, -, hlink⟩
  · rw [hnil, List.nil_append] at hfirst
    simp only [Reads.sees_bind, hfirst.2.token_eq, separators, Bool.false_eq_true, if_false,
      Reads.endsPart_bind, Bool.or_true, if_true, Reads.isAssignable_bind, Reads.lastShape_bind,
      hfirst.2.calm.operator_eq, Reads.pure_iff]
    rw [hroot] at hfirst
    exact ⟨hlinks, hfirst.1, (hshape.join (Shape.IsCalm.ofName _)).join Shape.IsCalm.empty, hfirst.2⟩
  · have hmarks : token.isMark "=" = false ∧ token.isMark "," = false ∧ token.isMark "]" = false := by
      rcases hlink with rfl | rfl | rfl <;> exact ⟨rfl, rfl, rfl⟩
    have htoken : s'.cursor.token = token := (hfirst.2.begins hcons).token_eq
    simp only [Reads.sees_bind, htoken, hmarks, Bool.false_eq_true, if_false, Reads.endsPart_bind,
      Bool.or_self]
    refine (reads_chainLinks hself hbound hdepth hspelt hchain hctx hnext hfirst.1 hfirst.2).bind_last
      fun operand s'' hoperand => ?_
    simp only [Reads.endsPart_bind, hoperand.2.token_eq, separators, Bool.or_true, if_true,
      Reads.isAssignable_bind, Reads.pure_iff]
    exact ⟨trivial, hoperand.1,
      (hshape.join (calm_kind reading.kind)).join (Shape.IsCalm.ofPlace _), hoperand.2⟩

/-- A guarded value as an element. -/
private theorem wordElement_guarded {subject value : Code} {bound depth : Nat}
    (hself : ReadsShorter bound) (hbound : subject.tokens.length ≤ bound)
    (hdepth : 4 * subject.tokens.length ≤ depth + 2) (hvalue : (rules (depth + 3)).ReadsCode value)
    (hspelt : (Code.guarded subject value).IsSpelt) (hctx : ctx.IsPlain) (hshape : shape.IsCalm)
    (h : Stands s ((Code.guarded subject value).tokens ++ .mark "]" :: tokens)) :
    Reads (wordElement (rules (depth + 3)) ctx reading shape) s (Code.guarded subject value).isSound
      fun part s' =>
      part.1.expr = (Code.guarded subject value).expr ∧ part.2.IsCalm ∧
        Stands s' (.mark "]" :: tokens) := by
  have hend : Token.EndsCode (.mark "]") := Token.endsCode_mark _ (by decide)
  have hgood : (subject.root.isSound ∧ subject.areLinksSound ∧ value.isSound) ↔
      (Code.guarded subject value).isSound := by
    rw [Code.isSound, subject.isSound_eq_root, Bool.and_eq_true, Bool.and_eq_true, and_assoc]
  simp only [Code.tokens, List.append_assoc, List.cons_append] at h
  unfold wordElement
  simp only [Reads.place_bind]
  refine ((reads_chainRoot hself hbound hdepth hspelt.2.1 hspelt.1 hctx Token.endsOperand_equal h).bind
    fun first s' hfirst => ?_).congr hgood
  -- behind the root comes a link or the comparison
  obtain ⟨token, more, hcons, hmarks⟩ : ∃ token more,
    subject.linkTokens ++ .mark "==" :: .ofName "null" :: .mark "?" ::
      .ofName "null" :: .mark ":" :: (value.tokens ++ .mark "]" :: tokens) = token :: more ∧
      token.isMark "=" = false ∧ token.isMark "," = false ∧ token.isMark "]" = false := by
    rcases Code.linkTokens_cases hspelt.2.1 hspelt.1 with ⟨hnil, -⟩ | ⟨token, more, hcons, -, hlink⟩
    · exact ⟨_, _, by rw [hnil, List.nil_append], rfl, rfl, rfl⟩
    · refine ⟨token, _, by rw [hcons, List.cons_append], ?_⟩
      rcases hlink with rfl | rfl | rfl <;> exact ⟨rfl, rfl, rfl⟩
  have htoken : s'.cursor.token = token := by
    have hhead := hfirst.2
    rw [hcons] at hhead
    exact hhead.token_eq
  simp only [Reads.sees_bind, htoken, hmarks, Bool.false_eq_true, if_false, Reads.endsPart_bind,
    Bool.or_self]
  refine (reads_chainLinks hself hbound hdepth hspelt.2.1 hspelt.1 hctx Token.endsOperand_equal
    hfirst.1 hfirst.2).bind
    fun operand s'' hoperand => ?_
  simp only [Reads.endsPart_bind, hoperand.2.token_eq, separators, Bool.or_self, Bool.false_eq_true,
    if_false, Reads.sees_bind]
  refine (rest_guard hvalue hctx hend hoperand.2).bind_last fun operand' s' hs' => ?_
  simp only [Reads.pure_iff]
  refine ⟨trivial, by rw [hs'.1, hoperand.1, Code.expr], ?_, hs'.2⟩
  exact (hshape.join (calm_kind reading.kind)).join (Shape.IsCalm.noPattern _)

/-- A copy of an object as an element. -/
private theorem patternElement_copy {source : Code} {bound depth : Nat} (hself : ReadsShorter bound)
    (hbound : source.tokens.length ≤ bound) (hdepth : 4 * source.tokens.length ≤ depth + 1)
    (hspelt : source.IsSpelt) (hchain : source.isChain) (hctx : ctx.IsPlain) (hshape : shape.IsCalm)
    (h : Stands s
      (.mark "\x7b" :: .mark "..." :: (source.tokens ++ .mark "\x7d" :: .mark "]" :: tokens))) :
    Reads (patternElement (rules (depth + 3)) ctx reading shape) s source.isSound fun part s' =>
      part.1.expr = .object [.spread source.expr] ∧ part.2.IsCalm ∧ Stands s' (.mark "]" :: tokens) := by
  unfold patternElement innerCollection
  simp only [Reads.place_bind, bind_assoc]
  refine (reads_object hself hbound hdepth hspelt hchain hctx (Token.isFree_mark _) rfl h).bind_last
    fun operand s' hs' => ?_
  simp only [Reads.lastShape_bind, Reads.setAssignable_bind, pure_bind, Reads.endsPart_bind,
    hs'.2.token_eq, separators, Bool.or_true, if_true, Reads.pure_iff]
  exact ⟨trivial, hs'.1, hshape.join hs'.2.calm, hs'.2.assign _⟩

/-- The last element of a list. -/
private theorem reads_element {body : Code} {taken : List Element} {bound depth : Nat}
    (hself : ReadsShorter bound) (hbound : body.tokens.length ≤ bound)
    (hdepth : 4 * body.tokens.length ≤ depth + 1) (hspelt : body.IsSpelt)
    (hbody : body.isArgumentOnly = false) (hctx : ctx.IsPlain) (hshape : shape.IsCalm)
    (h : Stands s (body.tokens ++ .mark "]" :: tokens)) :
    Reads (element (rules (depth + 3)) ctx reading (taken, shape)) s body.isSound fun elements s' =>
      elements.1 = .item body.expr :: taken ∧ elements.2.IsCalm ∧ Stands s' (.mark "]" :: tokens) := by
  -- a chain begins with a word
  have hchain (hchain : body.isChain) : Reads
      (element (rules (depth + 3)) ctx reading (taken, shape)) s body.isSound
      fun elements s' => elements.1 = .item body.expr :: taken ∧ elements.2.IsCalm ∧
        Stands s' (.mark "]" :: tokens) := by
    obtain ⟨name, more, htokens, hopen⟩ := Code.chain_head hspelt hchain
    refine element_word hopen (h.begins htokens) ?_
    exact wordElement_chain hself hbound (by omega) hspelt hchain hctx hshape h
  cases body with
  | copy source =>
    have hlength : (Code.copy source).tokens.length = source.tokens.length + 3 := by
      simp only [Code.tokens, List.length_append, List.length_cons, List.length_nil]
    simp only [Code.tokens, List.cons_append, List.append_assoc, List.nil_append] at h
    have hmarks : (Token.mark "\x7b").isMark "..." = false ∧ (Token.mark "\x7b").word? = none ∧
        (Token.mark "\x7b").opensPattern = true := ⟨rfl, rfl, rfl⟩
    unfold element
    simp only [Reads.sees_bind, h.token_eq, hmarks, Bool.false_eq_true, if_false,
      Reads.openWord?_bind, Option.filter_none, Option.isSome_none, Reads.peek_bind, if_true]
    refine (patternElement_copy hself (by omega) (by omega) hspelt.2 hspelt.1 hctx hshape h).bind_last
      fun part s' hs' => ?_
    simp only [Reads.pure_iff]
    exact ⟨trivial, by rw [hs'.1, Code.expr], hs'.2⟩
  | guarded subject value =>
    have hlength :
        (Code.guarded subject value).tokens.length =
        subject.tokens.length + value.tokens.length + 5 := by
      simp only [Code.tokens, List.length_append, List.length_cons]
      omega
    obtain ⟨name, more, htokens, hopen⟩ := Code.chain_head hspelt.2.1 hspelt.1
    have hhead := h
    rw [Code.tokens, htokens, List.cons_append, List.cons_append] at hhead
    have hvalue : (rules (depth + 3)).ReadsCode value :=
      hself (depth + 3) value hspelt.2.2 (by omega) (by omega)
    refine element_word hopen hhead ?_
    exact wordElement_guarded hself (by omega) (by omega) hvalue hspelt hctx hshape h
  | lambda | entryLambda | quoted => cases hbody
  | _ => exact hchain rfl

/-! ### Entries -/

section

variable {name : Text} {good : Prop} {P : Shape → Prop} {depth : Nat}

/-- A list of a name and a second element. -/
private theorem reads_pair (second : List Token) (hname : Vocabulary.ofWord name = .plain)
    (hctx : ctx.IsPlain) (hfree : next.IsFree) (hnext : next.assigns = false)
    (hbegins : token.BeginsCode) (hcalm : ∀ shape, P shape → shape.IsCalm)
    (hsecond : ∀ {ctx s}, Context.IsPlain ctx →
      Stands s (token :: (second ++ .mark "]" :: next :: tokens)) →
      Reads (element (rules (depth + 3)) ctx reading ([.item (.name name)], {})) s good
      fun elements s' =>
        elements.1 = [.item expr, .item (.name name)] ∧ P elements.2 ∧
        Stands s' (.mark "]" :: next :: tokens))
    (h : Stands s
      (.mark "[" :: .ofName name :: .mark "," :: token :: (second ++ .mark "]" :: next :: tokens))) :
    Reads ((rules (depth + 4)).collection ctx reading) s good fun operand s' =>
      operand.expr = .array [.item (.name name), .item expr] ∧ P s'.shape ∧
        Stands s' (next :: tokens) := by
  have hopen : (Token.mark "[").isMark "[" = true := rfl
  have hword : (Token.ofName name).isMark "]" = false ∧ (Token.ofName name).isMark "," = false :=
    ⟨rfl, rfl⟩
  have hfirst : (Vocabulary.ofWord name).isOpen = true := by rw [hname]; rfl
  show Reads (collectionRule (rules (depth + 3)) ctx reading) s _ _
  unfold collectionRule arrayRule
  simp only [Reads.sees_bind, h.token_eq, hopen, if_true, Reads.place_bind]
  refine h.reads_expect trivial fun s' hs' _ _ => ?_
  refine Reads.bind_last
    (R := fun elements s' => elements.1 = [.item expr, .item (.name name)] ∧ P elements.2 ∧
      Stands s' (next :: tokens)) ?_ fun elements s' helements => ?_
  · show Reads (iterate _ (depth + 1 + 1 + 1) _) s' _ _
    -- one turn of the loop for each of the two elements
    refine Reads.congr (Reads.again (R := fun elements s' => elements = ([.item (.name name)], {}) ∧
      Stands s' (token :: (second ++ .mark "]" :: next :: tokens))) ?_ fun elements s'' helements => ?_)
      (iff_of_eq (true_and _))
    · simp only [hs'.not_accept hword.1, hs'.not_accept hword.2, Bool.false_eq_true, if_false]
      refine (element_word (P := fun shape => shape = {}) hfirst hs'
        (wordElement_name hname hctx.withIn (.inl rfl) hs')).bind_first fun elements s'' hs'' => ?_
      obtain ⟨htaken, hshape, hs''⟩ := hs''
      simp only [hs''.not_accept separators.2.2.1, Bool.false_eq_true, if_false]
      refine hs''.reads_expect (Token.fitsIn_operand _ _) fun s' hs' _ _ => ?_
      simp only [Reads.pure_iff]
      exact ⟨trivial, elements, rfl, Prod.ext htaken hshape, hs'⟩
    · obtain ⟨rfl, hs''⟩ := helements
      refine Reads.done ?_
      simp only [hs''.not_accept hbegins.bracket, hs''.not_accept hbegins.comma, Bool.false_eq_true,
        if_false]
      refine (hsecond hctx.withIn hs'').bind_last fun elements s' helements => ?_
      refine helements.2.2.reads_accept (hfree _) fun s'' hs'' _ _ => ?_
      simp only [if_true, Reads.pure_iff]
      exact ⟨trivial, elements, rfl, helements.1, helements.2.1, hs''⟩
  · obtain ⟨htaken, hshape, hs'⟩ := helements
    refine (reads_end hnext (hcalm _ hshape) hs').imp fun operand s'' hoperand => ?_
    rw [htaken] at hoperand
    exact ⟨hoperand.1, hoperand.2.1.symm ▸ hshape, hoperand.2.2⟩

end

/-- The names of an entry as a parameter. -/
private theorem readsParameter_entry {depth : Nat} : ReadsParameter (rules (depth + 4))
    [.mark "[", .ofName "k", .mark ",", .ofName "e", .mark "]"]
    (.array [.item (.name "k"), .item (.name "e")]) := by
  intro ctx s tokens hctx h
  have hmarks : (Token.mark "[").isMark "..." = false ∧ (Token.mark "[").word? = none ∧
      (Token.mark "[").opensPattern = true ∧ (Token.mark ")").isMark ")" = true := ⟨rfl, rfl, rfl, rfl⟩
  have hkey : Vocabulary.ofWord "k" = .plain := by decide
  have hvalue : Vocabulary.ofWord "e" = .plain := by decide
  have hopen : (Vocabulary.ofWord "e").isOpen = true := by rw [hvalue]; rfl
  have hbegins : (Token.ofName "e").BeginsCode := ⟨rfl, rfl, rfl, rfl, fun _ => trivial⟩
  have hpair : Reads ((rules (depth + 4)).collection ctx ⟨.parameter, false, true⟩) s True
      fun operand s' =>
      operand.expr = .array [.item (.name "k"), .item (.name "e")] ∧ s'.shape = {} ∧
        Stands s' (.mark ")" :: tokens) := by
    refine reads_pair (P := fun shape => shape = {}) [] hkey hctx (Token.isFree_mark _) rfl hbegins
      (fun _ h => h ▸ Shape.IsCalm.empty) (fun {ctx s} hctx hs => ?_) h
    exact element_word (P := fun shape => shape = {}) hopen hs
      (wordElement_name hvalue hctx (.inr rfl) hs)
  unfold part? patternPart
  simp only [Reads.sees_bind, h.token_eq, hmarks, Bool.false_eq_true, if_false,
    Reads.openWord?_bind, Option.filter_none, Reads.peek_bind, if_true, bind_assoc, Reads.place_bind]
  refine hpair.bind_first fun operand s' hs' => ?_
  simp only [Reads.lastShape_bind, Bool.not_false, if_true, bind_assoc, Reads.setAssignable_bind,
    Reads.endsPart_bind, hs'.2.2.token_eq, hmarks, Bool.or_true, pure_bind, Reads.pure_iff, hs'.1]
  exact ⟨trivial, ⟨_, _, by rw [hs'.2.1]⟩, hs'.2.2.assign false⟩

theorem reads_entryLambda {body : Code} {depth : Nat}
    (hself : ReadsShorter (Code.entryLambda body).tokens.length)
    (hdepth : 4 * (Code.entryLambda body).tokens.length + 4 ≤ depth)
    (hspelt : (Code.entryLambda body).IsSpelt) :
    (rules depth).ReadsCode (.entryLambda body) := by
  intro ctx s next tokens hctx hnext h
  have hlength : (Code.entryLambda body).tokens.length = body.tokens.length + 12 := by
    simp only [Code.tokens, List.length_append, List.length_cons, List.length_nil]
  have hkey : Vocabulary.ofWord "k" = .plain := by decide
  obtain ⟨depth, rfl⟩ : ∃ d, depth = d + 8 := ⟨depth - 8, by omega⟩
  simp only [Code.tokens, List.cons_append, List.append_assoc, List.nil_append] at h
  refine assignment_of_leftHand hnext
    (leftHand_of_primary _ (Nat.succ_pos _) hnext.toEndsOperand (primary_group h ?_))
  refine reads_group (rules (depth + 6)) readsParameter_entry rfl (Nat.succ_pos _) rfl rfl
    hctx rfl h fun {ctx s isSimple} hctx hs => ?_
  refine arrow_value rfl hs hctx fun ctx s hctx hs => ?_
  refine assignment_of_leftHand hnext
    (leftHand_of_primary _ (Nat.succ_pos _) hnext.toEndsOperand ?_)
  refine primary_collection (rules (depth + 4)) rfl hs ?_
  obtain ⟨token, more, htokens, hbegins⟩ := body.exists_head
  rw [htokens, List.cons_append] at hs
  refine (reads_pair (P := Shape.IsCalm) _ hkey hctx hnext.free hnext.assigns hbegins (fun _ h => h)
    (fun {ctx s} hctx hs => ?_) hs).imp
    fun operand s' hs' => ⟨hs'.1, hs'.2.2⟩
  rw [← List.cons_append, ← htokens] at hs
  exact reads_element hself (by omega) (by omega) hspelt.2 hspelt.1 hctx Shape.IsCalm.empty hs

end JsonCompanion.Script
