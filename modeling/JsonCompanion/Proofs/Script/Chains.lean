import JsonCompanion.Proofs.Script.Operands

/-!
# How chains are read

A chain of members and calls is a root with links behind it: a primary expression reads the root,
and the loop over the suffixes the links.

* `Code.root` and `Code.linkTokens` cut the chain in two.
* `reads_root` and `reads_links` read the two parts, `reads_suffixes` the second one to its end.
-/

namespace JsonCompanion.Script

namespace Code

/-- What a chain begins with. -/
def root : Code → Code
  | .member object _ | .index object _ => object.root
  | .call callee _ => callee.root
  | code => code

/-- The tokens behind the root of a chain. -/
def linkTokens : Code → List Token
  | .member object label => object.linkTokens ++ [.mark ".", .ofName label]
  | .index object key => object.linkTokens ++ .mark "[" :: (key.tokens ++ [.mark "]"])
  | .call callee arguments => callee.linkTokens ++ .mark "(" :: (listTokens arguments ++ [.mark ")"])
  | _ => []

/-- The number of links of a chain. -/
def linkCount : Code → Nat
  | .member object _ | .index object _ => object.linkCount + 1
  | .call callee _ => callee.linkCount + 1
  | _ => 0

/-- No function among the arguments in the links of a chain has a copy of an object as its body. -/
def areLinksSound : Code → Bool
  | .member object _ => object.areLinksSound
  | .index object key => object.areLinksSound && key.isSound
  | .call callee arguments => callee.areLinksSound && areSound arguments
  | _ => true

theorem tokens_eq_root : ∀ code : Code, code.tokens = code.root.tokens ++ code.linkTokens
  | .member object _ => by rw [tokens, root, linkTokens, tokens_eq_root object, List.append_assoc]
  | .index object _ => by rw [tokens, root, linkTokens, tokens_eq_root object, List.append_assoc]
  | .call callee _ => by rw [tokens, root, linkTokens, tokens_eq_root callee, List.append_assoc]
  | .reference _ | .this | .construction .. | .copy _ | .guarded .. | .lambda _
  | .entryLambda _ | .quoted _ => by
    simp only [root, linkTokens, List.append_nil]

theorem isSound_eq_root : ∀ code : Code, code.isSound = (code.root.isSound && code.areLinksSound)
  | .member object _ => by rw [isSound, root, areLinksSound, isSound_eq_root object]
  | .index object _ => by rw [isSound, root, areLinksSound, isSound_eq_root object, Bool.and_assoc]
  | .call callee _ => by rw [isSound, root, areLinksSound, isSound_eq_root callee, Bool.and_assoc]
  | .reference _ | .this | .construction .. | .copy _ | .guarded .. | .lambda _
  | .entryLambda _ | .quoted _ => by
    simp only [root, areLinksSound, Bool.and_true]

theorem linkCount_le : ∀ code : Code, code.linkCount ≤ code.linkTokens.length
  | .member object _ => by
    have := linkCount_le object
    simp only [linkCount, linkTokens, List.length_append, List.length_cons, List.length_nil]
    omega
  | .index object _ => by
    have := linkCount_le object
    simp only [linkCount, linkTokens, List.length_append, List.length_cons, List.length_nil]
    omega
  | .call callee _ => by
    have := linkCount_le callee
    simp only [linkCount, linkTokens, List.length_append, List.length_cons, List.length_nil]
    omega
  | .reference _ | .this | .construction .. | .copy _ | .guarded .. | .lambda _
  | .entryLambda _ | .quoted _ =>
    Nat.le_refl _

/-- A chain begins with a name, with `this` or with a construction. -/
theorem root_cases : ∀ code : Code, code.IsSpelt → code.isChain → code.root.IsSpelt ∧
    ((∃ name, code.root = .reference name) ∨ code.root = .this ∨
      ∃ callee arguments, code.root = .construction callee arguments)
  | .reference name, hspelt, _ => ⟨hspelt, .inl ⟨name, rfl⟩⟩
  | .this, hspelt, _ => ⟨hspelt, .inr (.inl rfl)⟩
  | .construction callee arguments, hspelt, _ => ⟨hspelt, .inr (.inr ⟨callee, arguments, rfl⟩)⟩
  | .member object _, hspelt, _ => root_cases object hspelt.2.1 hspelt.1
  | .index object _, hspelt, _ => root_cases object hspelt.2.1 hspelt.1
  | .call callee _, hspelt, _ => root_cases callee hspelt.2.2.1 hspelt.1

/-- A chain begins with a word. -/
theorem chain_head {code : Code} (hspelt : code.IsSpelt) (hchain : code.isChain) :
    ∃ name tokens, code.tokens = .ofName name :: tokens ∧ (Vocabulary.ofWord name).isOpen := by
  have htokens := code.tokens_eq_root
  obtain ⟨hroot, ⟨name, heq⟩ | heq | ⟨callee, arguments, heq⟩⟩ := root_cases code hspelt hchain
  · rw [heq] at htokens hroot
    refine ⟨name, _, htokens, ?_⟩
    have hname := hroot.2
    cases hkind : Vocabulary.ofWord name <;> rw [hkind] at hname <;>
      first | rfl | exact absurd hname (by decide)
  · rw [heq] at htokens
    exact ⟨"this", _, htokens, by decide⟩
  · rw [heq] at htokens
    exact ⟨"new", _, htokens, by decide⟩

/-- The token behind a name makes neither a parameter nor a call of `async` of it. -/
structure Follows (code : Code) (token : Token) : Prop where
  free : token.IsFree
  arrow : token.isMark "=>" = false
  word : token.word? = none
  async : code.root.isAsync = true → token.isMark "(" = false

/-- The token begins a link of a chain. -/
def BeginsLink (token : Token) : Prop := token = .mark "." ∨ token = .mark "[" ∨ token = .mark "("

/-- What follows the root of a chain: the first link, or what follows the chain. -/
theorem linkTokens_cases : ∀ {code : Code}, code.IsSpelt → code.isChain →
    (code.linkTokens = [] ∧ code.root = code ∧ code.areLinksSound) ∨
      ∃ token tokens, code.linkTokens = token :: tokens ∧ code.Follows token ∧ BeginsLink token
  | .reference _, _, _ => .inl ⟨rfl, rfl, rfl⟩
  | .this, _, _ => .inl ⟨rfl, rfl, rfl⟩
  | .construction .., _, _ => .inl ⟨rfl, rfl, rfl⟩
  | .member object label, hspelt, _ => by
    rcases linkTokens_cases hspelt.2.1 hspelt.1 with ⟨hnil, -⟩ | ⟨token, tokens, hcons, hfollows, hlink⟩
    · refine .inr ⟨_, _, by rw [linkTokens, hnil, List.nil_append], ?_, .inl rfl⟩
      exact ⟨Token.isFree_mark _, rfl, rfl, fun _ => rfl⟩
    · refine .inr ⟨token, _, by rw [linkTokens, hcons, List.cons_append], ?_, hlink⟩
      exact ⟨hfollows.free, hfollows.arrow, hfollows.word, hfollows.async⟩
  | .index object key, hspelt, _ => by
    rcases linkTokens_cases hspelt.2.1 hspelt.1 with ⟨hnil, -⟩ | ⟨token, tokens, hcons, hfollows, hlink⟩
    · refine .inr ⟨_, _, by rw [linkTokens, hnil, List.nil_append], ?_, .inr (.inl rfl)⟩
      exact ⟨Token.isFree_mark _, rfl, rfl, fun _ => rfl⟩
    · refine .inr ⟨token, _, by rw [linkTokens, hcons, List.cons_append], ?_, hlink⟩
      exact ⟨hfollows.free, hfollows.arrow, hfollows.word, hfollows.async⟩
  | .call callee arguments, hspelt, _ => by
    rcases linkTokens_cases hspelt.2.2.1 hspelt.1 with
      ⟨hnil, hroot, -⟩ | ⟨token, tokens, hcons, hfollows, hlink⟩
    · refine .inr ⟨_, _, by rw [linkTokens, hnil, List.nil_append], ?_, .inr (.inr rfl)⟩
      -- a callee is never the bare word `async`
      refine ⟨Token.isFree_mark _, rfl, rfl, fun hasync => ?_⟩
      rw [root, hroot, hspelt.2.1] at hasync
      cases hasync
    · refine .inr ⟨token, _, by rw [linkTokens, hcons, List.cons_append], ?_, hlink⟩
      exact ⟨hfollows.free, hfollows.arrow, hfollows.word, hfollows.async⟩

/-! ### Arguments inside -/

theorem isSpelt_of_mem :
    ∀ {codes : List Code} {code : Code}, AreSpelt codes → code ∈ codes → code.IsSpelt
  | _ :: _, _, hspelt, .head _ => hspelt.1
  | _ :: _, _, hspelt, .tail _ hmem => isSpelt_of_mem hspelt.2 hmem

private theorem length_more : ∀ codes : List Code, codes.length ≤ (moreTokens codes).length ∧
    ∀ code ∈ codes, code.tokens.length ≤ (moreTokens codes).length
  | [] => ⟨Nat.le_refl _, fun _ h => absurd h List.not_mem_nil⟩
  | head :: codes => by
    obtain ⟨hlength, hall⟩ := length_more codes
    simp only [moreTokens, List.length_cons, List.length_append, List.forall_mem_cons]
    refine ⟨by omega, by omega, fun code hmem => ?_⟩
    have := hall code hmem
    omega

theorem length_listTokens (codes : List Code) : codes.length ≤ (listTokens codes).length ∧
    ∀ code ∈ codes, code.tokens.length ≤ (listTokens codes).length := by
  match codes with
  | [] => exact ⟨Nat.le_refl _, fun _ h => absurd h List.not_mem_nil⟩
  | head :: codes =>
    obtain ⟨token, more, htokens, -⟩ := head.exists_head
    obtain ⟨hlength, hall⟩ := length_more codes
    simp only [listTokens, List.length_cons, List.length_append, List.forall_mem_cons, htokens]
    refine ⟨by omega, by omega, fun code hmem => ?_⟩
    have := hall code hmem
    omega

end Code

variable {self : Rules} {ctx : Context} {here : Place} {s : Progress} {token next : Token}
  {tokens : List Token}

/-- Code with fewer tokens than the bound is read. -/
def Rules.ReadsBelow (self : Rules) (bound : Nat) : Prop :=
  ∀ code : Code, code.IsSpelt → code.tokens.length < bound → self.ReadsCode code

/-! ### Links -/

section

variable {x : Suffixed} {start turns : Nat} {good : Prop} {Q : Suffixed → Progress → Prop}

/-- The links of a chain one after another. -/
theorem reads_links {bound : Nat} (hself : self.ReadsBelow bound) (hbudget : bound ≤ self.budget) :
    ∀ {code : Code}, code.IsSpelt → code.isChain → code.linkTokens.length ≤ bound →
      ∀ {next : Token} {tokens : List Token} {turns : Nat} {good : Prop}, next.IsFree →
        x.Means code.root.expr →
      Stands s (code.linkTokens ++ next :: tokens) →
      (∀ x' s', x'.Means code.expr → Stands s' (next :: tokens) →
        Reads (iterate (suffix self start) turns x') s' good Q) →
      Reads (iterate (suffix self start) (turns + code.linkCount) x) s (code.areLinksSound ∧ good) Q
  | .reference _, _, _, _, next, tokens, turns, good, hfree, hx, h, hrest =>
    (hrest x s hx h).congr (and_iff_right rfl).symm
  | .this, _, _, _, next, tokens, turns, good, hfree, hx, h, hrest =>
    (hrest x s hx h).congr (and_iff_right rfl).symm
  | .construction .., _, _, _, next, tokens, turns, good, hfree, hx, h, hrest =>
    (hrest x s hx h).congr (and_iff_right rfl).symm
  | .member object label, hspelt, _, hbound, next, tokens, turns, good, hfree, hx, h, hrest => by
    simp only [Code.linkTokens, List.length_append, List.length_cons, List.length_nil] at hbound
    rw [Code.linkTokens, List.append_assoc] at h
    rw [Code.linkCount, ← Nat.add_assoc, Nat.add_right_comm]
    -- the links of the object are read first; then the loop is at the last link
    refine reads_links hself hbudget hspelt.2.1 hspelt.1 (by omega) (Token.isFree_mark _) hx h
      fun x' s' hx' hs' => ?_
    exact suffix_member hx' hs' hfree hrest
  | .index object key, hspelt, _, hbound, next, tokens, turns, good, hfree, hx, h, hrest => by
    simp only [Code.linkTokens, List.length_append, List.length_cons, List.length_nil] at hbound
    simp only [Code.linkTokens, List.append_assoc, List.cons_append, List.nil_append] at h
    rw [Code.linkCount, ← Nat.add_assoc, Nat.add_right_comm]
    have hgood : (object.areLinksSound ∧ key.isSound ∧ good) ↔
        ((Code.index object key).areLinksSound ∧ good) := by
      rw [Code.areLinksSound, Bool.and_eq_true, and_assoc]
    refine Reads.congr
      (reads_links hself hbudget hspelt.2.1 hspelt.1 (by omega) (Token.isFree_mark _) hx h
        fun x' s' hx' hs' => ?_) hgood
    exact suffix_index (hself key hspelt.2.2 (by omega)) (by omega) hx' hs' hfree hrest
  | .call callee arguments, hspelt, _, hbound, next, tokens, turns, good, hfree, hx, h, hrest => by
    obtain ⟨hlength, hall⟩ := Code.length_listTokens arguments
    simp only [Code.linkTokens, List.length_append, List.length_cons, List.length_nil] at hbound
    simp only [Code.linkTokens, List.append_assoc, List.cons_append, List.nil_append] at h
    rw [Code.linkCount, ← Nat.add_assoc, Nat.add_right_comm]
    have hgood : (callee.areLinksSound ∧ Code.areSound arguments ∧ good) ↔
        ((Code.call callee arguments).areLinksSound ∧ good) := by
      rw [Code.areLinksSound, Bool.and_eq_true, and_assoc]
    refine Reads.congr
      (reads_links hself hbudget hspelt.2.2.1 hspelt.1 (by omega) (Token.isFree_mark _) hx h
        fun x' s' hx' hs' => ?_) hgood
    have harguments : ∀ code ∈ arguments, self.ReadsCode code := fun code hmem =>
      hself code (Code.isSpelt_of_mem hspelt.2.2.2 hmem) (by have := hall code hmem; omega)
    exact suffix_call harguments (by omega) hx' hs' hfree hrest

/-- The links of a chain up to its end. -/
theorem reads_suffixes {code : Code} (hself : self.ReadsBelow code.linkTokens.length)
    (hbudget : code.linkTokens.length < self.budget) (hspelt : code.IsSpelt) (hchain : code.isChain)
    (hctx : ctx.IsPlain) (hnext : next.EndsOperand) {operand : Operand}
    (hoperand : operand.expr = code.root.expr) (h : Stands s (code.linkTokens ++ next :: tokens)) :
    Reads (suffixes self ctx start operand) s code.areLinksSound fun operand s' =>
      operand.expr = code.expr ∧ Stands s' (next :: tokens) := by
  have hcount := code.linkCount_le
  obtain ⟨turns, hturns⟩ : ∃ turns, self.budget = turns + 1 + code.linkCount :=
    ⟨self.budget - 1 - code.linkCount, by omega⟩
  have hx : Suffixed.Means ⟨operand, false, ctx.withIn⟩ code.root.expr := ⟨hoperand, rfl, hctx.withIn⟩
  have hloop : Reads (iterate (suffix self start) self.budget ⟨operand, false, ctx.withIn⟩) s
      (code.areLinksSound ∧ True)
      fun x s' => x.Means code.expr ∧ Stands s' (next :: tokens) := by
    rw [hturns]
    refine reads_links hself (by omega) hspelt hchain (Nat.le_refl _) hnext.free hx h
      fun x' s' hx' hs' => ?_
    refine (suffix_end hs' hnext).imp fun x'' s'' heq => ?_
    rw [heq.1, heq.2]
    exact ⟨hx', hs'⟩
  refine (hloop.congr (iff_of_eq (and_true _))).bind_last fun x' s' hx' => ?_
  simp only [hx'.1.inChain, Bool.false_eq_true, if_false, Reads.pure_iff]
  exact ⟨trivial, hx'.1.expr, hx'.2⟩

end

/-! ### Roots -/

/-- The name of a class is no prefix operator. -/
private theorem prefixOp?_plain {name : Text} (h : Vocabulary.ofWord name = .plain) :
    prefixOp? (.ofName name) = none := by
  have hne (word : Text) (hword : Vocabulary.ofWord word ≠ .plain) :
      (Token.ofName name).isWord word = false := by
    simp only [Token.ofName, Token.isWord, Bool.not_false, Bool.true_and, beq_eq_false_iff_ne]
    rintro rfl
    exact hword h
  show (if (Token.ofName name).isWord "void" then _ else _) = _
  simp only [hne "void" (by decide), hne "typeof" (by decide), hne "delete" (by decide),
    Bool.or_self, Bool.false_eq_true, if_false]

private theorem reads_construction {depth : Nat} {callee : Text} {codes : List Code} (hctx : ctx.IsPlain)
    (hname : Vocabulary.ofWord callee = .plain)
    (hcodes : ∀ code ∈ codes, (rules (depth + 1)).ReadsCode code) (hbudget : codes.length < depth + 1)
    (h : Stands s
      (.ofName "new" :: .ofName callee :: .mark "(" ::
      (Code.listTokens codes ++ .mark ")" :: next :: tokens))) (hfree : next.IsFree) :
    Reads (newExpression (rules (depth + 1)) ctx) s (Code.areSound codes) fun expr s' =>
      expr = .construction (.name callee) (Code.elements codes) ∧ Stands s' (next :: tokens) := by
  have hmark : (Token.ofName callee).isMark "." = false := rfl
  have hopen : (Token.mark "(").isMark "=>" = false ∧ (Token.mark "(").isMark "?." = false ∧
      (Token.mark "(").isMark "." = false ∧ (Token.mark "(").isMark "[" = false ∧
        (Token.mark "(").isTemplate = false ∧
      (Token.mark "(").isMark "(" = true := ⟨rfl, rfl, rfl, rfl, rfl, rfl⟩
  unfold newExpression
  refine h.reads_advance trivial fun s' hs' _ _ => ?_
  simp only [Reads.setAssignable_bind, (hs'.assign false).not_accept hmark, Bool.false_eq_true,
    if_false, Reads.peek_bind, hs'.token_eq, prefixOp?_plain hname, Option.isNone_none,
    Reads.require_true]
  have hcallee := reads_name (rules depth) { constructs := true, canAssign := false } hctx
    (by rw [hname]; rfl) (hs'.assign false) (Token.isFree_mark _) hopen.1
      (fun hasync => by rw [hname] at hasync; cases hasync)
  refine hcallee.bind_first fun operand s'' hs'' => ?_
  simp only [Reads.sees_bind, hs''.2.1.token_eq, hopen, Bool.not_false, Reads.require_true]
  have hmembers : Reads (constructedMembers (rules (depth + 1)) ctx.withIn operand.expr) s'' True
      fun expr s' =>
      expr = .name callee ∧ s' = s'' := by
    refine Reads.done ?_
    simp only [Reads.peek_bind, hs''.2.1.token_eq, hopen, Bool.false_eq_true, if_false, Reads.pure_iff]
    exact ⟨trivial, _, rfl, hs''.1, trivial⟩
  refine hmembers.bind_first fun expr s' hs' => ?_
  obtain ⟨rfl, rfl⟩ := hs'
  simp only [Reads.setAssignable_bind, Reads.sees_bind, hs''.2.1.token_eq, hopen, if_true]
  refine (reads_arguments hcodes hbudget hctx.withIn (hs''.2.1.assign false) hfree).bind_last
    fun list s' hs' => ?_
  simp only [Reads.pure_iff]
  exact ⟨trivial, by rw [hs'.1], hs'.2⟩

/-- What a chain begins with. -/
theorem reads_root {depth : Nat} {code : Code}
    (hself : (rules (depth + 1)).ReadsBelow code.root.tokens.length)
    (hdepth : code.root.tokens.length ≤ depth + 1) (hspelt : code.IsSpelt) (hchain : code.isChain)
    (hctx : ctx.IsPlain) (hnext : next.EndsOperand)
    (h : Stands s (code.root.tokens ++ (code.linkTokens ++ next :: tokens))) :
    Reads (primaryRule (rules (depth + 1)) ctx here) s code.root.isSound fun operand s' =>
      operand.expr = code.root.expr ∧ Stands s' (code.linkTokens ++ next :: tokens) := by
  obtain ⟨token, rest, hrest, hfollows⟩ : ∃ token rest,
    code.linkTokens ++ next :: tokens = token :: rest ∧
      code.Follows token := by
    rcases Code.linkTokens_cases hspelt hchain with ⟨hnil, -⟩ | ⟨token, more, hcons, hfollows, -⟩
    · exact ⟨next, tokens, by rw [hnil, List.nil_append], hnext.free, hnext.arrow, hnext.word,
        fun _ => hnext.parenthesis⟩
    · exact ⟨token, _, by rw [hcons, List.cons_append], hfollows⟩
  rw [hrest] at h ⊢
  -- a root is a name, `this` or a construction
  obtain ⟨hroot, ⟨name, heq⟩ | heq | ⟨callee, codes, heq⟩⟩ := Code.root_cases code hspelt hchain
  · have hasync := hfollows.async
    rw [heq] at h hroot hasync ⊢
    have hread :=
      reads_name (rules (depth + 1)) here hctx hroot.2 h hfollows.free hfollows.arrow fun hname =>
      ⟨hasync (decide_eq_true hname), hfollows.word⟩
    exact (hread.congr (iff_true_intro rfl).symm).imp fun operand s' hs' => ⟨hs'.1, hs'.2.1⟩
  · rw [heq] at h ⊢
    exact (reads_this h hfollows.free).congr (iff_true_intro rfl).symm
  · rw [heq] at h hroot hself hdepth ⊢
    obtain ⟨hlength, hall⟩ := Code.length_listTokens codes
    simp only [Code.tokens, List.length_cons, List.length_append, List.length_nil] at hself hdepth
    have hcodes : ∀ code ∈ codes, (rules (depth + 1)).ReadsCode code := fun code hmem =>
      hself code (Code.isSpelt_of_mem hroot.2.2 hmem) (by have := hall code hmem; omega)
    simp only [Code.tokens, List.cons_append, List.append_assoc, List.nil_append] at h
    refine reads_reserved h (by decide) ?_
    have hprefix : prefixOp? (.ofName "new") = none := rfl
    unfold reservedExpression
    simp +decide only [Reads.place_bind, Reads.peek_bind, h.token_eq, hprefix, if_false, if_true]
    refine (reads_construction hctx hroot.2.1 hcodes (by omega) h hfollows.free).bind_last
      fun expr s' hs' => ?_
    simp only [Reads.spanFrom_bind, Reads.pure_iff]
    exact ⟨trivial, hs'⟩

end JsonCompanion.Script
