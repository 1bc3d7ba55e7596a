import JsonCompanion.Proofs.Script.Collections
import JsonCompanion.Proofs.Script.Data

/-!
# How data is read

* `reads_atom` and `reads_negative` read an atom and one with a minus sign.
* `Rules.ReadsDatum` says that data is read wherever it may stand; `reads_datumElement` and
  `reads_value` follow for an element of a list and for the value of a property.
* `reads_datum`: given some depth for each of its tokens, any data is read.
-/

namespace JsonCompanion.Script

variable {self : Rules} {ctx : Context} {here : Place} {reading : Reading} {s : Progress}
  {token next : Token}
  {tokens : List Token} {start : Nat} {shape : Shape} {expr : Expr}

/-! ### Atoms -/

/-- The token is a word that is written as itself. -/
def Token.opensWord (token : Token) : Bool :=
  (token.word?.filter fun word => word.vocabulary.isOpen).isSome

/-- A token that is an expression by itself. -/
theorem reads_atom (self : Rules) (hmeans : token.Means expr) (hfield : ctx.inField = false)
    (hnext : next.EndsOperand) (h : Stands s (token :: next :: tokens)) :
    Reads (primaryRule self ctx here) s True fun operand s' => operand.expr = expr ∧
      Stands s' (next :: tokens) := by
  cases hmeans with
  | @name name hplain =>
    unfold primaryRule
    simp only [Reads.place_bind, Reads.peek_bind, h.token_eq, Token.ofName, wordExpression, hplain]
    rw [Token.ofName, hplain] at h
    refine (reads_nameExpression hfield (by decide) h hnext.free hnext.arrow).imp
      fun operand s' hs' => ⟨hs'.1, hs'.2.1⟩
  | null => exact reads_null h hnext.free
  | bool value =>
    cases value
    · exact reads_constantWord ("false", .bool false) (by simp [constantWords]) h hnext.free
    · exact reads_constantWord ("true", .bool true) (by simp [constantWords]) h hnext.free
  | literal hliteral =>
    unfold primaryRule
    simp only [Reads.place_bind, Reads.peek_bind, h.token_eq]
    cases token <;> cases hliteral
    all_goals
      simp only [literal?, require?, pure_bind]
      refine (reads_constant h hnext.free).bind_first fun expr s' hs' => ?_
      simp only [Reads.spanFrom_bind, Reads.pure_iff]
      exact ⟨trivial, hs'⟩
  | regex literal =>
    unfold primaryRule
    simp only [Reads.place_bind, Reads.peek_bind, h.token_eq]
    refine (reads_constant h hnext.free).bind_first fun expr s' hs' => ?_
    simp only [Reads.spanFrom_bind, Reads.pure_iff]
    exact ⟨trivial, hs'⟩

private theorem minus_marks :
    (Token.mark "-").opensPattern = false ∧ (Token.mark "-").isMark "(" = false ∧
    (Token.mark "-").updates = false ∧ prefixOp? (.mark "-") = some .minus ∧
    (Token.mark "-").isWord "delete" = false :=
  ⟨rfl, rfl, rfl, rfl, rfl⟩

private theorem not_power (hnext : next.EndsCode) : next.isMark "**" = false := by
  cases hmark : next.isMark "**" with
  | false => rfl
  | true =>
    cases next with
    | mark m =>
      obtain rfl : m = Text.ofString "**" := eq_of_beq hmark
      exact absurd hnext.operator (by decide)
    | _ => cases hmark

/-- A token that is an expression by itself, with a minus sign in front. -/
theorem reads_negative {depth : Nat} (hmeans : token.Means expr) (hfield : ctx.inField = false)
    (hoperand : here.isOperand = true) (hnext : next.EndsCode)
    (h : Stands s (.mark "-" :: token :: next :: tokens)) :
    Reads (primaryRule (rules (depth + 1)) ctx here) s True fun operand s' =>
      operand.expr = .unary .minus expr ∧ Stands s' (next :: tokens) := by
  unfold primaryRule
  simp only [Reads.place_bind, Reads.peek_bind, h.token_eq, markExpression, minus_marks,
    Bool.false_eq_true, if_false, unaryExpression, hoperand, Reads.require_true, Reads.seesWord_bind]
  refine h.reads_advance (Token.fitsIn_operand _ _) fun s' hs' _ _ => ?_
  have hprimary :
      Reads ((rules (depth + 1)).primary ctx { canAssign := false }) s' True fun operand s' =>
      operand.expr = expr ∧ Stands s' (next :: tokens) :=
        reads_atom (rules depth) hmeans hfield hnext.toEndsOperand hs'
  refine (leftHand_of_primary (rules (depth + 1)) (Nat.succ_pos _) hnext.toEndsOperand
    hprimary).bind_first
    fun operand s'' hoperand => ?_
  simp only [Reads.sees_bind, hoperand.2.token_eq, not_power hnext, Bool.not_false, Bool.true_or,
    Reads.require_true, Reads.setAssignable_bind, Reads.spanFrom_bind, Reads.pure_iff]
  exact ⟨trivial, by rw [hoperand.1], hoperand.2.assign false⟩

/-! ### Beginnings -/

namespace Datum

/-- A list or a record. -/
def isCollection : Datum → Bool
  | .list _ | .record _ => true
  | _ => false

end Datum

/-- What data begins with. -/
structure Token.BeginsDatum (token : Token) (isCollection : Bool) : Prop where
  dots : token.isMark "..." = false
  parenthesis : token.isMark "(" = false
  close : token.isMark ")" = false
  bracket : token.isMark "]" = false
  comma : token.isMark "," = false
  opens : token.opensPattern = isCollection
  word : isCollection = true → token.opensWord = false

private theorem beginsDatum_of_notMark (h : ∀ mark, token ≠ .mark mark) : token.BeginsDatum false := by
  have hmark (mark : Text) : token.isMark mark = false := by
    cases token with
    | mark m => exact absurd rfl (h m)
    | _ => rfl
  have hopens : token.opensPattern = false := by
    cases token with
    | mark m => exact absurd rfl (h m)
    | _ => rfl
  exact ⟨hmark _, hmark _, hmark _, hmark _, hmark _, hopens, fun h => by cases h⟩

theorem Token.Means.ne_mark (h : token.Means expr) (mark : Text) : token ≠ .mark mark := by
  rintro rfl
  cases h with
  | literal h => cases h

theorem Datum.exists_head (d : Datum) :
    ∃ token more, d.tokens = token :: more ∧ token.BeginsDatum d.isCollection := by
  cases d with
  | atom a => exact ⟨_, _, rfl, beginsDatum_of_notMark a.means.ne_mark⟩
  | negative => exact ⟨_, _, rfl, rfl, rfl, rfl, rfl, rfl, rfl, fun h => by cases h⟩
  | list => exact ⟨_, _, rfl, rfl, rfl, rfl, rfl, rfl, rfl, fun _ => rfl⟩
  | record => exact ⟨_, _, rfl, rfl, rfl, rfl, rfl, rfl, rfl, fun _ => rfl⟩

/-! ### Data inside other data -/

/-- Data that is no list or record is read as a primary expression, any other as a collection. -/
structure Rules.ReadsDatum (parsers : Rules) (d : Datum) : Prop where
  primary : d.isCollection = false →
    ∀ {ctx : Context} {here : Place} {s : Progress} {next : Token} {tokens : List Token},
    ctx.inField = false → here.isOperand = true → next.EndsCode → Stands s (d.tokens ++ next :: tokens) →
    Reads (parsers.primary ctx here) s True fun operand s' => operand.expr = d.expr ∧
      Stands s' (next :: tokens)
  collection : d.isCollection = true →
    ∀ {ctx : Context} {reading : Reading} {s : Progress} {next : Token}
    {tokens : List Token}, ctx.inField = false → next.EndsCode → Stands s (d.tokens ++ next :: tokens) →
    Reads (parsers.collection ctx reading) s True fun operand s' => operand.expr = d.expr ∧
      Stands s' (next :: tokens)

/-! ### Elements of lists -/

private theorem reads_innerCollection
    (hread : Reads (self.collection ctx { reading with takesValue := true }) s True fun operand s' =>
      operand.expr = expr ∧ Stands s' tokens) :
    Reads (innerCollection self ctx reading) s True fun operand s' => operand.expr = expr ∧
      Stands s' tokens := by
  unfold innerCollection
  refine hread.bind_first fun operand s' hs' => ?_
  simp only [Reads.lastShape_bind, Reads.setAssignable_bind, Reads.pure_iff]
  exact ⟨trivial, hs'.1, hs'.2.assign _⟩

section

variable (hend : (next.isMark "," || next.isMark "]") = true) (hshape : shape.IsCalm)

include hend hshape

/-- A word as an element. -/
private theorem reads_wordElement (hnext : next.EndsCode)
    (hread : Reads (self.primary ctx { kind := reading.kind }) s True fun operand s' =>
      operand.expr = expr ∧ Stands s' (next :: tokens)) :
    Reads (wordElement self ctx reading shape) s True fun part s' =>
      part.1.expr = expr ∧ part.2.IsCalm ∧ Stands s' (next :: tokens) := by
  unfold wordElement
  simp only [Reads.place_bind]
  refine hread.bind_first fun operand s' hs' => ?_
  simp only [Reads.sees_bind, hs'.2.token_eq, hnext.assign, Bool.false_eq_true, if_false,
    Reads.endsPart_bind, hend, if_true, Reads.isAssignable_bind, Reads.lastShape_bind,
    hs'.2.calm.operator_eq, Reads.pure_iff]
  exact ⟨trivial, hs'.1, (hshape.join (Shape.IsCalm.ofName _)).join Shape.IsCalm.empty, hs'.2⟩

/-- A list or a record as an element. -/
private theorem reads_patternElement
    (hread : Reads (self.collection ctx { reading with takesValue := true }) s True fun operand s' =>
      operand.expr = expr ∧ Stands s' (next :: tokens)) :
    Reads (patternElement self ctx reading shape) s True fun part s' =>
      part.1.expr = expr ∧ part.2.IsCalm ∧ Stands s' (next :: tokens) := by
  unfold patternElement
  simp only [Reads.place_bind]
  refine (reads_innerCollection hread).bind_first fun operand s' hs' => ?_
  simp only [Reads.endsPart_bind, hs'.2.token_eq, hend, if_true, Reads.lastShape_bind, Reads.pure_iff]
  exact ⟨trivial, hs'.1, hshape.join hs'.2.calm, hs'.2⟩

/-- Any other element. -/
private theorem reads_valueElement (hnext : next.EndsCode) (hbudget : 0 < self.budget)
    (hparenthesis : s.cursor.token.isMark "(" = false)
    (hread : Reads (self.primary ctx.ungrouped {}) s True fun operand s' =>
      operand.expr = expr ∧ Stands s' (next :: tokens)) :
    Reads (valueElement self ctx reading shape) s True fun part s' =>
      part.1.expr = expr ∧ part.2.IsCalm ∧ Stands s' (next :: tokens) := by
  unfold valueElement
  simp only [Reads.place_bind, Reads.sees_bind, hparenthesis]
  refine (leftHand_of_primary self hbudget hnext.toEndsOperand hread).bind_first fun operand s' hs' => ?_
  simp only [Reads.endsPart_bind, hs'.2.token_eq, hend, if_true, Reads.isAssignable_bind,
    Bool.false_eq_true, if_false]
  cases s'.assignable with
  | false => exact ⟨trivial, hs'.1, hshape.join (Shape.IsCalm.noPattern true), hs'.2⟩
  | true => exact ⟨trivial, hs'.1, hshape, hs'.2⟩

end

/-- Data as an element of a list. -/
theorem reads_datumElement {d : Datum} {state : Elements} (hself : self.ReadsDatum d)
    (hbudget : 0 < self.budget) (hfield : ctx.inField = false) (hnext : next.EndsCode)
    (hend : (next.isMark "," || next.isMark "]") = true) (hshape : state.2.IsCalm)
    (h : Stands s (d.tokens ++ next :: tokens)) :
    Reads (element self ctx reading state) s True fun elements s' =>
      elements.1 = .item d.expr :: state.1 ∧ elements.2.IsCalm ∧ Stands s' (next :: tokens) := by
  obtain ⟨taken, shape⟩ := state
  obtain ⟨token, more, htokens, hbegins⟩ := d.exists_head
  have htoken : s.cursor.token = token := (h.begins htokens).token_eq
  have hlast {part : Parser Shaped} (hpart : Reads part s True fun part s' =>
      part.1.expr = d.expr ∧ part.2.IsCalm ∧ Stands s' (next :: tokens)) :
      Reads (part >>= fun part => pure (Element.item part.1.expr :: taken, part.2)) s True
        fun elements s' =>
        elements.1 = .item d.expr :: taken ∧ elements.2.IsCalm ∧ Stands s' (next :: tokens) :=
    hpart.bind_first fun part s' hs' => ⟨trivial, by rw [hs'.1], hs'.2⟩
  unfold element
  simp only [Reads.sees_bind, htoken, hbegins.dots, Bool.false_eq_true, if_false,
    Reads.openWord?_bind, Reads.peek_bind, hbegins.opens]
  split
  · next hword =>
    have hcollection : d.isCollection = false := Bool.eq_false_iff.mpr fun hcollection => by
      rw [← Token.opensWord, hbegins.word hcollection] at hword
      cases hword
    exact hlast (reads_wordElement hend hshape hnext (hself.primary hcollection hfield rfl hnext h))
  · split
    · next hcollection =>
        exact hlast (reads_patternElement hend hshape (hself.collection hcollection hfield hnext h))
    · next hcollection =>
      have hungrouped : ctx.ungrouped.inField = false := hfield
      exact hlast (reads_valueElement hend hshape hnext hbudget (htoken ▸ hbegins.parenthesis)
        (hself.primary (Bool.eq_false_iff.mpr hcollection) hungrouped rfl hnext h))

/-! ### Loops over parts -/

theorem commaTokens_cons {α : Type} (part : α → List Token) (x : α) (xs : List α) :
    ∃ more, commaTokens ((x :: xs).map part) = part x ++ more := by
  cases xs with
  | nil => exact ⟨[], (List.append_nil _).symm⟩
  | cons y xs => exact ⟨_, rfl⟩

/-- A loop that reads one part in each turn, up to something else, keeps track of the parts that it
has read. -/
theorem reads_parts {α σ β : Type} {step : σ → Parser (Turn σ β)} {part : α → List Token}
    {closing behind : List Token} (Read : List α → σ → Prop) (Done : List α → β → Prop) (all : List α)
    (hagain : ∀ {done state s x y more}, x ∈ all → y ∈ all → Read done state →
      Stands s (part x ++ .mark "," :: (part y ++ more)) → Reads (step state) s True fun turn s' =>
        ∃ state', turn = .again state' ∧ Read (done ++ [x]) state' ∧ Stands s' (part y ++ more))
    (hdone : ∀ {done state s x}, x ∈ all → Read done state → Stands s (part x ++ closing) →
      Reads (step state) s True fun turn s' =>
        ∃ result, turn = .done result ∧ Done (done ++ [x]) result ∧ Stands s' behind) :
    ∀ {xs x done state turns s}, (∀ y ∈ x :: xs, y ∈ all) → xs.length < turns → Read done state →
      Stands s (commaTokens ((x :: xs).map part) ++ closing) →
      Reads (iterate step turns state) s True fun result s' => Done (done ++ x :: xs) result ∧
        Stands s' behind := by
  -- on the parts behind the next one; `Read` is what each turn keeps
  intro xs
  induction xs with
  | nil =>
    intro x done state turns s hall hturns hread h
    obtain ⟨turns, rfl⟩ := Nat.exists_eq_succ_of_ne_zero (Nat.ne_of_gt hturns)
    exact Reads.done (hdone (hall x List.mem_cons_self) hread h)
  | cons y xs ih =>
    intro x done state turns s hall hturns hread h
    obtain ⟨turns, rfl⟩ := Nat.exists_eq_succ_of_ne_zero (Nat.ne_of_gt (Nat.zero_lt_of_lt hturns))
    obtain ⟨more, hmore⟩ := commaTokens_cons part y xs
    have hparts : commaTokens ((x :: y :: xs).map part) ++ closing = part x ++ .mark "," ::
        (part y ++ (more ++ closing)) := by
      rw [← List.append_assoc (part y), ← hmore]
      simp only [List.map_cons, commaTokens, List.append_assoc, List.cons_append]
    rw [hparts] at h
    refine (Reads.again (hagain (hall x (by simp)) (hall y (by simp)) hread h) fun state' s' hs' =>
      ?_).congr
      (iff_of_eq (and_true True))
    rw [← List.append_assoc, ← hmore] at hs'
    refine (ih (fun z hz => hall z (List.mem_cons_of_mem _ hz)) (Nat.lt_of_succ_lt_succ hturns)
      hs'.1 hs'.2).imp
      fun result s'' hs'' => ?_
    rwa [List.append_assoc] at hs''

/-! ### Lists -/

private theorem list_marks : (Token.mark "[").isMark "[" = true ∧ (Token.mark "]").isMark "]" = true ∧
    (Token.mark "]").isMark "," = false ∧ (Token.mark ",").isMark "]" = false ∧
    (Token.mark ",").isMark "," = true := ⟨rfl, rfl, rfl, rfl, rfl⟩

/-- What the loop over a list has read: the elements, the last one first, and a shape. -/
private def ReadItems (done : List Datum) (state : Elements) : Prop :=
  state.1 = (Datum.elements done).reverse ∧ state.2.IsCalm

private theorem ReadItems.push {done : List Datum} {d : Datum} {state state' : Elements}
    (h : ReadItems done state) (htaken : state'.1 = .item d.expr :: state.1)
    (hshape : state'.2.IsCalm) : ReadItems (done ++ [d]) state' := by
  refine ⟨?_, hshape⟩
  rw [htaken, h.1, Datum.elements_eq, Datum.elements_eq, List.map_append, List.reverse_append]
  rfl

/-- A list of data. -/
private theorem reads_list {items : List Datum} (hself : ∀ item ∈ items, self.ReadsDatum item)
    (hbudget : 0 < self.budget) (hlength : items.length ≤ self.budget)
    (hfield : ctx.inField = false) (hnext : next.EndsCode)
    (h : Stands s ((Datum.list items).tokens ++ next :: tokens)) :
    Reads (collectionRule self ctx reading) s True fun operand s' =>
      operand.expr = (Datum.list items).expr ∧ Stands s' (next :: tokens) := by
  have hopen : s.cursor.token = .mark "[" := h.token_eq
  obtain ⟨token, more, hinside⟩ := List.exists_cons_of_ne_nil
    (show commaTokens (items.map Datum.tokens) ++ .mark "]" :: next :: tokens ≠ [] by simp)
  simp only [Datum.tokens, Datum.itemTokens_eq, List.cons_append, List.append_assoc,
    List.nil_append, hinside] at h
  unfold collectionRule arrayRule
  simp only [Reads.sees_bind, hopen, list_marks, if_true, Reads.place_bind]
  refine h.reads_expect (Token.fitsIn_operand _ _) fun s' hs' _ _ => ?_
  rw [← hinside] at hs'
  refine Reads.bind_first (R := fun state s' => ReadItems items state ∧ Stands s' (next :: tokens))
    ?_ fun state s' hs' => ?_
  · cases items with
    | nil =>
      obtain ⟨turns, hturns⟩ := Nat.exists_eq_succ_of_ne_zero (Nat.ne_of_gt hbudget)
      rw [hturns]
      refine Reads.done (hs'.reads_accept (hnext.free _) fun s' hs' _ _ => ?_)
      exact ⟨trivial, _, rfl, ⟨rfl, Shape.IsCalm.empty⟩, hs'⟩
    | cons item items =>
      have hcomma : Token.EndsCode (.mark ",") := Token.endsCode_mark _ (by decide)
      have hclose : Token.EndsCode (.mark "]") := Token.endsCode_mark _ (by decide)
      have hwithin : ctx.withIn.inField = false := hfield
      have hstart : ReadItems [] ([], {}) := ⟨rfl, Shape.IsCalm.empty⟩
      -- an item in front of a comma goes on, the one in front of the bracket ends the loop
      refine reads_parts ReadItems ReadItems (item :: items) ?_ ?_ (fun _ hmem => hmem) hlength
        hstart hs'
      · intro done state s x y more hx hy hread h
        obtain ⟨token, rest, htokens, hbegins⟩ := x.exists_head
        have hhead := h.begins htokens
        simp only [hhead.not_accept hbegins.bracket, hhead.not_accept hbegins.comma,
          Bool.false_eq_true, if_false]
        refine (reads_datumElement (hself x hx) hbudget hwithin hcomma rfl hread.2 h).bind_first
          fun state' s' hs' => ?_
        obtain ⟨token, rest, htokens, -⟩ := y.exists_head
        rw [htokens, List.cons_append] at hs' ⊢
        simp only [hs'.2.2.not_accept list_marks.2.2.2.1, Bool.false_eq_true, if_false]
        refine hs'.2.2.reads_expect (Token.fitsIn_operand _ _) fun s'' hs'' _ _ => ?_
        exact ⟨trivial, _, rfl, hread.push hs'.1 hs'.2.1, hs''⟩
      · intro done state s x hx hread h
        obtain ⟨token, rest, htokens, hbegins⟩ := x.exists_head
        have hhead := h.begins htokens
        simp only [hhead.not_accept hbegins.bracket, hhead.not_accept hbegins.comma,
          Bool.false_eq_true, if_false]
        refine (reads_datumElement (hself x hx) hbudget hwithin hclose rfl hread.2 h).bind_first
          fun state' s' hs' => ?_
        refine hs'.2.2.reads_accept (hnext.free _) fun s'' hs'' _ _ => ?_
        exact ⟨trivial, _, rfl, hread.push hs'.1 hs'.2.1, hs''⟩
  · refine (reads_end hnext.assigns hs'.1.2 hs'.2).imp fun operand s'' hoperand => ⟨?_, hoperand.2.2⟩
    rw [hoperand.1, hs'.1.1, List.reverse_reverse, Datum.expr]

/-! ### Values of properties -/

section

variable (hend : (next.isMark "," || next.isMark "\x7d") = true) (hshape : shape.IsCalm)

include hend hshape

/-- A word as a value, behind a word or a text. -/
private theorem reads_wordValue {isLabel : Bool} (hnext : next.EndsCode) (hbudget : 0 < self.budget)
    (hread : Reads (self.primary ctx { kind := reading.kind }) s True fun operand s' =>
      operand.expr = expr ∧ Stands s' (next :: tokens)) :
    Reads (wordValue self ctx reading shape isLabel) s True fun part s' =>
      part.1.expr = expr ∧ part.2.IsCalm ∧ Stands s' (next :: tokens) := by
  unfold wordValue
  simp only [Reads.place_bind]
  refine hread.bind_first fun operand s' hs' => ?_
  simp only [Reads.seesOneOf_bind]
  refine (suffixes_end hbudget hnext.toEndsOperand hs'.2).bind_first fun operand' s'' heq => ?_
  obtain ⟨rfl, rfl⟩ := heq
  simp only [Reads.endsPart_bind, hs'.2.token_eq, hend, if_true]
  split
  · exact ⟨trivial, hs'.1, hshape.join (Shape.IsCalm.ofPlace _), hs'.2⟩
  · refine ⟨trivial, hs'.1, hshape.join ((Shape.IsCalm.ofName _).join ?_), hs'.2⟩
    rw [hs'.2.calm.awaits]
    exact Shape.IsCalm.empty

/-- A word as a value, behind a key in brackets. -/
private theorem reads_computedWordValue (hnext : next.EndsCode) (hbudget : 0 < self.budget)
    (hread : Reads (self.primary ctx { kind := reading.kind }) s True fun operand s' =>
      operand.expr = expr ∧ Stands s' (next :: tokens)) :
    Reads (computedWordValue self ctx reading shape) s True fun part s' =>
      part.1.expr = expr ∧ part.2.IsCalm ∧ Stands s' (next :: tokens) := by
  unfold computedWordValue
  simp only [Reads.place_bind]
  refine hread.bind_first fun operand s' hs' => ?_
  simp only [Reads.sees_bind, Reads.seesOneOf_bind]
  refine (suffixes_end hbudget hnext.toEndsOperand hs'.2).bind_first fun operand' s'' heq => ?_
  obtain ⟨rfl, rfl⟩ := heq
  simp only [Reads.isAssignable_bind, Reads.peek_bind, Reads.endsPart_bind, hs'.2.token_eq,
    hnext.assigns, hend, Bool.false_eq_true, if_false, if_true]
  refine ⟨trivial, hs'.1, hshape.join ?_, hs'.2⟩
  split
  · exact Shape.IsCalm.ofPlace _
  · exact Shape.IsCalm.ofName _

omit hshape in
/-- A list or a record as a value. -/
private theorem reads_patternValue {isComputed : Bool}
    (hread : Reads (self.collection ctx { reading with takesValue := true }) s True fun operand s' =>
      operand.expr = expr ∧ Stands s' (next :: tokens)) :
    Reads (patternValue self ctx reading isComputed) s True fun part s' =>
      part.1.expr = expr ∧ part.2.IsCalm ∧ Stands s' (next :: tokens) := by
  unfold patternValue
  simp only [Reads.place_bind]
  refine (reads_innerCollection hread).bind_first fun operand s' hs' => ?_
  simp only [Reads.lastShape_bind, Reads.endsPart_bind, hs'.2.token_eq, hend, if_true, Reads.pure_iff]
  exact ⟨trivial, hs'.1, hs'.2.calm, hs'.2⟩

/-- Any other value. -/
private theorem reads_plainValue {isLabel : Bool} (hnext : next.EndsCode) (hbudget : 0 < self.budget)
    (hread : ∀ ctx' : Context, ctx'.inField = ctx.inField →
      Reads (self.primary ctx' {}) s True fun operand s' =>
      operand.expr = expr ∧ Stands s' (next :: tokens)) :
    Reads (plainValue self ctx shape isLabel) s True fun part s' =>
      part.1.expr = expr ∧ part.2.IsCalm ∧ Stands s' (next :: tokens) := by
  have hctx : (if isLabel then ctx else ctx.ungrouped).inField = ctx.inField := by split <;> rfl
  unfold plainValue
  simp only [Reads.place_bind]
  refine (leftHand_of_primary self hbudget hnext.toEndsOperand (hread _ hctx)).bind_first
    fun operand s' hs' => ?_
  simp only [Reads.endsPart_bind, hs'.2.token_eq, hend, if_true, Reads.isAssignable_bind, Reads.pure_iff]
  exact ⟨trivial, hs'.1, hshape.join (Shape.IsCalm.ofPlace _), hs'.2⟩

end

/-- Data as the value of a property. -/
theorem reads_value {d : Datum} {key : Key} (hself : self.ReadsDatum d) (hbudget : 0 < self.budget)
    (hfield : ctx.inField = false) (hnext : next.EndsCode)
    (hend : (next.isMark "," || next.isMark "\x7d") = true) (hshape : shape.IsCalm)
    (h : Stands s (d.tokens ++ next :: tokens)) :
    Reads (propertyValue self ctx reading shape key) s True fun part s' =>
      part.1.expr = d.expr ∧ part.2.IsCalm ∧ Stands s' (next :: tokens) := by
  obtain ⟨token, more, htokens, hbegins⟩ := d.exists_head
  have htoken : s.cursor.token = token := (h.begins htokens).token_eq
  unfold propertyValue
  simp only [Reads.openWord?_bind, htoken]
  split
  · next hword =>
    have hcollection : d.isCollection = false := Bool.eq_false_iff.mpr fun hcollection => by
      rw [← Token.opensWord, hbegins.word hcollection] at hword
      cases hword
    split
    · exact reads_computedWordValue hend hshape hnext hbudget
        (hself.primary hcollection hfield rfl hnext h)
    · exact reads_wordValue hend hshape hnext hbudget (hself.primary hcollection hfield rfl hnext h)
  · simp only [Reads.peek_bind, htoken, hbegins.opens]
    split
    · next hcollection => exact reads_patternValue hend (hself.collection hcollection hfield hnext h)
    · next hcollection =>
      exact reads_plainValue hend hshape hnext hbudget fun ctx' hctx' =>
        hself.primary (Bool.eq_false_iff.mpr hcollection) (hctx'.trans hfield) rfl hnext h

/-! ### Properties -/

/-- What the key of a property begins with. -/
structure Token.BeginsKey (token : Token) : Prop where
  dots : token.isMark "..." = false
  brace : token.isMark "\x7d" = false
  free : token.IsFree

theorem entryPart_head (entry : Text × Datum) :
    ∃ token more, Datum.entryPart entry = token :: more ∧ token.BeginsKey := by
  unfold Datum.entryPart keyTokens
  split
  · exact ⟨_, _, rfl, rfl, rfl, fun _ => trivial⟩
  · split
    · exact ⟨_, _, rfl, rfl, rfl, fun _ => trivial⟩
    · exact ⟨_, _, rfl, rfl, rfl, fun _ => trivial⟩

private theorem isPrototype_keyOf (key : Text) : (keyOf key).isPrototype = false := by
  unfold keyOf
  split
  · rfl
  · next hkey =>
    split
    · exact Bool.eq_false_iff.mpr hkey
    · exact Bool.eq_false_iff.mpr hkey

private theorem colon_marks :
    (Token.mark ":").isOneOf [",", "\x7d", "="] = false ∧ (Token.mark "[").isMark "*" = false ∧
    (Token.mark ",").isMark "\x7d" = false := ⟨rfl, rfl, rfl⟩

/-- What the loop over an object has read: the properties, the last one first, a shape, and no
prototype. -/
private structure ReadEntries (done : List (Text × Datum)) (state : Properties) : Prop where
  taken : state.taken = (Datum.properties done).reverse
  calm : state.shape.IsCalm
  prototypes : state.prototypes = 0

private theorem ReadEntries.reshape {done : List (Text × Datum)} {state : Properties}
    (h : ReadEntries done state) (hshape : shape.IsCalm) : ReadEntries done { state with shape } :=
    ⟨h.taken, hshape, h.prototypes⟩

section

variable {d : Datum} {done : List (Text × Datum)} {state : Properties} (hself : self.ReadsDatum d)
  (hbudget : 0 < self.budget) (hfield : ctx.inField = false) (hnext : next.EndsCode)
  (hend : (next.isMark "," || next.isMark "\x7d") = true) (hread : ReadEntries done state)

include hself hbudget hfield hnext hend hread

private theorem reads_addValue (key : Text) (h : Stands s (d.tokens ++ next :: tokens)) :
    Reads (Properties.addValue self ctx reading state (keyOf key)) s True fun state' s' =>
      ReadEntries (done ++ [(key, d)]) state' ∧ Stands s' (next :: tokens) := by
  unfold Properties.addValue
  refine (reads_value hself hbudget hfield hnext hend hread.calm h).bind_first fun part s' hs' => ?_
  refine ⟨trivial, ⟨?_, hs'.2.1, ?_⟩, hs'.2.2⟩
  · rw [hread.taken, hs'.1, Datum.properties_eq, Datum.properties_eq, List.map_append,
      List.reverse_append]
    rfl
  · rw [isPrototype_keyOf, hread.prototypes]
    rfl

/-- A property behind a word. -/
private theorem reads_label {key : Text} (hkey : keyOf key = .label key)
    (h : Stands s (.ofName key :: .mark ":" :: (d.tokens ++ next :: tokens))) :
    Reads (state.add self ctx reading) s True fun state' s' =>
      ReadEntries (done ++ [(key, d)]) state' ∧ Stands s' (next :: tokens) := by
  obtain ⟨token, more, htokens, -⟩ := d.exists_head
  unfold Properties.add
  simp only [Reads.peek_bind, h.token_eq, Token.ofName, Properties.addWord]
  refine h.reads_passName trivial fun s' hs' _ _ => ?_
  simp only [Reads.seesOneOf_bind, hs'.token_eq, colon_marks, Bool.false_eq_true, if_false]
  rw [htokens, List.cons_append] at hs'
  refine hs'.reads_accept (Token.fitsIn_operand _ _) fun s' hs' _ _ => ?_
  rw [← List.cons_append, ← htokens] at hs'
  have hread' :=
    hread.reshape
    (hread.calm.join (Shape.IsCalm.noPattern (decide (Vocabulary.ofWord key = .disguisedFuture))))
  rw [← hkey]
  exact reads_addValue hself hbudget hfield hnext hend hread' key hs'

/-- A property behind a text or brackets. -/
private theorem reads_addKey {key : Text}
    (hkey : Reads (propertyKey self ctx) s True fun found s' =>
      found = keyOf key ∧ Stands s' (.mark ":" :: (d.tokens ++ next :: tokens))) :
    Reads (state.addKey self ctx reading) s True fun state' s' =>
      ReadEntries (done ++ [(key, d)]) state' ∧ Stands s' (next :: tokens) := by
  obtain ⟨token, more, htokens, -⟩ := d.exists_head
  unfold Properties.addKey
  refine hkey.bind_first fun found s' hs' => ?_
  obtain ⟨rfl, hs'⟩ := hs'
  rw [htokens, List.cons_append] at hs'
  simp only [Reads.lastShape_bind, hs'.calm.yields, Bool.false_and]
  refine hs'.reads_accept (Token.fitsIn_operand _ _) fun s' hs' _ _ => ?_
  rw [← List.cons_append, ← htokens] at hs'
  exact reads_addValue hself hbudget hfield hnext hend
    (hread.reshape (hread.calm.join Shape.IsCalm.empty)) key hs'

/-- A property behind a text. -/
private theorem reads_textKey {key : Text} (hkey : keyOf key = .literal (.string key))
    (h : Stands s (.string key false :: .mark ":" :: (d.tokens ++ next :: tokens))) :
    Reads (state.add self ctx reading) s True fun state' s' =>
      ReadEntries (done ++ [(key, d)]) state' ∧ Stands s' (next :: tokens) := by
  have hmark : (Token.string key false).isMark "*" = false := rfl
  unfold Properties.add
  simp only [Reads.peek_bind, h.token_eq, h.not_accept hmark, Bool.false_eq_true, if_false]
  refine reads_addKey hself hbudget hfield hnext hend hread ?_
  unfold propertyKey literalKey
  simp only [Reads.peek_bind, h.token_eq, literal?, require?, pure_bind]
  refine h.reads_advance trivial fun s' hs' _ _ => ?_
  simp only [Reads.setAssignable_bind, Reads.pure_iff, hkey]
  exact ⟨trivial, trivial, hs'.assign false⟩

/-- A property behind a text in brackets. -/
private theorem reads_computedKey {key : Text} (hkey : keyOf key = .computed (.string key))
    (hassignment : ∀ {ctx : Context} {s : Progress} {tokens : List Token}, ctx.inField = false →
      Stands s (.string key false :: .mark "]" :: tokens) →
      Reads (self.assignment ctx) s True fun operand s' =>
        operand.expr = .string key ∧ Stands s' (.mark "]" :: tokens))
    (h : Stands s
      (.mark "[" :: .string key false :: .mark "]" :: .mark ":" :: (d.tokens ++ next :: tokens))) :
    Reads (state.add self ctx reading) s True fun state' s' =>
      ReadEntries (done ++ [(key, d)]) state' ∧ Stands s' (next :: tokens) := by
  unfold Properties.add
  simp only [Reads.peek_bind, h.token_eq, h.not_accept colon_marks.2.1, Bool.false_eq_true, if_false]
  refine reads_addKey hself hbudget hfield hnext hend hread ?_
  unfold propertyKey computedKey
  simp only [Reads.peek_bind, h.token_eq]
  refine h.reads_expect trivial fun s' hs' _ _ => ?_
  have hwithin : ctx.withIn.inField = false := hfield
  refine (hassignment hwithin hs').bind_first fun operand s' hs' => ?_
  refine hs'.2.reads_expect trivial fun s'' hs'' _ _ => ?_
  exact ⟨trivial, by rw [hs'.1, hkey], hs''⟩

/-- A property with any key. -/
private theorem reads_addPart {key : Text}
    (hassignment : ∀ {ctx : Context} {s : Progress} {tokens : List Token}, ctx.inField = false →
      Stands s (.string key false :: .mark "]" :: tokens) →
      Reads (self.assignment ctx) s True fun operand s' =>
        operand.expr = .string key ∧ Stands s' (.mark "]" :: tokens))
    (h : Stands s (Datum.entryPart (key, d) ++ next :: tokens)) :
    Reads (state.addPart self ctx reading) s True fun state' s' =>
      ReadEntries (done ++ [(key, d)]) state' ∧ Stands s' (next :: tokens) := by
  obtain ⟨token, more, htokens, hbegins⟩ := entryPart_head (key, d)
  have htoken : s.cursor.token = token := (h.begins htokens).token_eq
  have hadd : Reads (state.add self ctx reading) s True fun state' s' =>
      ReadEntries (done ++ [(key, d)]) state' ∧ Stands s' (next :: tokens) := by
    unfold Datum.entryPart keyTokens at h
    split at h
    · next hprototype =>
      exact reads_computedKey hself hbudget hfield hnext hend hread (if_pos hprototype) hassignment h
    · next hprototype =>
      split at h
      · next hplain =>
        exact reads_label hself hbudget hfield hnext hend hread
          ((if_neg hprototype).trans (if_pos hplain)) h
      · next hplain =>
        exact reads_textKey hself hbudget hfield hnext hend hread
          ((if_neg hprototype).trans (if_neg hplain)) h
  unfold Properties.addPart
  simp only [Reads.sees_bind, htoken, hbegins.dots, Bool.false_eq_true, if_false]
  refine hadd.bind_first fun state' s' hs' => ?_
  simp only [Reads.lastShape_bind, hs'.2.calm.awaits, Reads.setShape_bind, Reads.pure_iff]
  have hcalm := hs'.1.calm.join Shape.IsCalm.empty
  exact ⟨trivial, hs'.1.reshape hcalm, hs'.2.reshape hcalm⟩

end

/-! ### Records -/

/-- A text in front of a closing bracket, as an expression. -/
private theorem reads_bracketText {key : Text} {depth : Nat} (hfield : ctx.inField = false)
    (h : Stands s (.string key false :: .mark "]" :: tokens)) :
    Reads ((rules (depth + 2)).assignment ctx) s True fun operand s' =>
      operand.expr = .string key ∧ Stands s' (.mark "]" :: tokens) := by
  have hclose : Token.EndsCode (.mark "]") := Token.endsCode_mark _ (by decide)
  have hprimary : Reads ((rules (depth + 1)).primary ctx {}) s True fun operand s' =>
      operand.expr = .string key ∧ Stands s' (.mark "]" :: tokens) :=
    reads_atom (rules depth) (.literal rfl) hfield hclose.toEndsOperand h
  exact assignment_of_leftHand hclose
    (leftHand_of_primary (rules (depth + 1)) (Nat.succ_pos _) hclose.toEndsOperand hprimary)

/-- What stands behind the brace that opens a record is read alike in all contexts. -/
private theorem entries_head (entries : List (Text × Datum)) (tokens : List Token) : ∃ token more,
    commaTokens (entries.map Datum.entryPart) ++ .mark "\x7d" :: tokens = token :: more ∧
      token.IsFree := by
  cases entries with
  | nil => exact ⟨_, _, rfl, fun _ => trivial⟩
  | cons entry entries =>
    obtain ⟨token, rest, htokens, hbegins⟩ := entryPart_head entry
    obtain ⟨behind, hparts⟩ := commaTokens_cons Datum.entryPart entry entries
    exact ⟨token, _, by rw [hparts, htokens, List.cons_append, List.cons_append], hbegins.free⟩

/-- A record of data. -/
private theorem reads_record {entries : List (Text × Datum)} {depth : Nat}
    (hself : ∀ entry ∈ entries, (rules (depth + 2)).ReadsDatum entry.2)
    (hlength : entries.length ≤ depth + 2) (hfield : ctx.inField = false) (hnext : next.EndsCode)
    (h : Stands s ((Datum.record entries).tokens ++ next :: tokens)) :
    Reads (collectionRule (rules (depth + 2)) ctx reading) s True fun operand s' =>
      operand.expr = (Datum.record entries).expr ∧ Stands s' (next :: tokens) := by
  have hopen : s.cursor.token = .mark "\x7b" := h.token_eq
  have hbrace : (Token.mark "\x7b").isMark "[" = false := rfl
  have hwithin : ctx.withIn.inField = false := hfield
  have hstart : ReadEntries [] ⟨[], {}, 0⟩ := ⟨rfl, Shape.IsCalm.empty, rfl⟩
  have hbudget : 0 < (rules (depth + 2)).budget := Nat.succ_pos _
  obtain ⟨token, more, hinside, hfree⟩ := entries_head entries (next :: tokens)
  simp only [Datum.tokens, Datum.entryTokens_eq, List.cons_append, List.append_assoc,
    List.nil_append, hinside] at h
  unfold collectionRule objectRule
  simp only [Reads.sees_bind, hopen, hbrace, Bool.false_eq_true, if_false, Reads.place_bind]
  refine h.reads_expect (hfree _) fun s' hs' _ _ => ?_
  rw [← hinside] at hs'
  refine Reads.bind_first
    (R := fun state s' => ReadEntries entries state ∧ Stands s' (next :: tokens)) ?_
    fun state s' hs' => ?_
  · cases entries with
    | nil =>
      refine Reads.done (hs'.reads_accept (hnext.free _) fun s' hs' _ _ => ?_)
      exact ⟨trivial, _, rfl, hstart, hs'⟩
    | cons entry entries =>
      have hcomma : Token.EndsCode (.mark ",") := Token.endsCode_mark _ (by decide)
      have hclose : Token.EndsCode (.mark "\x7d") := Token.endsCode_mark _ (by decide)
      -- an entry in front of a comma goes on, the one in front of the brace ends the loop
      refine reads_parts ReadEntries ReadEntries (entry :: entries) ?_ ?_
        (fun _ hmem => hmem) hlength hstart hs'
      · intro done state s x y more hx hy hread h
        obtain ⟨token, rest, htokens, hbegins⟩ := entryPart_head x
        simp only [(h.begins htokens).not_accept hbegins.brace, Bool.false_eq_true, if_false]
        refine (reads_addPart (hself x hx) hbudget hwithin hcomma rfl hread reads_bracketText
          h).bind_first
          fun state' s' hs' => ?_
        obtain ⟨token, rest, htokens, hbegins⟩ := entryPart_head y
        rw [htokens, List.cons_append] at hs' ⊢
        simp only [hs'.2.not_accept colon_marks.2.2, Bool.false_eq_true, if_false]
        refine hs'.2.reads_expect (hbegins.free _) fun s'' hs'' _ _ => ?_
        exact ⟨trivial, _, rfl, hs'.1, hs''⟩
      · intro done state s x hx hread h
        obtain ⟨token, rest, htokens, hbegins⟩ := entryPart_head x
        simp only [(h.begins htokens).not_accept hbegins.brace, Bool.false_eq_true, if_false]
        refine (reads_addPart (hself x hx) hbudget hwithin hclose rfl hread reads_bracketText
          h).bind_first
          fun state' s' hs' => ?_
        refine hs'.2.reads_accept (hnext.free _) fun s'' hs'' _ _ => ?_
        exact ⟨trivial, _, rfl, hs'.1, hs''⟩
  · obtain ⟨hread, hs'⟩ := hs'
    have hshape : (state.shape.join { repeatsPrototype := decide (1 < state.prototypes) }).IsCalm := by
      rw [hread.prototypes]
      exact hread.calm.join Shape.IsCalm.empty
    refine (reads_end hnext.assigns hshape hs').imp fun operand s'' hoperand => ⟨?_, hoperand.2.2⟩
    rw [hoperand.1, hread.taken, List.reverse_reverse, Datum.expr]

/-! ### Any data -/

private theorem Datum.length_pos (d : Datum) : 0 < d.tokens.length := by
  obtain ⟨token, more, htokens, -⟩ := d.exists_head
  rw [htokens]
  exact Nat.succ_pos _

private theorem Datum.length_entryPart_pos (entry : Text × Datum) :
    0 < (Datum.entryPart entry).length := by
  simp only [Datum.entryPart, List.length_append, List.length_cons]
  omega

theorem length_parts {α : Type} (part : α → List Token) (hpart : ∀ x, 0 < (part x).length) :
    ∀ xs : List α,
    xs.length ≤ (commaTokens (xs.map part)).length ∧ ∀ x ∈ xs,
      (part x).length ≤ (commaTokens (xs.map part)).length
  | [] => ⟨Nat.le_refl _, fun _ h => absurd h List.not_mem_nil⟩
  | [x] => ⟨hpart x, fun y hy => by rw [List.mem_singleton.mp hy]; exact Nat.le_refl _⟩
  | x :: y :: xs => by
    obtain ⟨hlength, hparts⟩ := length_parts part hpart (y :: xs)
    have hx := hpart x
    simp only [List.map_cons, commaTokens, List.length_append, List.length_cons,
      List.forall_mem_cons] at hlength hparts ⊢
    exact ⟨by omega, by omega, by omega, fun z hz => Nat.le_trans (hparts.2 z hz) (by omega)⟩

/-- Given some depth for each of its tokens, data is read. -/
theorem reads_datum : ∀ (depth : Nat) (d : Datum), d.tokens.length < depth → (rules depth).ReadsDatum d
  | 0, _, hlength => absurd hlength (Nat.not_lt_zero _)
  | depth + 1, .atom a, _ => by
    refine ⟨fun _ ctx here s next tokens hfield _ hnext h => ?_, fun hcollection =>
      Bool.noConfusion hcollection⟩
    exact reads_atom (rules depth) a.means hfield hnext.toEndsOperand h
  | depth + 1, .negative a, hlength => by
    refine ⟨fun _ ctx here s next tokens hfield hoperand hnext h => ?_, fun hcollection =>
      Bool.noConfusion hcollection⟩
    obtain ⟨depth, rfl⟩ : ∃ d, depth = d + 1 :=
      ⟨depth - 1, by simp only [Datum.tokens, List.length_cons] at hlength; omega⟩
    exact reads_negative a.means hfield hoperand hnext h
  | depth + 1, .list items, hlength => by
    refine ⟨fun hcollection => Bool.noConfusion hcollection,
      fun _ ctx reading s next tokens hfield hnext h => ?_⟩
    obtain ⟨hcount, hparts⟩ := length_parts Datum.tokens Datum.length_pos items
    simp only [Datum.tokens, Datum.itemTokens_eq, List.length_cons, List.length_append,
      List.length_nil] at hlength
    obtain ⟨depth, rfl⟩ : ∃ d, depth = d + 1 := ⟨depth - 1, by omega⟩
    have hself : ∀ item ∈ items, (rules (depth + 1)).ReadsDatum item := fun item hmem =>
      reads_datum (depth + 1) item (Nat.lt_of_le_of_lt (hparts item hmem) (by omega))
    have hbudget : items.length ≤ depth + 1 := by omega
    exact reads_list hself (Nat.succ_pos _) hbudget hfield hnext h
  | depth + 1, .record entries, hlength => by
    refine ⟨fun hcollection => Bool.noConfusion hcollection,
      fun _ ctx reading s next tokens hfield hnext h => ?_⟩
    obtain ⟨hcount, hparts⟩ := length_parts Datum.entryPart Datum.length_entryPart_pos entries
    simp only [Datum.tokens, Datum.entryTokens_eq, List.length_cons, List.length_append,
      List.length_nil] at hlength
    -- a key in brackets is an expression of its own and takes two levels
    obtain ⟨depth, rfl⟩ : ∃ d, depth = d + 2 := ⟨depth - 2, by omega⟩
    have hself : ∀ entry ∈ entries, (rules (depth + 2)).ReadsDatum entry.2 := fun entry hmem => by
      have hentry := hparts entry hmem
      simp only [Datum.entryPart, List.length_append, List.length_cons] at hentry
      exact reads_datum (depth + 2) entry.2 (by omega)
    exact reads_record hself (by omega) hfield hnext h

end JsonCompanion.Script
