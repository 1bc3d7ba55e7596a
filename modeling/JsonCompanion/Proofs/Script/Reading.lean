import JsonCompanion.Script.Grammar

/-!
# How parsers read

A parser is followed token by token.

* `Spells` says that a text consists of some tokens, in whatever context they are read; lines end
  only in front of words.
* `Stands` says that a parser stands in front of some tokens; `Stands.reads_advance` and its kin
  move on over the first of them.
* `Reads` says when a parser succeeds from a state, and what holds then; `Reads.bind` follows a
  parser through its parts, and the `bind` lemmas of the single steps are rewriting rules.
-/

namespace JsonCompanion.Script

variable {α β : Type}

/-! ### Contexts -/

/-- Code of a module outside the values of fields. -/
structure Context.IsPlain (ctx : Context) : Prop where
  isModule : ctx.isModule = true
  strict : ctx.strict = true
  inField : ctx.inField = false

namespace Context.IsPlain

variable {ctx : Context}

theorem module : Context.module.IsPlain := ⟨rfl, rfl, rfl⟩

theorem operand (h : ctx.IsPlain) : ctx.operand.IsPlain := ⟨h.isModule, h.strict, h.inField⟩

theorem tagged (h : ctx.IsPlain) : ctx.tagged.IsPlain := ⟨h.isModule, h.strict, h.inField⟩

theorem withIn (h : ctx.IsPlain) : ctx.withIn.IsPlain := ⟨h.isModule, h.strict, h.inField⟩

theorem grouped (h : ctx.IsPlain) : ctx.grouped.IsPlain := ⟨h.isModule, h.strict, h.inField⟩

theorem ungrouped (h : ctx.IsPlain) : ctx.ungrouped.IsPlain := ⟨h.isModule, h.strict, h.inField⟩

theorem arrow (h : ctx.IsPlain) (isAsync : Bool) : (ctx.arrow isAsync).IsPlain :=
  ⟨h.isModule, h.strict, h.inField⟩

end Context.IsPlain

/-! ### Shapes -/

/-- Nothing in the shape forbids an expression, and no operator occurs in it that is a name elsewhere. -/
structure Shape.IsCalm (shape : Shape) : Prop where
  onlyPattern : shape.onlyPattern = false
  repeatsPrototype : shape.repeatsPrototype = false
  awaits : shape.awaits = false
  yields : shape.yields = false

namespace Shape.IsCalm

variable {a b : Shape}

theorem empty : Shape.IsCalm {} := ⟨rfl, rfl, rfl, rfl⟩

theorem noPattern (refused : Bool) : Shape.IsCalm { noPattern := refused } := ⟨rfl, rfl, rfl, rfl⟩

theorem noBinding (refused : Bool) : Shape.IsCalm { noBinding := refused } := ⟨rfl, rfl, rfl, rfl⟩

theorem ofName (assignable : Bool) : (Shape.ofName assignable).IsCalm := noPattern _

theorem ofPlace (assignable : Bool) : (Shape.ofPlace assignable).IsCalm := by
  cases assignable
  · exact noPattern true
  · exact noBinding true

theorem join (ha : a.IsCalm) (hb : b.IsCalm) : (a.join b).IsCalm := by
  constructor <;>
    simp only [Shape.join, ha.onlyPattern, ha.repeatsPrototype, ha.awaits, ha.yields, hb.onlyPattern,
      hb.repeatsPrototype, hb.awaits, hb.yields, Bool.or_false]

theorem operator_eq (h : a.IsCalm) : a.operator = {} := by
  simp only [Shape.operator, h.awaits, h.yields, Bool.false_and]

end Shape.IsCalm

/-! ### Tokens ahead -/

/-- The word that a token is. -/
def Token.word? : Token → Option Word
  | .word w => some w
  | _ => none

/-- A regular expression is read only where an operand may begin. -/
def Token.FitsIn : Token → Context → Prop
  | .regex .., ctx => ctx.expectsOperand = true
  | _, _ => True

theorem Token.fitsIn_operand (token : Token) (ctx : Context) : token.FitsIn ctx.operand := by
  cases token <;> trivial

/-- The token is read alike in all contexts. -/
def Token.IsFree (token : Token) : Prop := ∀ ctx, token.FitsIn ctx

theorem Token.isFree_mark (mark : Text) : Token.IsFree (.mark mark) := fun _ => trivial

/-- Whatever the context that fits them, a text begins with the given tokens, and lines end only in
front of words. -/
def Spells : Text → List Token → Prop
  | _, [] => True
  | t, token :: tokens => ∃ rest, Spells rest tokens ∧ ∀ ctx offset previousStop comments written,
      token.FitsIn ctx → ∃ start stop lineBreak, (token.word? = none → lineBreak = false) ∧
        Cursor.at? ctx t offset previousStop comments written =
          some ⟨token, start, stop, lineBreak, previousStop, rest, comments,
            Cursor.writtenBy written token⟩

/-- A parser stands in front of the given tokens, and what it has read before is of no concern. -/
structure Stands (s : Progress) (tokens : List Token) : Prop where
  head : tokens.head? = some s.cursor.token
  tail : Spells s.cursor.rest tokens.tail
  sameLine : s.cursor.token.word? = none → s.cursor.lineBreak = false
  written : ∃ previous, s.cursor.written = Cursor.writtenBy previous s.cursor.token
  endsCalls : s.endsCalls = false
  calm : s.shape.IsCalm

namespace Stands

variable {s : Progress} {token next : Token} {tokens : List Token}

theorem token_eq (h : Stands s (token :: tokens)) : s.cursor.token = token :=
  (Option.some.inj h.head).symm

/-- The first token of the part that stands at the front. -/
theorem begins {part more : List Token} (h : Stands s (part ++ tokens)) (hpart : part = token :: more) :
    Stands s (token :: (more ++ tokens)) := by
  rwa [hpart, List.cons_append] at h

theorem assign (h : Stands s tokens) (assignable : Bool) : Stands { s with assignable } tokens :=
  ⟨h.head, h.tail, h.sameLine, h.written, h.endsCalls, h.calm⟩

theorem reshape (h : Stands s tokens) {shape : Shape} (hshape : shape.IsCalm) :
    Stands { s with shape } tokens :=
  ⟨h.head, h.tail, h.sameLine, h.written, h.endsCalls, hshape⟩

/-- The token behind the first one. -/
theorem next? (h : Stands s (token :: next :: tokens)) (ctx : Context) (hfits : next.FitsIn ctx) :
    ∃ cursor, s.cursor.next? ctx = some cursor ∧ cursor.token = next := by
  obtain ⟨rest, -, hat⟩ := h.tail
  obtain ⟨start, stop, lineBreak, -, heq⟩ :=
    hat ctx s.cursor.stop s.cursor.stop s.cursor.comments s.cursor.written hfits
  exact ⟨_, heq, rfl⟩

/-- The next token is at hand behind the first one. -/
theorem advance (h : Stands s (token :: next :: tokens)) (ctx : Context) (hfits : next.FitsIn ctx) :
    ∃ s', Script.advance ctx s = some ((), s') ∧ Stands s' (next :: tokens) ∧
      s'.assignable = s.assignable ∧ s'.shape = s.shape := by
  obtain ⟨rest, hrest, hat⟩ := h.tail
  obtain ⟨start, stop, lineBreak, hline, heq⟩ :=
    hat ctx s.cursor.stop s.cursor.stop s.cursor.comments s.cursor.written hfits
  let cursor : Cursor := ⟨next, start, stop, lineBreak, s.cursor.stop, rest, s.cursor.comments,
    Cursor.writtenBy s.cursor.written next⟩
  have hnext : s.cursor.next? ctx = some cursor := heq
  refine ⟨{ s with cursor, sawLegacy := s.sawLegacy || next.isLegacy }, ?_,
    ⟨rfl, hrest, hline, ⟨_, rfl⟩, h.endsCalls, h.calm⟩, rfl, rfl⟩
  show ((require? (s.cursor.next? ctx) : Parser Cursor) s).bind _ = _
  rw [hnext]
  rfl

end Stands

/-- In front of a text that does not begin with a `#!` line a parser stands in front of its tokens. -/
theorem Spells.begin? {t : Text} {token : Token} {tokens : List Token} (h : Spells t (token :: tokens))
    (hhash : Text.dropBeginning? "#!" t = none) (ctx : Context) :
    ∃ cursor, Cursor.begin? ctx.operand t = some cursor ∧ Stands { cursor } (token :: tokens) := by
  obtain ⟨rest, hrest, hat⟩ := h
  obtain ⟨start, stop, lineBreak, hline, heq⟩ := hat ctx.operand 0 0 [] [] (Token.fitsIn_operand _ _)
  refine ⟨⟨token, start, stop, lineBreak, 0, rest, [], Cursor.writtenBy [] token⟩, ?_, rfl, hrest,
    hline, ⟨_, rfl⟩, rfl, Shape.IsCalm.empty⟩
  rw [Cursor.begin?, hhash]
  exact heq

/-! ### Outcomes -/

/-- From a state a parser succeeds exactly if a condition holds, and with an outcome as told. -/
def Reads (p : Parser α) (s : Progress) (good : Prop) (Q : α → Progress → Prop) : Prop :=
  match p s with
  | some (a, s') => good ∧ Q a s'
  | none => ¬ good

namespace Reads

variable {p : Parser α} {f : α → Parser β} {s : Progress} {good : Prop} {Q : β → Progress → Prop}

theorem of_none {Q : α → Progress → Prop} (h : p s = none) (hgood : ¬ good) : Reads p s good Q := by
  simp only [Reads, h]
  exact hgood

theorem imp {Q Q' : α → Progress → Prop} (h : Reads p s good Q) (himp : ∀ a s', Q a s' → Q' a s') :
    Reads p s good Q' := by
  rcases hp : p s with _ | ⟨a, s'⟩
  · simpa only [Reads, hp] using h
  · simp only [Reads, hp] at h ⊢
    exact ⟨h.1, himp a s' h.2⟩

theorem congr {good' : Prop} {Q : α → Progress → Prop} (h : Reads p s good Q) (hiff : good ↔ good') :
    Reads p s good' Q := propext hiff ▸ h

/-- The parts of a parser one after another. -/
theorem bind {first : Prop} {R : α → Progress → Prop} (h : Reads p s first R)
    (hnext : ∀ a s', R a s' → Reads (f a) s' good Q) : Reads (p >>= f) s (first ∧ good) Q := by
  have hrun : (p >>= f) s = (p s).bind fun (a, s') => f a s' := rfl
  rcases hp : p s with _ | ⟨a, s'⟩
  · simp only [Reads, hp] at h
    simp only [Reads, hrun, hp, Option.bind_none]
    exact fun hboth => h hboth.1
  · simp only [Reads, hp] at h
    have hrest := hnext a s' h.2
    rcases hf : f a s' with _ | ⟨b, s''⟩
    · simp only [Reads, hf] at hrest
      simp only [Reads, hrun, hp, Option.bind_some, hf]
      exact fun hboth => hrest hboth.2
    · simp only [Reads, hf] at hrest
      simp only [Reads, hrun, hp, Option.bind_some, hf]
      exact ⟨⟨h.1, hrest.1⟩, hrest.2⟩

/-- A last part that always succeeds adds no condition. -/
theorem bind_last {R : α → Progress → Prop} (h : Reads p s good R)
    (hnext : ∀ a s', R a s' → Reads (f a) s' True Q) : Reads (p >>= f) s good Q :=
  (h.bind hnext).congr (iff_of_eq (and_true _))

/-- A first part that always succeeds adds no condition. -/
theorem bind_first {R : α → Progress → Prop} (h : Reads p s True R)
    (hnext : ∀ a s', R a s' → Reads (f a) s' good Q) : Reads (p >>= f) s good Q :=
  (h.bind hnext).congr (iff_of_eq (true_and _))

/-- A part whose outcome is known. -/
theorem step {a : α} {s' : Progress} (h : p s = some (a, s')) (hnext : Reads (f a) s' good Q) :
    Reads (p >>= f) s good Q := by
  have hrun : (p >>= f) s = f a s' := by
    show (p s).bind _ = _
    rw [h]
    rfl
  unfold Reads at hnext ⊢
  rwa [hrun]

/-! ### Single steps -/

theorem pure_iff {a : α} {Q : α → Progress → Prop} : Reads (pure a) s good Q ↔ good ∧ Q a s := Iff.rfl

theorem require_true {f : Unit → Parser β} :
    Reads (require true >>= f) s good Q ↔ Reads (f ()) s good Q := Iff.rfl

theorem require_self {condition : Bool} : Reads (require condition) s condition fun _ s' => s' = s := by
  cases condition
  · exact fun h => Bool.noConfusion h
  · exact ⟨rfl, rfl⟩

theorem modify_bind {g : Progress → Progress} {f : Unit → Parser β} :
    Reads (modify g >>= f) s good Q ↔ Reads (f ()) (g s) good Q := Iff.rfl

theorem get_bind {f : Progress → Parser β} : Reads (get >>= f) s good Q ↔ Reads (f s) s good Q := Iff.rfl

theorem peek_bind {f : Token → Parser β} :
    Reads (peek >>= f) s good Q ↔ Reads (f s.cursor.token) s good Q := Iff.rfl

theorem place_bind {f : Nat → Parser β} :
    Reads (place >>= f) s good Q ↔ Reads (f s.cursor.start) s good Q := Iff.rfl

theorem spanFrom_bind {start : Nat} {f : Span → Parser β} :
    Reads (spanFrom start >>= f) s good Q ↔ Reads (f ⟨start, s.cursor.previousStop⟩) s good Q := Iff.rfl

theorem lastStop_bind {f : Nat → Parser β} :
    Reads (lastStop >>= f) s good Q ↔ Reads (f s.cursor.previousStop) s good Q := Iff.rfl

theorem onNewLine_bind {f : Bool → Parser β} :
    Reads (onNewLine >>= f) s good Q ↔ Reads (f s.cursor.lineBreak) s good Q := Iff.rfl

theorem sees_bind {mark : Text} {f : Bool → Parser β} :
    Reads (sees mark >>= f) s good Q ↔ Reads (f (s.cursor.token.isMark mark)) s good Q := Iff.rfl

theorem seesOneOf_bind {marks : List Text} {f : Bool → Parser β} :
    Reads (seesOneOf marks >>= f) s good Q ↔ Reads (f (s.cursor.token.isOneOf marks)) s good Q := Iff.rfl

theorem seesWord_bind {word : Text} {f : Bool → Parser β} :
    Reads (seesWord word >>= f) s good Q ↔ Reads (f (s.cursor.token.isWord word)) s good Q := Iff.rfl

theorem isAssignable_bind {f : Bool → Parser β} :
    Reads (isAssignable >>= f) s good Q ↔ Reads (f s.assignable) s good Q := Iff.rfl

theorem setAssignable_bind {assignable : Bool} {f : Unit → Parser β} :
    Reads (setAssignable assignable >>= f) s good Q ↔ Reads (f ()) { s with assignable } good Q :=
      Iff.rfl

theorem lastShape_bind {f : Shape → Parser β} :
    Reads (lastShape >>= f) s good Q ↔ Reads (f s.shape) s good Q := Iff.rfl

theorem setShape_bind {shape : Shape} {f : Unit → Parser β} :
    Reads (setShape shape >>= f) s good Q ↔ Reads (f ()) { s with shape } good Q := Iff.rfl

theorem endsPart_bind {closing : Text} {f : Bool → Parser β} :
    Reads (endsPart closing >>= f) s good Q ↔
      Reads (f (s.cursor.token.isMark "," || s.cursor.token.isMark closing)) s good Q := Iff.rfl

private theorem word?_eq (s : Progress) : Script.word? s = some (s.cursor.token.word?, s) := by
  show (match s.cursor.token with | .word word => _ | _ => _ : Parser (Option Word)) s = _
  cases s.cursor.token <;> rfl

theorem word?_bind {f : Option Word → Parser β} :
    Reads (word? >>= f) s good Q ↔ Reads (f s.cursor.token.word?) s good Q := by
  have hrun : (word? >>= f) s = f s.cursor.token.word? s := by
    show (Script.word? s).bind _ = _
    rw [word?_eq]
    rfl
  unfold Reads
  rw [hrun]

theorem openWord?_bind {f : Option Word → Parser β} : Reads (openWord? >>= f) s good Q ↔
    Reads (f (s.cursor.token.word?.filter fun word => word.vocabulary.isOpen)) s good Q := by
  unfold openWord?
  rw [bind_assoc, word?_bind, pure_bind]

/-! ### Loops -/

/-- A turn of a loop that goes on, and the turns behind it. -/
theorem again {σ : Type} {step : σ → Parser (Turn σ β)} {turns : Nat} {state : σ} {first : Prop}
    {R : σ → Progress → Prop}
    (h : Reads (step state) s first fun turn s' => ∃ state', turn = .again state' ∧ R state' s')
    (hrest : ∀ state' s', R state' s' → Reads (iterate step turns state') s' good Q) :
    Reads (iterate step (turns + 1) state) s (first ∧ good) Q := by
  refine h.bind fun turn s' hturn => ?_
  obtain ⟨state', rfl, hstate⟩ := hturn
  exact hrest state' s' hstate

/-- The last turn of a loop. -/
theorem done {σ : Type} {step : σ → Parser (Turn σ β)} {turns : Nat} {state : σ}
    (h : Reads (step state) s good fun turn s' => ∃ value, turn = .done value ∧ Q value s') :
    Reads (iterate step (turns + 1) state) s good Q := by
  refine h.bind_last fun turn s' hturn => ?_
  obtain ⟨value, rfl, hvalue⟩ := hturn
  exact ⟨trivial, hvalue⟩

end Reads

/-! ### Steps over tokens -/

namespace Stands

variable {s : Progress} {token next : Token} {tokens : List Token} {ctx : Context} {mark : Text}
  {good : Prop}
  {Q : β → Progress → Prop}

theorem reads_advance {f : Unit → Parser β} (h : Stands s (token :: next :: tokens))
    (hfits : next.FitsIn ctx)
    (hf : ∀ s', Stands s' (next :: tokens) → s'.assignable = s.assignable → s'.shape = s.shape →
      Reads (f ()) s' good Q) :
    Reads (Script.advance ctx >>= f) s good Q := by
  obtain ⟨s', heq, hs', hassign, hshape⟩ := h.advance ctx hfits
  exact Reads.step heq (hf s' hs' hassign hshape)

theorem reads_passName {f : Unit → Parser β} (h : Stands s (token :: next :: tokens))
    (hfits : next.FitsIn ctx)
    (hf : ∀ s', Stands s' (next :: tokens) → s'.assignable = s.assignable → s'.shape = s.shape →
      Reads (f ()) s' good Q) :
    Reads (passName ctx >>= f) s good Q := by
  have heq : passName ctx s = Script.advance
      (if s.cursor.token.isWord "await" then ctx.operand else ctx) s := by
    show (if s.cursor.token.isWord "await" then _ else _ : Parser Unit) s = _
    split <;> rfl
  have hbehind : next.FitsIn (if s.cursor.token.isWord "await" then ctx.operand else ctx) := by
    split
    · exact Token.fitsIn_operand _ _
    · exact hfits
  obtain ⟨s', hs, hs', hassign, hshape⟩ := h.advance _ hbehind
  exact Reads.step (heq.trans hs) (hf s' hs' hassign hshape)

theorem reads_accept {f : Bool → Parser β} (h : Stands s (.mark mark :: next :: tokens))
    (hfits : next.FitsIn ctx)
    (hf : ∀ s', Stands s' (next :: tokens) → s'.assignable = s.assignable → s'.shape = s.shape →
      Reads (f true) s' good Q) :
    Reads (accept ctx mark >>= f) s good Q := by
  obtain ⟨s', hs, hs', hassign, hshape⟩ := h.advance ctx hfits
  have haccept : accept ctx mark s = some (true, s') := by
    show (if s.cursor.token.isMark mark then _ else _ : Parser Bool) s = _
    rw [h.token_eq, if_pos (by simp only [Token.isMark, beq_self_eq_true])]
    show (Script.advance ctx s).bind _ = _
    rw [hs]
    rfl
  exact Reads.step haccept (hf s' hs' hassign hshape)

theorem reads_expect {f : Unit → Parser β} (h : Stands s (.mark mark :: next :: tokens))
    (hfits : next.FitsIn ctx)
    (hf : ∀ s', Stands s' (next :: tokens) → s'.assignable = s.assignable → s'.shape = s.shape →
      Reads (f ()) s' good Q) :
    Reads (expect ctx mark >>= f) s good Q := by
  unfold expect
  rw [bind_assoc]
  refine h.reads_accept hfits fun s' hs' hassign hshape => ?_
  exact Reads.require_true.mpr (hf s' hs' hassign hshape)

theorem not_accept {f : Bool → Parser β} (h : Stands s (token :: tokens))
    (hmark : token.isMark mark = false) :
    Reads (accept ctx mark >>= f) s good Q ↔ Reads (f false) s good Q := by
  have heq : accept ctx mark s = some (false, s) := by
    show (if s.cursor.token.isMark mark then _ else _ : Parser Bool) s = _
    rw [h.token_eq, hmark]
    rfl
  unfold Reads
  have hrun : (accept ctx mark >>= f) s = f false s := by
    show (accept ctx mark s).bind _ = _
    rw [heq]
    rfl
  rw [hrun]

variable {word : Text}

theorem reads_acceptWord {f : Bool → Parser β} (h : Stands s (token :: next :: tokens))
    (hword : token.isWord word = true) (hfits : next.FitsIn ctx)
    (hf : ∀ s', Stands s' (next :: tokens) → s'.assignable = s.assignable → s'.shape = s.shape →
      Reads (f true) s' good Q) :
    Reads (acceptWord ctx word >>= f) s good Q := by
  obtain ⟨s', hs, hs', hassign, hshape⟩ := h.advance ctx hfits
  have haccept : acceptWord ctx word s = some (true, s') := by
    show (if s.cursor.token.isWord word then _ else _ : Parser Bool) s = _
    rw [h.token_eq, if_pos hword]
    show (Script.advance ctx s).bind _ = _
    rw [hs]
    rfl
  exact Reads.step haccept (hf s' hs' hassign hshape)

theorem reads_expectWord {f : Unit → Parser β} (h : Stands s (token :: next :: tokens))
    (hword : token.isWord word = true) (hfits : next.FitsIn ctx)
    (hf : ∀ s', Stands s' (next :: tokens) → s'.assignable = s.assignable → s'.shape = s.shape →
      Reads (f ()) s' good Q) :
    Reads (expectWord ctx word >>= f) s good Q := by
  unfold expectWord
  rw [bind_assoc]
  refine h.reads_acceptWord hword hfits fun s' hs' hassign hshape => ?_
  exact Reads.require_true.mpr (hf s' hs' hassign hshape)

theorem not_acceptWord {f : Bool → Parser β} (h : Stands s (token :: tokens))
    (hword : token.isWord word = false) :
    Reads (acceptWord ctx word >>= f) s good Q ↔ Reads (f false) s good Q := by
  unfold acceptWord
  rw [bind_assoc, Reads.seesWord_bind, h.token_eq, hword]
  exact Iff.rfl

end Stands

end JsonCompanion.Script
